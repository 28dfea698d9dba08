import SafeNetwork.Node.GetSpend
import SafeNetwork.Std.Proc

/-! The node's request pipeline: `handle_request`, `add_if_valid`, `validate_spend_parents`. -/
namespace SafeNetwork.Node

/-- The node's collaborators: the overlay, its local storage, and `sn_dbc`. -/
structure NodeEnv where
  net : Network
  storageWrite : Cmd → CmdResponse
  storageRead : Query → User → QueryResponse
  tryAddDouble : SignedSpend → SignedSpend → Except Error Unit
  /-- `Event::double_spend_attempt`, which may fail. -/
  doubleSpendAttempt : SignedSpend → SignedSpend → Except Error Event
  txHash : DbcTransaction → Hash
  /-- `DbcTransaction::verify` on the parents' blinded amounts, `true` for `Ok`. -/
  txVerify : DbcTransaction → List BlindedAmount → Bool
  dbcAddress : DbcId → DbcAddress

/-- What the node does that others can observe. -/
inductive NodeEffect
  | storageWrite (cmd : Cmd)
  | tryAddDouble (a b : SignedSpend)
  | sendToClosest (req : Request)
  | sendResponse (resp : Response)
deriving DecidableEq

abbrev NodeM := Proc (List NodeEffect) Error

def emit (e : NodeEffect) : NodeM Unit := Proc.modify (· ++ [e])

/-- `send_response`: a failure to send is logged, not returned. -/
def sendResponse (resp : Response) : NodeM Unit := emit (.sendResponse resp)

variable (env : NodeEnv)

/-- The `for parent_input in &source_tx.inputs` loop of `validate_spend_parents`. -/
def fetchParents (signedSpend : SignedSpend) :
    List DbcId → List SignedSpend → Except Error (List SignedSpend)
  | [], allParentSpends => .ok allParentSpends
  | parentInput :: inputs, allParentSpends => do
    let parentSpendAtCloseGroup ← getSpend env.net (env.dbcAddress parentInput)
    if signedSpend.srcTxHash ≠ parentSpendAtCloseGroup.dstTxHash then
      .error (.protocol (.spendSrcTxHashParentTxHashMismatch signedSpend.srcTxHash
        parentSpendAtCloseGroup.dstTxHash))
    else
      fetchParents signedSpend inputs (BTreeSet.insert parentSpendAtCloseGroup allParentSpends)

def validateSpendParents (signedSpend : SignedSpend) (sourceTx : DbcTransaction) :
    Except Error Unit := do
  let allParentSpends ← fetchParents env signedSpend sourceTx.inputs []
  let knownParentBlindedAmounts := allParentSpends.map (·.blindedAmount)
  if !env.txVerify sourceTx knownParentBlindedAmounts then
    .error (.protocol (.invalidSourceTxProvided signedSpend.srcTxHash (env.txHash sourceTx)))
  else .ok ()

/-- The `storage.write(&Cmd::Dbc {..})` block of `add_if_valid`, which reports a double spend. -/
def storeSpend (signedSpend : SignedSpend) (sourceTx : DbcTransaction) : NodeM CmdResponse := do
  emit (.storageWrite (.dbc signedSpend sourceTx))
  match env.storageWrite (.dbc signedSpend sourceTx) with
  | .spend (.error (.doubleSpendAttempt new existing)) => do
    let event ← Proc.ofExcept (env.doubleSpendAttempt new existing)
    let _resp ← Proc.ofExcept (sendToClosest env.net (.event event))
    emit (.sendToClosest (.event event))
    pure (.spend (.error (.doubleSpendAttempt new existing)))
  | other => pure other

def addIfValid (signedSpend : SignedSpend) (sourceTx : DbcTransaction) : NodeM Unit :=
  let providedSrcTxHash := env.txHash sourceTx
  let signedSrcTxHash := signedSpend.srcTxHash
  if providedSrcTxHash ≠ signedSrcTxHash then
    sendResponse (.cmd (.spend (.error
      (.signedSrcTxHashDoesNotMatchProvidedSrcTxHash signedSrcTxHash providedSrcTxHash))))
  else
    match validateSpendParents env signedSpend sourceTx with
    | .ok () => do
      let response ← storeSpend env signedSpend sourceTx
      sendResponse (.cmd response)
    | .error (.protocol error) => sendResponse (.cmd (.spend (.error error)))
    -- "This should be unreachable, as we only return protocol errors."
    | .error other => Proc.throw other

def handleRequest : Request → NodeM Unit
  | .cmd (.dbc signedSpend sourceTx) => addIfValid env signedSpend sourceTx
  | .cmd cmd => do
    emit (.storageWrite cmd)
    sendResponse (.cmd (env.storageWrite cmd))
  | .query query => sendResponse (.query (env.storageRead query .anyone))
  | .event (.doubleSpendAttempted a b) => do
    emit (.tryAddDouble a b)
    Proc.ofExcept (env.tryAddDouble a b)

/-! ### Parent validation -/

/-- What `validate_spend_parents` requires of parent `p` of input `i` of `sp`. -/
def ParentOf (sp : SignedSpend) (i : DbcId) (p : SignedSpend) : Prop :=
  getSpend env.net (env.dbcAddress i) = .ok p ∧ p.dstTxHash = sp.srcTxHash

variable {env} {sp : SignedSpend} {tx : DbcTransaction}

theorem fetchParents_eq_ok {inputs : List DbcId} {acc res : List SignedSpend} :
    fetchParents env sp inputs acc = .ok res ↔
      ∃ ps, List.Forall₂ (ParentOf env sp) inputs ps ∧
        res = ps.foldl (fun s x => BTreeSet.insert x s) acc := by
  induction inputs generalizing acc with
  | nil => simp [fetchParents, eq_comm]
  | cons i inputs ih =>
    rcases hg : getSpend env.net (env.dbcAddress i) with e | p
    · simp [fetchParents, hg, bind, Except.bind, List.forall₂_cons_left_iff, ParentOf]
    · by_cases hp : sp.srcTxHash = p.dstTxHash
      · simp only [fetchParents, hg, bind, Except.bind, hp, ne_eq, not_true_eq_false, ↓reduceIte,
          ih, List.forall₂_cons_left_iff, ParentOf]
        constructor
        · rintro ⟨ps, hf, rfl⟩
          exact ⟨p :: ps, ⟨p, ps, ⟨rfl, rfl⟩, hf, rfl⟩, rfl⟩
        · rintro ⟨_, ⟨b, ps, ⟨hb, -⟩, hf, rfl⟩, rfl⟩
          cases hb
          exact ⟨ps, hf, rfl⟩
      · simp [fetchParents, bind, Except.bind, hg, hp, List.forall₂_cons_left_iff, ParentOf]
        exact fun _ h => absurd h.symm hp

/-- Inputs whose parents check out are passed over, their parents inserted. -/
theorem fetchParents_append {pre : List DbcId} {ps : List SignedSpend} (rest : List DbcId)
    (h : List.Forall₂ (ParentOf env sp) pre ps) (acc : List SignedSpend) :
    fetchParents env sp (pre ++ rest) acc =
      fetchParents env sp rest (ps.foldl (fun s x => BTreeSet.insert x s) acc) := by
  induction h generalizing acc with
  | nil => rfl
  | cons hp _ ih =>
    simp only [List.cons_append, fetchParents, hp.1, bind, Except.bind, hp.2, ne_eq,
      not_true_eq_false, ↓reduceIte, List.foldl_cons]
    exact ih _

theorem fetchParents_fetch_error {i : DbcId} {rest : List DbcId} {e : Error}
    (hg : getSpend env.net (env.dbcAddress i) = .error e) (acc : List SignedSpend) :
    fetchParents env sp (i :: rest) acc = .error e := by
  simp [fetchParents, hg, bind, Except.bind]

theorem fetchParents_mismatch {i : DbcId} {rest : List DbcId} {p : SignedSpend}
    (hg : getSpend env.net (env.dbcAddress i) = .ok p) (hp : p.dstTxHash ≠ sp.srcTxHash)
    (acc : List SignedSpend) :
    fetchParents env sp (i :: rest) acc =
      .error (.protocol (.spendSrcTxHashParentTxHashMismatch sp.srcTxHash p.dstTxHash)) := by
  simp [fetchParents, hg, bind, Except.bind, Ne.symm hp]

/-- A close group's answer is a function of the address, so the parents are determined. -/
theorem parents_unique {inputs : List DbcId} {ps qs : List SignedSpend}
    (hp : List.Forall₂ (ParentOf env sp) inputs ps) (hq : List.Forall₂ (ParentOf env sp) inputs qs) :
    ps = qs := by
  induction hp generalizing qs with
  | nil => exact (List.forall₂_nil_left_iff.1 hq).symm
  | cons hp _ ih =>
    obtain ⟨q, qs, hqa, hqs, rfl⟩ := List.forall₂_cons_left_iff.1 hq
    have hpq := hp.1.symm.trans hqa.1
    cases hpq
    rw [ih hqs]

theorem validateSpendParents_eq_ok :
    validateSpendParents env sp tx = .ok () ↔
      ∃ ps, List.Forall₂ (ParentOf env sp) tx.inputs ps ∧
        env.txVerify tx ((BTreeSet.ofList ps).map (·.blindedAmount)) = true := by
  rw [validateSpendParents]
  rcases hf : fetchParents env sp tx.inputs [] with e | res
  · simp only [bind, Except.bind, reduceCtorEq, false_iff, not_exists, not_and]
    intro ps hps _
    simp [fetchParents_eq_ok.2 ⟨ps, hps, rfl⟩] at hf
  · obtain ⟨ps, hps, rfl⟩ := fetchParents_eq_ok.1 hf
    simp only [bind, Except.bind]
    constructor
    · intro h
      refine ⟨ps, hps, ?_⟩
      simpa [BTreeSet.ofList] using h
    · rintro ⟨qs, hqs, hv⟩
      rw [← parents_unique hps hqs] at hv
      simpa [BTreeSet.ofList] using hv

theorem validateSpendParents_fetch_error {e : Error}
    (h : fetchParents env sp tx.inputs [] = .error e) : validateSpendParents env sp tx = .error e := by
  simp [validateSpendParents, h, bind, Except.bind]

theorem validateSpendParents_invalid {ps : List SignedSpend}
    (hps : List.Forall₂ (ParentOf env sp) tx.inputs ps)
    (hv : env.txVerify tx ((BTreeSet.ofList ps).map (·.blindedAmount)) = false) :
    validateSpendParents env sp tx =
      .error (.protocol (.invalidSourceTxProvided sp.srcTxHash (env.txHash tx))) := by
  simp only [BTreeSet.ofList] at hv
  simp [validateSpendParents, fetchParents_eq_ok.2 ⟨ps, hps, rfl⟩, bind, Except.bind, hv]

/-! ### What `add_if_valid` does -/

/-- The responses sent on the request's channel. -/
def responses : List NodeEffect → List Response :=
  List.filterMap fun
    | .sendResponse r => some r
    | _ => none

@[simp] theorem responses_append (l l' : List NodeEffect) :
    responses (l ++ l') = responses l ++ responses l' := List.filterMap_append l l' _

@[simp] theorem responses_nil : responses [] = [] := rfl

@[simp] theorem responses_sendResponse (r : Response) : responses [.sendResponse r] = [r] := rfl

variable {l : List NodeEffect}

theorem addIfValid_hash_mismatch (h : env.txHash tx ≠ sp.srcTxHash) :
    (addIfValid env sp tx).run l = (l ++ [.sendResponse (.cmd (.spend (.error
      (.signedSrcTxHashDoesNotMatchProvidedSrcTxHash sp.srcTxHash (env.txHash tx)))))], .ok ()) := by
  simp [addIfValid, h, sendResponse, emit]

theorem addIfValid_rejected (ha : env.txHash tx = sp.srcTxHash) {e : ProtocolError}
    (hv : validateSpendParents env sp tx = .error (.protocol e)) :
    (addIfValid env sp tx).run l = (l ++ [.sendResponse (.cmd (.spend (.error e)))], .ok ()) := by
  simp [addIfValid, ha, hv, sendResponse, emit]

theorem addIfValid_unreachable (ha : env.txHash tx = sp.srcTxHash) {e : Error}
    (hv : validateSpendParents env sp tx = .error e) (he : ∀ p, e ≠ .protocol p) :
    (addIfValid env sp tx).run l = (l, .error e) := by
  rcases e with p | e | e
  · exact absurd rfl (he p)
  all_goals simp [addIfValid, ha, hv]

/-- `storage.write` is called first; what follows sends no response and writes nothing else. -/
theorem storeSpend_run :
    ∃ rest, ((storeSpend env sp tx).run l).1 = l ++ .storageWrite (.dbc sp tx) :: rest ∧
      responses rest = [] ∧ ∀ c, NodeEffect.storageWrite c ∉ rest := by
  simp only [storeSpend, emit, Proc.run_bind, Proc.run_modify]
  split
  · rename_i new existing _
    rcases env.doubleSpendAttempt new existing with e | event
    · exact ⟨[], by simp⟩
    · rcases h : sendToClosest env.net (.event event) with e | rs
      · exact ⟨[], by simp [h]⟩
      · exact ⟨[.sendToClosest (.event event)], by simp [h, responses]⟩
  · exact ⟨[], by simp⟩

theorem addIfValid_valid (ha : env.txHash tx = sp.srcTxHash)
    (hv : validateSpendParents env sp tx = .ok ()) :
    (addIfValid env sp tx).run l =
      match (storeSpend env sp tx).run l with
      | (l', .ok response) => (l' ++ [.sendResponse (.cmd response)], .ok ())
      | (l', .error e) => (l', .error e) := by
  simp only [addIfValid, ha, ne_eq, not_true_eq_false, ↓reduceIte, hv, Proc.run_bind, sendResponse,
    emit, Proc.run_modify]
  rcases (storeSpend env sp tx).run l with ⟨l', _ | _⟩ <;> rfl

theorem addIfValid_valid_effects (ha : env.txHash tx = sp.srcTxHash)
    (hv : validateSpendParents env sp tx = .ok ()) :
    ∃ rest, ((addIfValid env sp tx).run l).1 = l ++ .storageWrite (.dbc sp tx) :: rest ∧
      (responses rest).length = (if ((addIfValid env sp tx).run l).2.isOk then 1 else 0) := by
  obtain ⟨rest, hs, hr, -⟩ := @storeSpend_run env sp tx l
  rw [addIfValid_valid ha hv]
  rcases h : (storeSpend env sp tx).run l with ⟨l', _ | response⟩
  · rw [h] at hs
    exact ⟨rest, hs, by simp [hr, Except.isOk, Except.toBool]⟩
  · rw [h] at hs
    refine ⟨rest ++ [.sendResponse (.cmd response)], ?_, by simp [hr, Except.isOk, Except.toBool]⟩
    simp only at hs
    simp [hs]

theorem addIfValid_writes_iff :
    NodeEffect.storageWrite (.dbc sp tx) ∈ ((addIfValid env sp tx).run l).1 ↔
      NodeEffect.storageWrite (.dbc sp tx) ∈ l ∨
        env.txHash tx = sp.srcTxHash ∧ validateSpendParents env sp tx = .ok () := by
  by_cases ha : env.txHash tx = sp.srcTxHash
  · rcases hv : validateSpendParents env sp tx with e | _
    · by_cases hp : ∃ p, e = .protocol p
      · obtain ⟨p, rfl⟩ := hp
        simp [addIfValid_rejected ha hv]
      · simp only [not_exists] at hp
        simp [addIfValid_unreachable ha hv hp]
    · obtain ⟨rest, h, -⟩ := addIfValid_valid_effects (l := l) ha hv
      simp [h, ha]
  · simp [addIfValid_hash_mismatch ha, ha]

/-- `add_if_valid` writes the spend exactly when its source and parents check out, else answers. -/
theorem addIfValid_spec (env : NodeEnv) (sp : SignedSpend) (tx : DbcTransaction) :
    (NodeEffect.storageWrite (.dbc sp tx) ∈ ((addIfValid env sp tx).run []).1 ↔
      env.txHash tx = sp.srcTxHash ∧ ∃ ps, List.Forall₂ (ParentOf env sp) tx.inputs ps ∧
        env.txVerify tx ((BTreeSet.ofList ps).map (·.blindedAmount)) = true) ∧
    (env.txHash tx ≠ sp.srcTxHash →
      ((addIfValid env sp tx).run []).1 = [.sendResponse (.cmd (.spend (.error
        (.signedSrcTxHashDoesNotMatchProvidedSrcTxHash sp.srcTxHash (env.txHash tx)))))]) ∧
    (∀ pre i rest ps, env.txHash tx = sp.srcTxHash → tx.inputs = pre ++ i :: rest →
      List.Forall₂ (ParentOf env sp) pre ps →
      (∀ e, getSpend env.net (env.dbcAddress i) = .error (.protocol e) →
        ((addIfValid env sp tx).run []).1 = [.sendResponse (.cmd (.spend (.error e)))]) ∧
      (∀ p, getSpend env.net (env.dbcAddress i) = .ok p → p.dstTxHash ≠ sp.srcTxHash →
        ((addIfValid env sp tx).run []).1 = [.sendResponse (.cmd (.spend (.error
          (.spendSrcTxHashParentTxHashMismatch sp.srcTxHash p.dstTxHash))))])) ∧
    (∀ ps, env.txHash tx = sp.srcTxHash → List.Forall₂ (ParentOf env sp) tx.inputs ps →
      env.txVerify tx ((BTreeSet.ofList ps).map (·.blindedAmount)) = false →
      ((addIfValid env sp tx).run []).1 = [.sendResponse (.cmd (.spend (.error
        (.invalidSourceTxProvided sp.srcTxHash (env.txHash tx)))))]) := by
  refine ⟨?_, fun h => by simp [addIfValid_hash_mismatch h], ?_, ?_⟩
  · simp [addIfValid_writes_iff, validateSpendParents_eq_ok]
  · intro pre i rest ps ha hin hpre
    have hfetch := fetchParents_append (i :: rest) hpre []
    rw [← hin] at hfetch
    refine ⟨fun e hg => ?_, fun p hg hp => ?_⟩
    · rw [fetchParents_fetch_error hg] at hfetch
      simp [addIfValid_rejected ha (validateSpendParents_fetch_error hfetch)]
    · rw [fetchParents_mismatch hg hp] at hfetch
      simp [addIfValid_rejected ha (validateSpendParents_fetch_error hfetch)]
  · intro ps ha hps hv
    simp [addIfValid_rejected ha (validateSpendParents_invalid hps hv)]

/-! ### Answering every request -/

theorem addIfValid_responses :
    (responses ((addIfValid env sp tx).run []).1).length =
      if ((addIfValid env sp tx).run []).2.isOk then 1 else 0 := by
  by_cases ha : env.txHash tx = sp.srcTxHash
  · rcases hv : validateSpendParents env sp tx with e | _
    · by_cases hp : ∃ p, e = .protocol p
      · obtain ⟨p, rfl⟩ := hp
        simp [addIfValid_rejected ha hv, Except.isOk, Except.toBool]
      · simp only [not_exists] at hp
        simp [addIfValid_unreachable ha hv hp, Except.isOk, Except.toBool]
    · obtain ⟨rest, h, hr⟩ := addIfValid_valid_effects (l := []) ha hv
      rw [h, ← hr]
      simp [responses]
  · simp [addIfValid_hash_mismatch ha, Except.isOk, Except.toBool]

/-- `handle_request` never answers an event, and any other request once when it returns `Ok`. -/
theorem handleRequest_responses (req : Request) :
    (responses ((handleRequest env req).run []).1).length =
      match req with
      | .event _ => 0
      | _ => if ((handleRequest env req).run []).2.isOk then 1 else 0 := by
  rcases req with (_ | _ | ⟨sp, tx⟩) | q | ⟨a, b⟩
  · simp [handleRequest, sendResponse, emit, responses, Except.isOk, Except.toBool]
  · simp [handleRequest, sendResponse, emit, responses, Except.isOk, Except.toBool]
  · exact addIfValid_responses
  · simp [handleRequest, sendResponse, emit, Except.isOk, Except.toBool]
  · rcases h : env.tryAddDouble a b with e | _ <;> simp [handleRequest, emit, h, responses]

/-- A close group whose one peer times out, at a node where every other check passes. -/
def timedOutNode : NodeEnv where
  net :=
    { closeGroupSize := 1
      closeGroupSize_pos := Nat.one_pos
      nodeGetClosestPeers := fun _ => .ok [0]
      sendRequest := fun _ _ => .error {}
      completion := fun _ _ => 0 }
  storageWrite _ := .spend (.ok ())
  storageRead _ _ := .getDbcSpend (.error .unexpectedResponses)
  tryAddDouble _ _ := .ok ()
  doubleSpendAttempt a b := .ok (.doubleSpendAttempted a b)
  txHash _ := 0
  txVerify _ _ := true
  dbcAddress _ := ⟨⟨List.replicate 32 0, rfl⟩⟩

/-- A parent fetch that times out takes the branch marked unreachable, and nothing answers. -/
theorem handleRequest_timeout_unanswered :
    (handleRequest timedOutNode (.cmd (.dbc ⟨0, 0, 0, 0, 0⟩ ⟨[1], [2]⟩))).run [] =
      ([], .error (.responseTimeout {})) := by
  have hg : getSpend timedOutNode.net (timedOutNode.dbcAddress 1) = .error (.responseTimeout {}) := by
    simp [getSpend, sendToClosest, sendAndGetResponses, selectAll, timedOutNode, selectLoop, bind,
      Except.bind, pure, Except.pure, spendOfResponses, agreedSpend, Fanout.payloads, Fanout.payload,
      Fanout.errorOfResponses, Fanout.firstProtocolError, Fanout.firstSendError]
  have hv : validateSpendParents timedOutNode ⟨0, 0, 0, 0, 0⟩ ⟨[1], [2]⟩ =
      .error (.responseTimeout {}) :=
    validateSpendParents_fetch_error (fetchParents_fetch_error hg [])
  exact addIfValid_unreachable rfl hv (fun _ h => nomatch h)

/-! ### The spent id is never checked against the source transaction's outputs -/

/-- A node whose parent lookups return one spend of 5 into transaction 7, one amount per input. -/
def acceptingNode : NodeEnv where
  net := agreeingGroup ⟨1, 0, 7, 5, 0⟩
  storageWrite _ := .spend (.ok ())
  storageRead _ _ := .getDbcSpend (.error .unexpectedResponses)
  tryAddDouble _ _ := .ok ()
  doubleSpendAttempt a b := .ok (.doubleSpendAttempted a b)
  txHash _ := 7
  txVerify tx amounts := amounts.length == tx.inputs.length
  dbcAddress _ := ⟨⟨List.replicate 32 0, rfl⟩⟩

/-- Spend 3 cites the transaction that created id 2 only, and is written. -/
theorem addIfValid_writes_foreign_id :
    NodeEffect.storageWrite (.dbc ⟨3, 7, 9, 5, 0⟩ ⟨[1], [2]⟩) ∈
        ((addIfValid acceptingNode ⟨3, 7, 9, 5, 0⟩ ⟨[1], [2]⟩).run []).1 ∧
      (⟨3, 7, 9, 5, 0⟩ : SignedSpend).dbcId ∉ (⟨[1], [2]⟩ : DbcTransaction).outputs := by
  refine ⟨addIfValid_writes_iff.2 (.inr ⟨rfl, validateSpendParents_eq_ok.2 ⟨[⟨1, 0, 7, 5, 0⟩], ?_, ?_⟩⟩),
    by decide⟩
  · exact .cons ⟨getSpend_of_agreeingGroup _ _, rfl⟩ .nil
  · rfl

end SafeNetwork.Node
