import SafeNetwork.Protocol.Messages
import Mathlib.Data.List.Perm.Basic

/-! `send_and_get_responses`: the `select_all` loop over per-peer futures, in every completion order. -/
namespace SafeNetwork.Node

/-- What `timeout(Duration::from_secs(10), send_request(req, peer))` resolves to. -/
abbrev PeerOutcome := Except Elapsed (Except NetworkError Response)

/-- The entry a resolved future leaves in the response vector. -/
def PeerOutcome.toResult : PeerOutcome → Except Error Response
  | .ok res => res.mapError .network
  | .error e => .error (.responseTimeout e)

/-- The `while !list_of_futures.is_empty()` loop from iteration `k`, with its completion order. -/
def selectLoop (getAll : Bool) (completion : Nat → Nat) (k : Nat) (futures : List PeerOutcome)
    (responses : List (Except Error Response)) : List (Except Error Response) × List PeerOutcome :=
  match futures with
  | [] => (responses, [])
  | f :: fs =>
    let i := completion k % (fs.length + 1)
    let out := (f :: fs).get ⟨i, Nat.mod_lt _ (Nat.succ_pos _)⟩
    let remaining := (f :: fs).eraseIdx i
    match out with
    | .ok res =>
      let res := res.mapError Error.network
      if !getAll && res.isOk then ([res], [out])
      else
        let r := selectLoop getAll completion (k + 1) remaining (responses ++ [res])
        (r.1, out :: r.2)
    | .error timeoutErr =>
      let r := selectLoop getAll completion (k + 1) remaining
        (responses ++ [.error (.responseTimeout timeoutErr)])
      (r.1, out :: r.2)
termination_by futures.length
decreasing_by
  all_goals simp_wf; simp [List.length_eraseIdx, Nat.mod_lt _ (Nat.succ_pos fs.length)]

/-- The overlay as the node sees it: lookups, each peer's outcome, and the order futures complete. -/
structure Network where
  /-- `CLOSE_GROUP_SIZE`, defined outside the source; a close group has members. -/
  closeGroupSize : Nat
  closeGroupSize_pos : 0 < closeGroupSize
  nodeGetClosestPeers : Request → Except Error (List PeerId)
  sendRequest : Request → PeerId → PeerOutcome
  completion : Request → Nat → Nat

/-- The loop from its start over the futures of one request. -/
def selectAll (getAll : Bool) (completion : Nat → Nat) (futures : List PeerOutcome) :
    List (Except Error Response) :=
  (selectLoop getAll completion 0 futures []).1

/-- `send_and_get_responses`: the loop over one future per peer. -/
def sendAndGetResponses (net : Network) (peers : List PeerId) (req : Request) (getAll : Bool) :
    List (Except Error Response) :=
  selectAll getAll (net.completion req) (peers.map (net.sendRequest req))

def sendToClosest (net : Network) (req : Request) :
    Except Error (List (Except Error Response)) := do
  let closestPeers ← net.nodeGetClosestPeers req
  pure (sendAndGetResponses net closestPeers req true)

/-! ### Every future resolves exactly once -/

@[simp] theorem PeerOutcome.toResult_ok (res : Except NetworkError Response) :
    PeerOutcome.toResult (.ok res) = res.mapError .network := rfl

@[simp] theorem PeerOutcome.toResult_error (e : Elapsed) :
    PeerOutcome.toResult (.error e) = .error (.responseTimeout e) := rfl

theorem perm_get_cons_eraseIdx {α : Type} :
    ∀ (l : List α) (i : Nat) (h : i < l.length), l.Perm (l.get ⟨i, h⟩ :: l.eraseIdx i)
  | _ :: _, 0, _ => .refl _
  | a :: l, i + 1, h =>
    ((perm_get_cons_eraseIdx l i (by simpa using h)).cons a).trans (.swap _ _ _)

variable {c : Nat → Nat} {k : Nat} {fs : List PeerOutcome} {rs : List (Except Error Response)}

theorem perm_resolved {f : PeerOutcome} {fs rest : List PeerOutcome} {i : Nat} {o : PeerOutcome}
    (h : (f :: fs).get ⟨i % (fs.length + 1), Nat.mod_lt _ (Nat.succ_pos _)⟩ = o)
    (hr : rest.Perm ((f :: fs).eraseIdx (i % (fs.length + 1)))) : (o :: rest).Perm (f :: fs) := by
  have hp := perm_get_cons_eraseIdx (f :: fs) (i % (fs.length + 1)) (Nat.mod_lt i (Nat.succ_pos _))
  rw [h] at hp
  exact (hr.cons o).trans hp.symm

/-- With `get_all_responses`, each iteration appends the entry of the future it resolved. -/
theorem selectLoop_true :
    (selectLoop true c k fs rs).1 = rs ++ (selectLoop true c k fs rs).2.map PeerOutcome.toResult ∧
      (selectLoop true c k fs rs).2.Perm fs := by
  induction k, fs, rs using selectLoop.induct true c with
  | case1 => simp [selectLoop]
  | case2 k rs f fs i out res hout res' hret => simp at hret
  | case3 k rs f fs i out rem res hout res' _ ih =>
    simp only [out, i] at hout
    rw [selectLoop]
    simp only [hout, Bool.not_true, Bool.false_and, Bool.false_eq_true, ↓reduceIte, List.map_cons]
    exact ⟨by rw [ih.1]; simp [res', PeerOutcome.toResult], perm_resolved hout ih.2⟩
  | case4 k rs f fs i out rem e hout ih =>
    simp only [out, i] at hout
    rw [selectLoop]
    simp only [hout, List.map_cons]
    exact ⟨by rw [ih.1]; simp [PeerOutcome.toResult], perm_resolved hout ih.2⟩

/-- Without it, the loop resolves the futures in the same order and stops at the first success. -/
theorem selectLoop_false :
    (selectLoop false c k fs rs).1 =
      match (selectLoop true c k fs rs).2.find? (fun o => o.toResult.isOk) with
      | some o => [o.toResult]
      | none => rs ++ (selectLoop true c k fs rs).2.map PeerOutcome.toResult := by
  induction k, fs, rs using selectLoop.induct false c with
  | case1 => simp [selectLoop]
  | case2 k rs f fs i out res hout res' hret =>
    simp only [out, i] at hout
    have hok : (res.mapError Error.network).isOk = true := by simpa using hret
    rw [selectLoop, selectLoop]
    simp only [hout]
    simp [hok]
  | case3 k rs f fs i out rem res hout res' hret ih =>
    simp only [out, i] at hout
    simp only [rem, res', i] at ih
    have hok : (res.mapError Error.network).isOk = false := by simpa using hret
    rw [selectLoop, selectLoop]
    simp only [hout, hok, Bool.not_false, Bool.true_and, Bool.not_true, Bool.false_and,
      Bool.false_eq_true, ↓reduceIte, List.find?_cons, PeerOutcome.toResult_ok, ih, List.map_cons]
    split <;> rename_i h <;> simp [h]
  | case4 k rs f fs i out rem e hout ih =>
    simp only [out, i] at hout
    simp only [rem, i] at ih
    rw [selectLoop, selectLoop]
    simp only [hout, List.find?_cons, PeerOutcome.toResult_error, Except.isOk, Except.toBool, ih,
      List.map_cons]
    split <;> rename_i h <;> simp [h]

/-- The outputs of the futures, in the order they resolve, one per iteration of the loop. -/
def completionOrder (completion : Nat → Nat) (futures : List PeerOutcome) : List PeerOutcome :=
  (selectLoop true completion 0 futures []).2

/-- Over any futures and completion order, each future gives one entry, or the first success. -/
theorem sendAndGetResponses_exactly_once (completion : Nat → Nat) (futures : List PeerOutcome) :
    (completionOrder completion futures).length = futures.length ∧
      (completionOrder completion futures).Perm futures ∧
      selectAll true completion futures =
        (completionOrder completion futures).map PeerOutcome.toResult ∧
      (selectAll true completion futures).Perm (futures.map PeerOutcome.toResult) ∧
      selectAll false completion futures =
        match (completionOrder completion futures).find? (fun o => o.toResult.isOk) with
        | some r => [r.toResult]
        | none => (completionOrder completion futures).map PeerOutcome.toResult := by
  obtain ⟨hv, hp⟩ := @selectLoop_true completion 0 futures []
  have hv : selectAll true completion futures =
      (completionOrder completion futures).map PeerOutcome.toResult := by
    simpa using hv
  refine ⟨hp.length_eq, hp, hv, ?_, ?_⟩
  · rw [hv]
    exact hp.map PeerOutcome.toResult
  · simpa using @selectLoop_false completion 0 futures []

end SafeNetwork.Node
