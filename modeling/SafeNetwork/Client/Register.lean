import SafeNetwork.Client.Publish
import SafeNetwork.Registers.Register
import SafeNetwork.Std.BTreeSet
import SafeNetwork.Std.Proc

/-! `ClientRegister`: a local replica and the queue of ops the network has not acknowledged. -/
namespace SafeNetwork

namespace SnClient

open Proc

/-- The client's signing key, and the answers, which may be anything, to its `n`-th request. -/
structure Client where
  signerPk : PublicKey
  network : Nat → Request → ClientResponses

/-- The replica operations the handle calls; `sn_registers::Register` is not in the source. -/
structure RegisterApi where
  read : Register → List (EntryHash × Entry)
  checkUserRights : Register → Action → User → Except RegisterError Unit
  /-- `Register::write`: the new entry's hash and op, and the replica with the entry added. -/
  write : Register → Entry → List EntryHash →
    Except RegisterError (EntryHash × RegisterOp × Register)
  merge : Register → Register → Register

/-- What a run of the handle shows. -/
inductive ClientEvent
  | wrote (op : RegisterOp)
  | published (cmd : RegisterCmd) (result : Except ClientError Unit)
deriving DecidableEq

/-- `ClientRegister`, `ops` front first; `sent` counts requests and `log` records the run, unread. -/
structure ClientRegister where
  register : Register
  ops : List RegisterCmd
  sent : Nat
  log : List ClientEvent

abbrev ClientM := Proc ClientRegister ClientError

variable (api : RegisterApi) (client : Client)

/-- `ClientRegister::new`: a register owned by the client's key that anyone may write. -/
def create (name : XorName) (tag : UInt64) : ClientRegister :=
  ⟨Register.new (.key client.signerPk) name tag [(.anyone, ⟨true⟩)], [], 0, []⟩

def retrieve (name : XorName) (tag : UInt64) : Except ClientError ClientRegister := do
  let register ← getRegister (client.network 0) name tag
  pure ⟨register, [], 1, []⟩

/-- One `self.client.send_to_closest(request)`, its answers reduced by `f`. -/
def viaNetwork {α : Type} (f : (Request → ClientResponses) → Except ClientError α) :
    ClientM (Except ClientError α) := do
  let self ← get
  modify fun self => { self with sent := self.sent + 1 }
  pure (f (client.network self.sent))

/-- A call of `publish_register_create` or `publish_register_edit`, its outcome logged. -/
def publish (publisher : (Request → ClientResponses) → RegisterCmd → Except ClientError Unit)
    (cmd : RegisterCmd) : ClientM (Except ClientError Unit) := do
  let result ← viaNetwork client (publisher · cmd)
  modify fun self => { self with log := self.log ++ [.published cmd result] }
  pure result

def writeAtop (entry : Entry) (children : List EntryHash) : ClientM Unit := do
  let self ← get
  let publicKey := client.signerPk
  ofExcept ((api.checkUserRights self.register .write (.key publicKey)).mapError .register)
  let (_hash, op, register) ← ofExcept ((api.write self.register entry children).mapError .register)
  modify fun self =>
    { self with register := register, ops := .edit op :: self.ops, log := self.log ++ [.wrote op] }

def write (entry : Entry) : ClientM Unit := do
  let children := api.read (← get).register
  if children.length > 1 then throw (.contentBranchDetected children)
  else writeAtop api client entry (BTreeSet.ofList (children.map Prod.fst))

def writeMergingBranches (entry : Entry) : ClientM Unit := do
  let children := BTreeSet.ofList ((api.read (← get).register).map Prod.fst)
  writeAtop api client entry children

/-- The `match cmd` in `push`'s loop: the publisher for the command's kind. -/
def publisherOf : RegisterCmd → (Request → ClientResponses) → RegisterCmd → Except ClientError Unit
  | .create .. => publishRegisterCreate
  | .edit _ => publishRegisterEdit

/-- `while let Some(cmd) = self.ops.pop_back()`, for at most `fuel` rounds. -/
def pushLoop : Nat → ClientM Unit
  | 0 => pure ()
  | fuel + 1 => do
    match (← get).ops.getLast? with
    | none => pure ()
    | some cmd => do
      modify fun self => { self with ops := self.ops.dropLast }
      match ← publish client (publisherOf cmd) cmd with
      | .error err => do
        -- "We keep the cmd for next sync to retry"
        modify fun self => { self with ops := self.ops ++ [cmd] }
        throw err
      | .ok () => pushLoop fuel

/-- `push`: the loop runs at most `ops_len` rounds, since each one pops an op. -/
def push : ClientM Unit := do
  let opsLen := (← get).ops.length
  if opsLen > 0 then pushLoop client opsLen else pure ()

def sync : ClientM Unit := do
  let self ← get
  let remote ← viaNetwork client (getRegister · self.register.name self.register.tag)
  let remoteReplica ← match remote with
    | .ok r => pure r
    | .error _ => do
      let cmd := RegisterCmd.create self.register.owner self.register.permissions
        self.register.name self.register.tag
      ofExcept (← publish client publishRegisterCreate cmd)
      pure (← get).register
  modify fun self => { self with register := api.merge self.register remoteReplica }
  push client

def writeOnline (entry : Entry) : ClientM Unit := do
  write api client entry
  push client

def writeMergingBranchesOnline (entry : Entry) : ClientM Unit := do
  writeMergingBranches api client entry
  push client

def writeAtopOnline (entry : Entry) (children : List EntryHash) : ClientM Unit := do
  writeAtop api client entry children
  push client

/-- The calls a user of the handle can make. -/
inductive Call
  | write (entry : Entry)
  | writeMergingBranches (entry : Entry)
  | writeAtop (entry : Entry) (children : List EntryHash)
  | push
  | sync
  | writeOnline (entry : Entry)
  | writeMergingBranchesOnline (entry : Entry)
  | writeAtopOnline (entry : Entry) (children : List EntryHash)

def Call.exec : Call → ClientM Unit
  | .write entry => SnClient.write api client entry
  | .writeMergingBranches entry => SnClient.writeMergingBranches api client entry
  | .writeAtop entry children => SnClient.writeAtop api client entry children
  | .push => SnClient.push client
  | .sync => SnClient.sync api client
  | .writeOnline entry => SnClient.writeOnline api client entry
  | .writeMergingBranchesOnline entry => SnClient.writeMergingBranchesOnline api client entry
  | .writeAtopOnline entry children => SnClient.writeAtopOnline api client entry children

/-- The handles a run reaches: a `create` or `retrieve`, then any calls, each of which may fail. -/
inductive Reachable : ClientRegister → Prop
  | create (name : XorName) (tag : UInt64) : Reachable (create client name tag)
  | retrieve (name : XorName) (tag : UInt64) (s : ClientRegister) :
      retrieve client name tag = .ok s → Reachable s
  | call (c : Call) {s : ClientRegister} : Reachable s → Reachable ((c.exec api client).run s).1

def ClientEvent.wroteOp : ClientEvent → Option RegisterOp
  | .wrote op => some op
  | _ => none

/-- An edit the network acknowledged. -/
def ClientEvent.acceptedEdit : ClientEvent → Option RegisterOp
  | .published (.edit op) (.ok ()) => some op
  | _ => none

/-- The acknowledged edits, then the queue back to front, are the written ops in order. -/
def Lossless (self : ClientRegister) : Prop :=
  (self.log.filterMap ClientEvent.acceptedEdit).map .edit ++ self.ops.reverse =
    (self.log.filterMap ClientEvent.wroteOp).map .edit

/-- What a local write can do: fail and change nothing, or queue one new op at the front. -/
def LocalWrite (m : ClientM Unit) : Prop :=
  ∀ s, (∃ e, m.run s = (s, .error e)) ∨
    ∃ op register, m.run s =
      ({ s with register, ops := .edit op :: s.ops, log := s.log ++ [.wrote op] }, .ok ())

variable {api client}

theorem writeAtop_localWrite (entry : Entry) (children : List EntryHash) :
    LocalWrite (writeAtop api client entry children) := by
  intro s
  rcases hc : api.checkUserRights s.register .write (.key client.signerPk) with e | _
  · exact .inl ⟨.register e, by simp [writeAtop, hc, Except.mapError]⟩
  rcases hw : api.write s.register entry children with e | ⟨_, op, register⟩
  · exact .inl ⟨.register e, by simp [writeAtop, hc, hw, Except.mapError]⟩
  · exact .inr ⟨op, register, by simp [writeAtop, hc, hw, Except.mapError]⟩

theorem write_localWrite (entry : Entry) : LocalWrite (write api client entry) := by
  intro s
  by_cases h : (api.read s.register).length > 1
  · exact .inl ⟨.contentBranchDetected (api.read s.register), by simp [write, h]⟩
  · simpa [write, h] using writeAtop_localWrite entry _ s

theorem writeMergingBranches_localWrite (entry : Entry) :
    LocalWrite (writeMergingBranches api client entry) := by
  intro s
  simpa [writeMergingBranches] using writeAtop_localWrite entry _ s

theorem LocalWrite.unchanged {m : ClientM Unit} (hm : LocalWrite m) {s : ClientRegister}
    {e : ClientError} (h : (m.run s).2 = .error e) : (m.run s).1 = s := by
  rcases hm s with ⟨_, hr⟩ | ⟨_, _, hr⟩ <;> simp_all

theorem LocalWrite.lossless {m : ClientM Unit} (hm : LocalWrite m) : Preserves Lossless m := by
  intro s hs
  rcases hm s with ⟨_, hr⟩ | ⟨op, _, hr⟩
  · simpa [hr] using hs
  · simp only [hr, Lossless, List.reverse_cons, List.filterMap_append, List.map_append]
    rw [← hs]
    simp [ClientEvent.acceptedEdit, ClientEvent.wroteOp]

theorem edit_of_lossless {s : ClientRegister} (h : Lossless s) {cmd : RegisterCmd}
    (hc : cmd ∈ s.ops) : ∃ op, cmd = .edit op := by
  have : cmd ∈ (s.log.filterMap ClientEvent.wroteOp).map RegisterCmd.edit := by
    rw [← h]; simp [hc]
  obtain ⟨op, -, rfl⟩ := List.mem_map.1 this
  exact ⟨op, rfl⟩

@[simp] theorem publish_run (publisher) (cmd : RegisterCmd) (s : ClientRegister) :
    (publish client publisher cmd).run s =
      let result := publisher (client.network s.sent) cmd
      ({ s with sent := s.sent + 1, log := s.log ++ [.published cmd result] }, .ok result) :=
  rfl

/-- A property `push` keeps once one round keeps it, the popped op refused or acknowledged. -/
theorem pushLoop_preserves {P : ClientRegister → Prop}
    (hfail : ∀ register rest cmd sent log e, P ⟨register, rest ++ [cmd], sent, log⟩ →
      P ⟨register, rest ++ [cmd], sent + 1, log ++ [.published cmd (.error e)]⟩)
    (hok : ∀ register rest cmd sent log, P ⟨register, rest ++ [cmd], sent, log⟩ →
      P ⟨register, rest, sent + 1, log ++ [.published cmd (.ok ())]⟩) :
    ∀ fuel, Preserves P (pushLoop client fuel)
  | 0 => preserves_pure ()
  | fuel + 1 => by
    rintro ⟨register, ops, sent, log⟩ hs
    rcases List.eq_nil_or_concat' ops with rfl | ⟨rest, cmd, rfl⟩
    · exact hs
    rcases hp : publisherOf cmd (client.network sent) cmd with e | _
    · simpa [pushLoop, hp] using hfail register rest cmd sent log e hs
    · simp only [pushLoop, hp, run_bind, run_get, run_modify, publish_run, List.getLast?_concat,
        List.dropLast_concat]
      exact pushLoop_preserves hfail hok fuel _ (hok register rest cmd sent log hs)

theorem push_preserves {P : ClientRegister → Prop}
    (hfail : ∀ register rest cmd sent log e, P ⟨register, rest ++ [cmd], sent, log⟩ →
      P ⟨register, rest ++ [cmd], sent + 1, log ++ [.published cmd (.error e)]⟩)
    (hok : ∀ register rest cmd sent log, P ⟨register, rest ++ [cmd], sent, log⟩ →
      P ⟨register, rest, sent + 1, log ++ [.published cmd (.ok ())]⟩) :
    Preserves P (push client) := by
  intro s hs
  by_cases h : s.ops.length > 0
  · simpa [push, h] using pushLoop_preserves hfail hok _ s hs
  · simpa [push, h] using hs

/-- `push` publishes the op at the back, which is an edit: acknowledged, it leaves the queue. -/
theorem push_lossless : Preserves Lossless (push client) := by
  refine push_preserves (fun _ rest cmd _ _ _ hs => ?_) (fun _ rest cmd _ _ hs => ?_) <;>
    obtain ⟨op, rfl⟩ := edit_of_lossless hs (List.mem_append_right rest (List.mem_singleton_self cmd)) <;>
    simpa [Lossless, ClientEvent.acceptedEdit, ClientEvent.wroteOp] using hs

theorem pushLoop_drains : ∀ fuel (s : ClientRegister), s.ops.length ≤ fuel →
    ((pushLoop client fuel).run s).2 = .ok () → ((pushLoop client fuel).run s).1.ops = []
  | 0, s, hlen, _ => List.eq_nil_of_length_eq_zero (Nat.le_zero.1 hlen)
  | fuel + 1, ⟨register, ops, sent, log⟩, hlen, hok => by
    rcases List.eq_nil_or_concat' ops with rfl | ⟨rest, cmd, rfl⟩
    · rfl
    rcases hp : publisherOf cmd (client.network sent) cmd with e | _
    · simp [pushLoop, hp] at hok
    · simp only [pushLoop, hp, run_bind, run_get, run_modify, publish_run, List.getLast?_concat,
        List.dropLast_concat] at hok ⊢
      exact pushLoop_drains fuel _ (by simp at hlen ⊢; omega) hok

theorem push_drains (s : ClientRegister) (h : ((push client).run s).2 = .ok ()) :
    ((push client).run s).1.ops = [] := by
  by_cases hlen : s.ops.length > 0
  · simp only [push, hlen, run_bind, run_get, ↓reduceIte] at h ⊢
    exact pushLoop_drains _ s le_rfl h
  · simpa [push, hlen] using List.eq_nil_of_length_eq_zero (Nat.eq_zero_of_not_pos hlen)

/-- `push` only publishes: the replica is left as it was. -/
@[simp] theorem push_register (s : ClientRegister) :
    ((push client).run s).1.register = s.register :=
  push_preserves (P := fun s' => s'.register = s.register) (fun _ _ _ _ _ _ h => h)
    (fun _ _ _ _ _ h => h) s rfl

/-- A property `sync` keeps once a request, a published `Create`, a merge and `push` keep it. -/
theorem sync_preserves {P : ClientRegister → Prop} (hsent : ∀ s, P s → P { s with sent := s.sent + 1 })
    (hcreate : ∀ s owner permissions name tag result, P s → P { s with
      sent := s.sent + 1, log := s.log ++ [.published (.create owner permissions name tag) result] })
    (hmerge : ∀ s remote, P s → P { s with register := api.merge s.register remote })
    (hpush : Preserves P (push client)) : Preserves P (sync api client) := by
  have hmerge' : ∀ remote, Preserves P (modify fun self : ClientRegister =>
      { self with register := api.merge self.register remote } : ClientM Unit) := fun remote s h => hmerge s remote h
  refine preserves_get.bind fun self => Preserves.bind hsent fun remote => ?_
  dsimp only
  split
  · exact (preserves_pure _).bind fun r => (hmerge' r).bind fun _ => hpush
  · exact Preserves.bind (fun s => hcreate s _ _ _ _ _) fun r => (preserves_ofExcept r).bind fun _ =>
      preserves_get.bind fun _ => (preserves_pure _).bind fun r => (hmerge' r).bind fun _ => hpush

theorem sync_lossless : Preserves Lossless (sync api client) :=
  sync_preserves (fun _ h => h)
    (fun _ _ _ _ _ _ h => by simpa [Lossless, ClientEvent.acceptedEdit, ClientEvent.wroteOp] using h)
    (fun _ _ h => h) push_lossless

theorem exec_lossless (c : Call) : Preserves Lossless (c.exec api client) := by
  cases c with
  | write entry => exact (write_localWrite entry).lossless
  | writeMergingBranches entry => exact (writeMergingBranches_localWrite entry).lossless
  | writeAtop entry children => exact (writeAtop_localWrite entry children).lossless
  | push => exact push_lossless
  | sync => exact sync_lossless
  | writeOnline entry => exact (write_localWrite entry).lossless.bind fun _ => push_lossless
  | writeMergingBranchesOnline entry =>
    exact (writeMergingBranches_localWrite entry).lossless.bind fun _ => push_lossless
  | writeAtopOnline entry children =>
    exact (writeAtop_localWrite entry children).lossless.bind fun _ => push_lossless

/-- A retrieved handle starts with nothing queued and nothing logged. -/
theorem retrieve_ok {name : XorName} {tag : UInt64} {s : ClientRegister}
    (h : retrieve client name tag = .ok s) : s.ops = [] ∧ s.log = [] := by
  simp only [retrieve, bind, Except.bind, pure, Except.pure] at h
  split at h
  · cases h
  · cases h
    exact ⟨rfl, rfl⟩

theorem lossless_reachable {s : ClientRegister} (h : Reachable api client s) : Lossless s := by
  induction h with
  | create => rfl
  | retrieve name tag s hs =>
    obtain ⟨hops, hlog⟩ := retrieve_ok hs
    simp [Lossless, hops, hlog]
  | call c _ ih => exact exec_lossless c _ ih

/-- Over every run, nothing queued is lost or reordered, a failed write changes nothing, and `push` drains. -/
theorem queue_lossless (api : RegisterApi) (client : Client) :
    (∀ s, Reachable api client s → Lossless s) ∧
    (∀ s entry e, ((write api client entry).run s).2 = .error e →
      ((write api client entry).run s).1 = s) ∧
    (∀ s entry e, ((writeMergingBranches api client entry).run s).2 = .error e →
      ((writeMergingBranches api client entry).run s).1 = s) ∧
    (∀ s entry children e, ((writeAtop api client entry children).run s).2 = .error e →
      ((writeAtop api client entry children).run s).1 = s) ∧
    (∀ s, ((push client).run s).2 = .ok () → ((push client).run s).1.ops = []) :=
  ⟨fun _ => lossless_reachable,
    fun _ entry _ => (write_localWrite entry).unchanged,
    fun _ entry _ => (writeMergingBranches_localWrite entry).unchanged,
    fun _ entry children _ => (writeAtop_localWrite entry children).unchanged,
    push_drains⟩

/-! ### The written ops are those `api.write` returned -/

variable (api client)

/-- The op `api.write` hands `write_atop` from `s`, when the rights check and the write succeed. -/
def atopOp (s : ClientRegister) (entry : Entry) (children : List EntryHash) : Option RegisterOp :=
  match api.checkUserRights s.register .write (.key client.signerPk),
    api.write s.register entry children with
  | .ok (), .ok (_, op, _) => some op
  | _, _ => none

/-- The op a call's local write gets from `api.write` in `s`, if it writes and the write succeeds. -/
def Call.produced : Call → ClientRegister → Option RegisterOp
  | .write entry, s | .writeOnline entry, s =>
    if (api.read s.register).length > 1 then none
    else atopOp api client s entry (BTreeSet.ofList ((api.read s.register).map Prod.fst))
  | .writeMergingBranches entry, s | .writeMergingBranchesOnline entry, s =>
    atopOp api client s entry (BTreeSet.ofList ((api.read s.register).map Prod.fst))
  | .writeAtop entry children, s | .writeAtopOnline entry children, s =>
    atopOp api client s entry children
  | .push, _ | .sync, _ => none

/-- The handle after the calls `cs` from `s`, each made whatever the one before returned. -/
def runCalls (s : ClientRegister) : List Call → ClientRegister
  | [] => s
  | c :: cs => runCalls ((c.exec api client).run s).1 cs

/-- The ops `api.write` returned to the local writes of the calls `cs` from `s`, in order. -/
def producedAlong (s : ClientRegister) : List Call → List RegisterOp
  | [] => []
  | c :: cs => (c.produced api client s).toList ++ producedAlong ((c.exec api client).run s).1 cs

variable {api client}

theorem writeAtop_wroteOps (entry : Entry) (children : List EntryHash) (s : ClientRegister) :
    ((writeAtop api client entry children).run s).1.log.filterMap ClientEvent.wroteOp =
      s.log.filterMap ClientEvent.wroteOp ++ (atopOp api client s entry children).toList := by
  rcases hc : api.checkUserRights s.register .write (.key client.signerPk) with e | _
  · simp [writeAtop, atopOp, hc, Except.mapError]
  rcases hw : api.write s.register entry children with e | ⟨_, op, register⟩ <;>
    simp [writeAtop, atopOp, hc, hw, Except.mapError, ClientEvent.wroteOp]

theorem write_wroteOps (entry : Entry) (s : ClientRegister) :
    ((write api client entry).run s).1.log.filterMap ClientEvent.wroteOp =
      s.log.filterMap ClientEvent.wroteOp ++ ((Call.write entry).produced api client s).toList := by
  by_cases h : (api.read s.register).length > 1
  · simp [write, h, Call.produced]
  · simp [write, h, Call.produced, writeAtop_wroteOps]

theorem push_wroteOps (s : ClientRegister) :
    ((push client).run s).1.log.filterMap ClientEvent.wroteOp = s.log.filterMap ClientEvent.wroteOp :=
  push_preserves (P := fun s' => s'.log.filterMap ClientEvent.wroteOp = _)
    (fun _ _ _ _ _ _ h => by simpa [ClientEvent.wroteOp] using h)
    (fun _ _ _ _ _ h => by simpa [ClientEvent.wroteOp] using h) s rfl

/-- After a local write, the `push` of an `_online` call adds no written op. -/
theorem andPush_wroteOps (m : ClientM Unit) (s : ClientRegister) :
    ((do m; push client).run s).1.log.filterMap ClientEvent.wroteOp =
      (m.run s).1.log.filterMap ClientEvent.wroteOp := by
  simp only [run_bind]
  split <;> rename_i heq <;> simp [heq, push_wroteOps]

/-- Each call logs as written exactly the op `api.write` returned to its local write. -/
theorem exec_wroteOps (c : Call) (s : ClientRegister) :
    ((c.exec api client).run s).1.log.filterMap ClientEvent.wroteOp =
      s.log.filterMap ClientEvent.wroteOp ++ (c.produced api client s).toList := by
  cases c with
  | write entry => exact write_wroteOps entry s
  | writeMergingBranches entry => simp [Call.exec, writeMergingBranches, Call.produced, writeAtop_wroteOps]
  | writeAtop entry children => exact writeAtop_wroteOps entry children s
  | push => simp [Call.exec, Call.produced, push_wroteOps]
  | sync =>
    simpa [Call.produced] using sync_preserves (P := fun s' => s'.log.filterMap ClientEvent.wroteOp = _)
      (fun _ h => h) (fun _ _ _ _ _ _ h => by simpa [ClientEvent.wroteOp] using h) (fun _ _ h => h)
      (fun s' h => (push_wroteOps s').trans h) s rfl
  | writeOnline entry => exact (andPush_wroteOps _ s).trans (write_wroteOps entry s)
  | writeMergingBranchesOnline entry =>
    exact (andPush_wroteOps _ s).trans (by simp [writeMergingBranches, Call.produced, writeAtop_wroteOps])
  | writeAtopOnline entry children =>
    exact (andPush_wroteOps _ s).trans (writeAtop_wroteOps entry children s)

theorem runCalls_wroteOps : ∀ (s : ClientRegister) (cs : List Call),
    (runCalls api client s cs).log.filterMap ClientEvent.wroteOp =
      s.log.filterMap ClientEvent.wroteOp ++ producedAlong api client s cs
  | _, [] => by simp [runCalls, producedAlong]
  | s, c :: cs => by
    rw [runCalls, producedAlong, runCalls_wroteOps, exec_wroteOps, List.append_assoc]

theorem runCalls_lossless : ∀ {s : ClientRegister} (cs : List Call), Lossless s →
    Lossless (runCalls api client s cs)
  | _, [], h => h
  | s, c :: cs, h => runCalls_lossless cs (exec_lossless c s h)

/-- Over any calls, acknowledged edits then the queue are the ops `api.write` returned, in order. -/
theorem queue_matches_api_writes (api : RegisterApi) (client : Client) :
    (∀ name tag (cs : List Call),
      ((runCalls api client (create client name tag) cs).log.filterMap
          ClientEvent.acceptedEdit).map .edit ++ (runCalls api client (create client name tag) cs).ops.reverse =
        (producedAlong api client (create client name tag) cs).map .edit) ∧
    ∀ name tag s (cs : List Call), retrieve client name tag = .ok s →
      ((runCalls api client s cs).log.filterMap ClientEvent.acceptedEdit).map .edit ++
          (runCalls api client s cs).ops.reverse =
        (producedAlong api client s cs).map .edit := by
  have hfresh : ∀ s (cs : List Call), s.ops = [] → s.log = [] →
      ((runCalls api client s cs).log.filterMap ClientEvent.acceptedEdit).map .edit ++
          (runCalls api client s cs).ops.reverse = (producedAlong api client s cs).map .edit := by
    intro s cs hops hlog
    rw [runCalls_lossless cs (by simp [Lossless, hops, hlog]), runCalls_wroteOps, hlog]
    rfl
  exact ⟨fun _ _ cs => hfresh _ cs rfl rfl,
    fun _ _ s cs hs => hfresh s cs (retrieve_ok hs).1 (retrieve_ok hs).2⟩

end SnClient

end SafeNetwork
