import SafeNetwork.Client.Register
import Mathlib.Logic.Equiv.List

/-! `ClientRegister` over the register of the spec: a write atop the whole frontier collapses it. -/
namespace SafeNetwork

namespace SnClient

open Proc

variable (nodeHash : MerkleDagEntry → EntryHash)

/-- The handle's replica operations, those of the register of the spec. -/
def dagApi : RegisterApi :=
  ⟨Register.read, Register.checkUserRights,
    fun r entry children => .ok (r.write nodeHash entry children), Register.merge⟩

/-- One edit queued, naming the whole frontier as parents, and its entry alone on the new frontier. -/
def WritesAtopFrontier (m : ClientM Unit) (s : ClientRegister) (entry : Entry) : Prop :=
  ∃ op register, m.run s =
      ({ s with register, ops := .edit op :: s.ops, log := s.log ++ [.wrote op] }, .ok ()) ∧
    (∀ c, c ∈ op.crdtOp.children ↔ c ∈ (Register.read s.register).map Prod.fst) ∧
    Register.read register = [(nodeHash op.crdtOp, entry)]

variable {nodeHash} {client : Client}

/-- Only what a handle does from `s` matters. -/
theorem WritesAtopFrontier.of_run_eq {m m' : ClientM Unit} {s : ClientRegister} {entry : Entry}
    (h : WritesAtopFrontier nodeHash m s entry) (hrun : m'.run s = m.run s) :
    WritesAtopFrontier nodeHash m' s entry := by
  rwa [WritesAtopFrontier, hrun]

theorem writeAtop_frontier {s : ClientRegister} {entry : Entry}
    (hcol : Register.NoCollision nodeHash s.register ⟨Register.frontierHashes s.register, entry⟩)
    (ht : Register.TopoSorted nodeHash s.register.dag)
    (hrights : Register.checkUserRights s.register .write (.key client.signerPk) = .ok ()) :
    WritesAtopFrontier nodeHash
      (writeAtop (dagApi nodeHash) client entry (Register.frontierHashes s.register)) s entry :=
  ⟨(s.register.write nodeHash entry (Register.frontierHashes s.register)).2.1, _,
    by simp [writeAtop, dagApi, hrights, Except.mapError], fun _ => BTreeSet.mem_ofList,
    Register.read_write_frontier hcol ht⟩

/-- On every reachable replica, both writes collapse the frontier, `write` only with one branch. -/
theorem write_collapses_frontier {s : ClientRegister} (hr : Register.Reachable nodeHash s.register)
    (entry : Entry)
    (hcol : Register.NoCollision nodeHash s.register ⟨Register.frontierHashes s.register, entry⟩)
    (hrights : Register.checkUserRights s.register .write (.key client.signerPk) = .ok ()) :
    WritesAtopFrontier nodeHash (writeMergingBranches (dagApi nodeHash) client entry) s entry ∧
      ((Register.read s.register).length ≤ 1 →
        WritesAtopFrontier nodeHash (write (dagApi nodeHash) client entry) s entry) ∧
      (1 < (Register.read s.register).length →
        (write (dagApi nodeHash) client entry).run s =
          (s, .error (.contentBranchDetected (Register.read s.register)))) := by
  have hatop := writeAtop_frontier hcol hr.topoSorted hrights
  refine ⟨hatop.of_run_eq ?_, fun hle => hatop.of_run_eq ?_,
    fun hlt => by simp [write, dagApi, hlt]⟩
  · simp [writeMergingBranches, dagApi, Register.frontierHashes]
  · simp [write, dagApi, not_lt.2 hle, Register.frontierHashes]

/-- `sync` over the register of the spec: merge the remote and push, or publish a `Create` first. -/
theorem sync_run (s : ClientRegister) :
    (sync (dagApi nodeHash) client).run s =
      match getRegister (client.network s.sent) s.register.name s.register.tag,
        publishRegisterCreate (client.network (s.sent + 1))
          (.create s.register.owner s.register.permissions s.register.name s.register.tag) with
      | .ok remote, _ =>
        (push client).run { s with sent := s.sent + 1, register := s.register.merge remote }
      | .error _, .ok () =>
        (push client).run { s with
          sent := s.sent + 1 + 1
          log := s.log ++ [.published (.create s.register.owner s.register.permissions
            s.register.name s.register.tag) (.ok ())] }
      | .error _, .error e =>
        ({ s with
          sent := s.sent + 1 + 1
          log := s.log ++ [.published (.create s.register.owner s.register.permissions
            s.register.name s.register.tag) (.error e)] }, .error e) := by
  rcases h : getRegister (client.network s.sent) s.register.name s.register.tag with e | remote
  · rcases hc : publishRegisterCreate (client.network (s.sent + 1))
      (.create s.register.owner s.register.permissions s.register.name s.register.tag) with e' | _
    · simp [sync, viaNetwork, h, hc]
    · simp [sync, viaNetwork, h, hc, dagApi, Register.merge_self]
  · simp [sync, viaNetwork, h, dagApi]

/-- `sync` keeps every local node, and gains a node under each hash of a fetched remote. -/
theorem sync_keeps_entries (s : ClientRegister) :
    (∀ p ∈ s.register.dag, p ∈ ((sync (dagApi nodeHash) client).run s).1.register.dag) ∧
      ∀ remote, getRegister (client.network s.sent) s.register.name s.register.tag = .ok remote →
        ∀ c ∈ remote.dag.map Prod.fst,
          c ∈ ((sync (dagApi nodeHash) client).run s).1.register.dag.map Prod.fst := by
  rw [sync_run]
  refine ⟨fun p hp => ?_, fun remote h c hc => ?_⟩
  · split <;> simp only [push_register]
    · exact Register.mem_foldr_of_mem hp
    all_goals exact hp
  · simp only [h, push_register]
    exact Register.mem_keys_foldr.2 (.inr hc)

/-- A node hash with no collisions: the node's parents and bytes encoded as one number. -/
def encodingNodeHash (node : MerkleDagEntry) : EntryHash :=
  Encodable.encode (node.children, node.value.map UInt8.toNat)

theorem encodingNodeHash_injective : Function.Injective encodingNodeHash := by
  rintro ⟨c, v⟩ ⟨c', v'⟩ h
  obtain ⟨rfl, hv⟩ := Prod.mk.inj (Encodable.encode_injective h)
  obtain rfl : v = v' := List.map_injective_iff.2 (fun _ _ => UInt8.toNat.inj) hv
  rfl

theorem noCollision_encodingNodeHash (r : Register) (node : MerkleDagEntry) :
    Register.NoCollision encodingNodeHash r node :=
  fun _ _ h => encodingNodeHash_injective h

/-- Key `0`, on a network that answers nothing. -/
def quietClient : Client := ⟨0, fun _ _ => .ok []⟩

def zeroName : XorName := ⟨List.replicate 32 0, rfl⟩

/-- `create quietClient zeroName 0` with `[1]` and `[2]` written on two replicas, then merged. -/
def twoBranches : ClientRegister :=
  let r := (create quietClient zeroName 0).register
  { create quietClient zeroName 0 with
    register := ((r.write encodingNodeHash [1] (Register.frontierHashes r)).2.2).merge
      (r.write encodingNodeHash [2] (Register.frontierHashes r)).2.2 }

theorem twoBranches_reachable : Register.Reachable encodingNodeHash twoBranches.register :=
  .merge _ _ (.write _ _ (.new _ _ _ _)) (.write _ _ (.new _ _ _ _))

theorem write_collapses_frontier_twoBranches :
    Register.Reachable encodingNodeHash twoBranches.register ∧
      Register.NoCollision encodingNodeHash twoBranches.register
        ⟨Register.frontierHashes twoBranches.register, []⟩ ∧
      Register.checkUserRights twoBranches.register .write (.key quietClient.signerPk) = .ok () ∧
      (Register.read twoBranches.register).length = 2 ∧
      WritesAtopFrontier encodingNodeHash
          (writeMergingBranches (dagApi encodingNodeHash) quietClient []) twoBranches [] ∧
      ((Register.read twoBranches.register).length ≤ 1 →
        WritesAtopFrontier encodingNodeHash (write (dagApi encodingNodeHash) quietClient [])
          twoBranches []) ∧
      (1 < (Register.read twoBranches.register).length →
        (write (dagApi encodingNodeHash) quietClient []).run twoBranches =
          (twoBranches, .error (.contentBranchDetected (Register.read twoBranches.register)))) :=
  ⟨twoBranches_reachable, noCollision_encodingNodeHash _ _, rfl, by decide,
    write_collapses_frontier twoBranches_reachable [] (noCollision_encodingNodeHash _ _) rfl⟩

/-! ### `write_merging_branches` descends from all of the history -/

/-- `write_merging_branches` queues one edit that descends from every entry the replica held. -/
theorem writeMergingBranches_descends {s : ClientRegister}
    (hr : Register.Reachable nodeHash s.register) (entry : Entry)
    (hcol : Register.NoCollision nodeHash s.register ⟨Register.frontierHashes s.register, entry⟩)
    (hrights : Register.checkUserRights s.register .write (.key client.signerPk) = .ok ()) :
    ∃ op register, (writeMergingBranches (dagApi nodeHash) client entry).run s =
        ({ s with register, ops := .edit op :: s.ops, log := s.log ++ [.wrote op] }, .ok ()) ∧
      ∀ p ∈ s.register.dag,
        Relation.ReflTransGen (Register.Parent register.dag) p.1 (nodeHash op.crdtOp) := by
  have hfresh := Register.hash_not_mem hcol hr.topoSorted
  refine ⟨(s.register.write nodeHash entry (Register.frontierHashes s.register)).2.1,
    (s.register.write nodeHash entry (Register.frontierHashes s.register)).2.2,
    by simp [writeMergingBranches, writeAtop, dagApi, hrights, Except.mapError,
      Register.frontierHashes], fun p hp => ?_⟩
  obtain ⟨x, hx, hpath⟩ := (Register.frontier_covers hr).2.2 p hp
  obtain ⟨xnode, hxn, -, hxr⟩ := Register.mem_read.1 hx
  simp only [Register.write, Register.insertNode, if_neg hfresh]
  exact (Relation.ReflTransGen.mono (fun _ _ => Register.Parent.mono fun _ => List.mem_cons_of_mem _)
    hpath).tail ⟨_, List.mem_cons_self _ _, Register.mem_frontierHashes.2 ⟨xnode, hxn, hxr⟩⟩

theorem writeMergingBranches_descends_twoBranches :
    Register.Reachable encodingNodeHash twoBranches.register ∧
      Register.NoCollision encodingNodeHash twoBranches.register
        ⟨Register.frontierHashes twoBranches.register, []⟩ ∧
      Register.checkUserRights twoBranches.register .write (.key quietClient.signerPk) = .ok () ∧
      twoBranches.register.dag.length = 2 ∧
      ∃ op register, (writeMergingBranches (dagApi encodingNodeHash) quietClient []).run twoBranches =
          ({ twoBranches with
              register := register
              ops := .edit op :: twoBranches.ops
              log := twoBranches.log ++ [.wrote op] }, .ok ()) ∧
        ∀ p ∈ twoBranches.register.dag,
          Relation.ReflTransGen (Register.Parent register.dag) p.1 (encodingNodeHash op.crdtOp) :=
  ⟨twoBranches_reachable, noCollision_encodingNodeHash _ _, rfl, by decide,
    writeMergingBranches_descends twoBranches_reachable [] (noCollision_encodingNodeHash _ _) rfl⟩

end SnClient

end SafeNetwork
