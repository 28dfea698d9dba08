import SafeNetwork.Node.SendAndGet
import SafeNetwork.Protocol.Fanout
import SafeNetwork.Std.BTreeSet

/-! `Node::get_spend`: a spend is read only when the whole close group returns the same one. -/
namespace SafeNetwork.Node

open Fanout

/-- The result a `GetDbcSpend` response carries. -/
def spendResult : Response → Option (Except ProtocolError SignedSpend)
  | .query (.getDbcSpend result) => some result
  | _ => none

/-- `if spends.len() >= CLOSE_GROUP_SIZE { .. }` over the spends collected into a `BTreeSet`. -/
def agreedSpend (closeGroupSize : Nat) (spends : List SignedSpend) : Option SignedSpend :=
  if spends.length ≥ closeGroupSize then
    match BTreeSet.ofList spends with
    | [spend] => some spend
    | _ => none
  else none

/-- `get_spend` once `send_to_closest` has answered. -/
def spendOfResponses (closeGroupSize : Nat) (responses : List (Except Error Response)) :
    Except Error SignedSpend :=
  match agreedSpend closeGroupSize (payloads spendResult responses) with
  | some spend => .ok spend
  | none => errorOfResponses Error.protocol spendResult (.protocol .unexpectedResponses) responses

theorem payload_spendResult {r : Except Error Response} {s : SignedSpend} :
    payload spendResult r = some s ↔ r = .ok (.query (.getDbcSpend (.ok s))) := by
  rcases r with _ | (_ | (_ | _ | r)) <;> simp [payload, spendResult]
  rcases r with _ | _ <;> simp

def getSpend (net : Network) (address : DbcAddress) : Except Error SignedSpend := do
  let responses ← sendToClosest net (.query (.getDbcSpend address))
  spendOfResponses net.closeGroupSize responses

variable {K : Nat} {spends : List SignedSpend} {s : SignedSpend}
  {responses : List (Except Error Response)}

theorem agreedSpend_eq_some :
    agreedSpend K spends = some s ↔ K ≤ spends.length ∧ spends ≠ [] ∧ ∀ x ∈ spends, x = s := by
  by_cases hK : K ≤ spends.length
  · simp only [agreedSpend, ge_iff_le, hK, ↓reduceIte, true_and]
    split
    · rename_i spend hset
      rw [BTreeSet.ofList_eq_singleton] at hset
      obtain ⟨y, hy⟩ := List.exists_mem_of_ne_nil _ hset.1
      simp only [Option.some.injEq]
      exact ⟨by rintro rfl; exact hset, fun h => (hset.2 y hy).symm.trans (h.2 y hy)⟩
    · rename_i hset
      exact ⟨(fun h => nomatch h), fun h => (hset s (BTreeSet.ofList_eq_singleton.2 h)).elim⟩
  · simp [agreedSpend, hK]

/-- The set test stands for "at least `K` of them, all equal", since `K` is positive. -/
theorem agreedSpend_eq_some_iff (hK : 0 < K) :
    agreedSpend K spends = some s ↔ K ≤ spends.length ∧ ∀ x ∈ spends, x = s := by
  rw [agreedSpend_eq_some]
  exact ⟨fun h => ⟨h.1, h.2.2⟩, fun h => ⟨h.1, List.ne_nil_of_length_pos (by omega), h.2⟩⟩

theorem spendOfResponses_eq_ok (hK : 0 < K) :
    spendOfResponses K responses = .ok s ↔
      K ≤ (payloads spendResult responses).length ∧ ∀ x ∈ payloads spendResult responses, x = s := by
  rw [← agreedSpend_eq_some_iff hK, spendOfResponses]
  split
  · simp_all
  · simp_all [errorOfResponses_eq]

theorem spendOfResponses_of_not_agreed
    (h : ¬ ∃ s, K ≤ (payloads spendResult responses).length ∧
      ∀ x ∈ payloads spendResult responses, x = s) :
    spendOfResponses K responses =
      .error (surfacedError Error.protocol spendResult (.protocol .unexpectedResponses) responses) := by
  rw [spendOfResponses]
  split
  · rename_i spend hs
    exact absurd ⟨spend, (agreedSpend_eq_some.1 hs).1, (agreedSpend_eq_some.1 hs).2.2⟩ h
  · exact errorOfResponses_eq responses

/-- `get_spend` is the spec's unanimity rule over the vector `send_to_closest` returned. -/
theorem getSpend_reference (net : Network) (address : DbcAddress) (rs : List (Except Error Response))
    (h : sendToClosest net (.query (.getDbcSpend address)) = .ok rs) :
    (∀ s, net.closeGroupSize ≤ (payloads spendResult rs).length →
      (∀ x ∈ payloads spendResult rs, x = s) → getSpend net address = .ok s) ∧
    ((¬ ∃ s, net.closeGroupSize ≤ (payloads spendResult rs).length ∧
        ∀ x ∈ payloads spendResult rs, x = s) →
      getSpend net address =
        .error (surfacedError Error.protocol spendResult (.protocol .unexpectedResponses) rs)) ∧
    (∀ s, getSpend net address = .ok s →
      net.closeGroupSize ≤ (payloads spendResult rs).length ∧
        ∀ x ∈ payloads spendResult rs, x = s) := by
  have hg : getSpend net address = spendOfResponses net.closeGroupSize rs := by
    simp [getSpend, h, bind, Except.bind]
  rw [hg]
  exact ⟨fun s hK hall => (spendOfResponses_eq_ok net.closeGroupSize_pos).2 ⟨hK, hall⟩,
    spendOfResponses_of_not_agreed, fun s => (spendOfResponses_eq_ok net.closeGroupSize_pos).1⟩

/-- A close group of two nodes that both hold `spend`. -/
def agreeingGroup (spend : SignedSpend) : Network where
  closeGroupSize := 2
  closeGroupSize_pos := Nat.two_pos
  nodeGetClosestPeers _ := .ok [0, 1]
  sendRequest _ _ := .ok (.ok (.query (.getDbcSpend (.ok spend))))
  completion _ _ := 0

theorem sendToClosest_agreeingGroup (spend : SignedSpend) (req : Request) :
    sendToClosest (agreeingGroup spend) req =
      .ok [.ok (.query (.getDbcSpend (.ok spend))), .ok (.query (.getDbcSpend (.ok spend)))] := by
  simp [sendToClosest, sendAndGetResponses, selectAll, agreeingGroup, selectLoop, bind, Except.bind, pure,
    Except.pure, Except.mapError]

theorem getSpend_agreeingGroup :
    sendToClosest (agreeingGroup ⟨0, 0, 0, 0, 0⟩) (.query (.getDbcSpend ⟨⟨List.replicate 32 0, rfl⟩⟩)) =
        .ok [.ok (.query (.getDbcSpend (.ok ⟨0, 0, 0, 0, 0⟩))),
          .ok (.query (.getDbcSpend (.ok ⟨0, 0, 0, 0, 0⟩)))] ∧
      getSpend (agreeingGroup ⟨0, 0, 0, 0, 0⟩) ⟨⟨List.replicate 32 0, rfl⟩⟩ = .ok ⟨0, 0, 0, 0, 0⟩ :=
  ⟨sendToClosest_agreeingGroup _ _,
    (getSpend_reference _ _ _ (sendToClosest_agreeingGroup _ _)).1 _ (by decide) (by decide)⟩

theorem getSpend_of_agreeingGroup (spend : SignedSpend) (address : DbcAddress) :
    getSpend (agreeingGroup spend) address = .ok spend := by
  rw [getSpend, sendToClosest_agreeingGroup]
  simp [bind, Except.bind, spendOfResponses, agreedSpend, Fanout.payloads, Fanout.payload,
    spendResult, agreeingGroup, BTreeSet.ofList, BTreeSet.insert]

end SafeNetwork.Node
