import SafeNetwork.Node.GetSpend
import Mathlib.Data.Fintype.Card
import Mathlib.Logic.Relation

/-! A close group of `K` first-write-wins nodes, with spend writes racing `get_spend` reads. -/
namespace SafeNetwork.Node.CloseGroup

open Fanout

variable {K : Nat}

/-- The spend store's first-write-wins rule: a write into a taken slot leaves it as it was. -/
def storeFirst : Option SignedSpend → SignedSpend → Option SignedSpend
  | none, s => some s
  | some t, _ => some t

/-- A node answers `GetDbcSpend` with the spend it holds when it answers, or with any failure. -/
def Answers (slot : Option SignedSpend) (r : Except Error Response) : Prop :=
  ∀ s, r = .ok (.query (.getDbcSpend (.ok s))) → slot = some s

structure World (K : Nat) where
  slot : Fin K → Option SignedSpend
  /-- Reads in flight: the nodes that have answered each, with their answers, in order. -/
  reads : List (List (Fin K × Except Error Response))
  /-- What the finished `get_spend` calls returned, in the order they finished. -/
  returned : List (Except Error SignedSpend)

def initial (K : Nat) : World K := ⟨fun _ => none, [], []⟩

inductive Step : World K → World K → Prop
  | write (w : World K) (i : Fin K) (s : SignedSpend) :
      Step w { w with slot := Function.update w.slot i (storeFirst (w.slot i) s) }
  | start (w : World K) : Step w { w with reads := w.reads ++ [[]] }
  | answer (w : World K) (r : Nat) (hr : r < w.reads.length) (i : Fin K)
      (resp : Except Error Response) (hi : i ∉ w.reads[r].map Prod.fst)
      (ha : Answers (w.slot i) resp) :
      Step w { w with reads := w.reads.set r (w.reads[r] ++ [(i, resp)]) }
  | finish (w : World K) (r : Nat) (hr : r < w.reads.length) :
      Step w { w with
        reads := w.reads.eraseIdx r
        returned := w.returned ++ [spendOfResponses K (w.reads[r].map Prod.snd)] }

def Reachable (w : World K) : Prop := Relation.ReflTransGen Step (initial K) w

/-- Each read heard each node at most once, and every spend it heard was that node's. -/
def ReadInv (w : World K) (answers : List (Fin K × Except Error Response)) : Prop :=
  (answers.map Prod.fst).Nodup ∧ ∀ i r, (i, r) ∈ answers → Answers (w.slot i) r

def Inv (w : World K) : Prop :=
  (∀ a ∈ w.reads, ReadInv w a) ∧
    ∀ s, .ok s ∈ w.returned → 0 < K ∧ ∀ i, w.slot i = some s

variable {w w' : World K}

theorem storeFirst_of_some {t : Option SignedSpend} {s u : SignedSpend} (h : t = some u) :
    storeFirst t s = some u := by
  subst h; rfl

/-- Slots are only ever filled, never changed. -/
theorem slot_step (h : Step w w') {i : Fin K} {s : SignedSpend} (hs : w.slot i = some s) :
    w'.slot i = some s := by
  cases h with
  | write j t =>
    by_cases hj : i = j
    · subst hj; simpa using storeFirst_of_some hs
    · simpa [Function.update_noteq hj] using hs
  | _ => exact hs

theorem readInv_mono (hw : ∀ i s, w.slot i = some s → w'.slot i = some s)
    {a : List (Fin K × Except Error Response)} (h : ReadInv w a) : ReadInv w' a :=
  ⟨h.1, fun i r hir s hr => hw i s (h.2 i r hir s hr)⟩

/-- A nodup list of `K` nodes names every node. -/
theorem mem_of_nodup {l : List (Fin K)} (hl : l.Nodup) (hK : K ≤ l.length) (i : Fin K) : i ∈ l := by
  classical
  have hcard : l.toFinset.card = Fintype.card (Fin K) := by
    rw [List.toFinset_card_of_nodup hl, Fintype.card_fin]
    exact le_antisymm (by simpa using hl.length_le_card) hK
  have hi : i ∈ l.toFinset := (Finset.eq_univ_of_card _ hcard).symm ▸ Finset.mem_univ i
  exact List.mem_toFinset.1 hi

/-- The successes a read heard with `s` came from that many distinct nodes holding `s`. -/
theorem holders_of_answers (a : List (Fin K × Except Error Response)) (s : SignedSpend)
    (hinv : ReadInv w a) (hall : ∀ x ∈ payloads spendResult (a.map Prod.snd), x = s) :
    ∃ l : List (Fin K), l.Nodup ∧ l.length = (payloads spendResult (a.map Prod.snd)).length ∧
      (∀ i ∈ l, i ∈ a.map Prod.fst) ∧ ∀ i ∈ l, w.slot i = some s := by
  induction a with
  | nil => exact ⟨[], by simp [payloads]⟩
  | cons p a ih =>
    obtain ⟨i, r⟩ := p
    have hnd := hinv.1
    simp only [List.map_cons, List.nodup_cons] at hnd
    have hinv' : ReadInv w a := ⟨hnd.2, fun j q hq => hinv.2 j q (.tail _ hq)⟩
    rcases hx : payload spendResult r with _ | x
    · have hp : payloads spendResult (((i, r) :: a).map Prod.snd) = payloads spendResult (a.map Prod.snd) := by
        simp [payloads, hx]
      obtain ⟨l, hl, hlen, hsub, hslot⟩ := ih hinv' (fun x h => hall x (hp ▸ h))
      exact ⟨l, hl, hp ▸ hlen, fun j hj => .tail _ (hsub j hj), hslot⟩
    · have hp : payloads spendResult (((i, r) :: a).map Prod.snd) =
          x :: payloads spendResult (a.map Prod.snd) := by
        simp [payloads, hx]
      rw [hp] at hall ⊢
      obtain ⟨l, hl, hlen, hsub, hslot⟩ := ih hinv' (fun y h => hall y (.tail _ h))
      have hxs : w.slot i = some s :=
        hall x (.head _) ▸ hinv.2 i r (.head _) x (payload_spendResult.1 hx)
      refine ⟨i :: l, List.nodup_cons.2 ⟨fun h => hnd.1 (hsub i h), hl⟩, by simp [hlen], ?_, ?_⟩
      · simpa using fun j hj => Or.inr (hsub j hj)
      · simpa [hxs] using hslot

/-- A finished read that succeeded with `s` heard `s` from every node. -/
theorem all_hold_of_ok {a : List (Fin K × Except Error Response)} {s : SignedSpend}
    (hinv : ReadInv w a) (h : spendOfResponses K (a.map Prod.snd) = .ok s) :
    0 < K ∧ ∀ i, w.slot i = some s := by
  have hagree : agreedSpend K (payloads spendResult (a.map Prod.snd)) = some s := by
    rw [spendOfResponses] at h
    split at h
    · rename_i spend hs
      cases h
      exact hs
    · simp [errorOfResponses_eq] at h
  obtain ⟨hK, hne, hall⟩ := agreedSpend_eq_some.1 hagree
  obtain ⟨l, hl, hlen, -, hslot⟩ := holders_of_answers a s hinv hall
  obtain ⟨j, hj⟩ := List.exists_mem_of_ne_nil _ (List.ne_nil_of_length_pos
    (hlen ▸ List.length_pos_of_ne_nil hne))
  exact ⟨Fin.pos j, fun i => hslot i (mem_of_nodup hl (hlen ▸ hK) i)⟩

theorem inv_initial : Inv (initial K) := ⟨by simp [initial], by simp [initial]⟩

theorem inv_step (h : Step w w') (hi : Inv w) : Inv w' := by
  have hslot : ∀ i s, w.slot i = some s → w'.slot i = some s := fun _ _ => slot_step h
  cases h with
  | write j t =>
    exact ⟨fun a ha => readInv_mono hslot (hi.1 a ha),
      fun s hs => ⟨(hi.2 s hs).1, fun i => hslot i s ((hi.2 s hs).2 i)⟩⟩
  | start =>
    refine ⟨fun a ha => ?_, hi.2⟩
    rcases List.mem_append.1 ha with ha | ha
    · exact hi.1 a ha
    · obtain rfl := List.mem_singleton.1 ha
      exact ⟨List.nodup_nil, by simp⟩
  | answer r hr i resp hfresh ha =>
    refine ⟨fun a hmem => ?_, hi.2⟩
    rcases List.mem_or_eq_of_mem_set hmem with hmem | rfl
    · exact hi.1 a hmem
    · have hold := hi.1 _ (List.getElem_mem hr)
      refine ⟨?_, fun j q hq => ?_⟩
      · simpa [List.nodup_append, hold.1] using hfresh
      · rcases List.mem_append.1 hq with hq | hq
        · exact hold.2 j q hq
        · obtain ⟨rfl, rfl⟩ := Prod.mk.inj (List.mem_singleton.1 hq)
          exact ha
  | finish r hr =>
    refine ⟨fun a ha => hi.1 a (List.mem_of_mem_eraseIdx ha), fun s hs => ?_⟩
    rcases List.mem_append.1 hs with hs | hs
    · exact hi.2 s hs
    · exact all_hold_of_ok (hi.1 _ (List.getElem_mem hr)) (List.mem_singleton.1 hs).symm

theorem inv_reachable (h : Reachable w) : Inv w := by
  induction h with
  | refl => exact inv_initial
  | tail _ hs ih => exact inv_step hs ih

/-- In every run, successful reads return one spend, and from the first on every node holds it. -/
theorem getSpend_single_committed (w : World K) (h : Reachable w) :
    (∀ s t, .ok s ∈ w.returned → .ok t ∈ w.returned → s = t) ∧
      ∀ s, .ok s ∈ w.returned → ∀ i, w.slot i = some s := by
  have hi := inv_reachable h
  refine ⟨fun s t hs ht => ?_, fun s hs => (hi.2 s hs).2⟩
  obtain ⟨hK, hall⟩ := hi.2 s hs
  exact Option.some_injective _ ((hall ⟨0, hK⟩).symm.trans ((hi.2 t ht).2 ⟨0, hK⟩))

def spendA : SignedSpend := ⟨0, 0, 0, 0, 0⟩

def heardA : Except Error Response := .ok (.query (.getDbcSpend (.ok spendA)))

/-- Both nodes of a two-node group took `spendA`, and a read heard it from each and returned it. -/
def twoAgreed : World 2 := ⟨fun _ => some spendA, [], [.ok spendA]⟩

/-- Both nodes take `spendA`, a later write to node `0` is ignored, and a read returns `spendA`. -/
theorem getSpend_single_committed_two_nodes :
    Reachable twoAgreed ∧
      (∀ s t, .ok s ∈ twoAgreed.returned → .ok t ∈ twoAgreed.returned → s = t) ∧
      ∀ s, .ok s ∈ twoAgreed.returned → ∀ i, twoAgreed.slot i = some s := by
  have hheld : Reachable (⟨fun _ => some spendA, [], []⟩ : World 2) := by
    have h := (((Relation.ReflTransGen.single (Step.write (initial 2) 0 spendA)).tail
      (Step.write _ 1 spendA)).tail (Step.write _ 0 ⟨1, 0, 0, 0, 0⟩))
    convert h using 2
    funext i
    revert i
    decide
  have hfin : Step (⟨fun _ => some spendA, [[(0, heardA), (1, heardA)]], []⟩ : World 2) twoAgreed := by
    convert Step.finish (⟨fun _ => some spendA, [[(0, heardA), (1, heardA)]], []⟩ : World 2) 0
      (by decide) using 2
  have h : Reachable twoAgreed :=
    (((hheld.tail (Step.start _)).tail
      (Step.answer (⟨fun _ => some spendA, [[]], []⟩ : World 2) 0 (by decide) 0 heardA (by decide)
        (fun _ h => by cases h; rfl))).tail
      (Step.answer (⟨fun _ => some spendA, [[(0, heardA)]], []⟩ : World 2) 0 (by decide) 1 heardA
        (by decide) (fun _ h => by cases h; rfl))).tail hfin
  exact ⟨h, getSpend_single_committed _ h⟩

end SafeNetwork.Node.CloseGroup
