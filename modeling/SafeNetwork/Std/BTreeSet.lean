import Mathlib.Order.Basic
import Mathlib.Data.List.Sort

/-! `std::collections::BTreeSet` as a strictly ascending list: the order its iterators yield. -/
namespace SafeNetwork.BTreeSet

variable {α : Type} [LinearOrder α] {a x : α} {s xs : List α}

/-- `BTreeSet::insert`: a value equal to one already present is not added again. -/
def insert (x : α) : List α → List α
  | [] => [x]
  | y :: ys => if x < y then x :: y :: ys else if x = y then y :: ys else y :: insert x ys

/-- `collect()` into a `BTreeSet`: the values inserted in iteration order. -/
def ofList (xs : List α) : List α := xs.foldl (fun s x => insert x s) []

@[simp] theorem mem_insert : a ∈ insert x s ↔ a = x ∨ a ∈ s := by
  induction s with
  | nil => simp [insert]
  | cons y ys ih =>
    unfold insert
    split_ifs with h₁ h₂
    · simp
    · subst h₂; simp
    · simp only [List.mem_cons, ih, or_left_comm]

theorem sorted_insert (h : s.Sorted (· < ·)) : (insert x s).Sorted (· < ·) := by
  induction s with
  | nil => simp [insert]
  | cons y ys ih =>
    rw [List.sorted_cons] at h
    unfold insert
    split_ifs with h₁ h₂
    · refine List.sorted_cons.2 ⟨?_, List.sorted_cons.2 h⟩
      simp only [List.mem_cons, forall_eq_or_imp]
      exact ⟨h₁, fun z hz => h₁.trans (h.1 z hz)⟩
    · exact List.sorted_cons.2 h
    · refine List.sorted_cons.2 ⟨?_, ih h.2⟩
      simp only [mem_insert, forall_eq_or_imp]
      exact ⟨lt_of_le_of_ne (not_lt.1 h₁) (Ne.symm h₂), h.1⟩

theorem mem_foldl_insert : a ∈ xs.foldl (fun s x => insert x s) s ↔ a ∈ xs ∨ a ∈ s := by
  induction xs generalizing s with
  | nil => simp
  | cons y ys ih => simp only [List.foldl_cons, ih, mem_insert, List.mem_cons, or_assoc, or_left_comm]

@[simp] theorem mem_ofList : a ∈ ofList xs ↔ a ∈ xs := by
  simp [ofList, mem_foldl_insert]

theorem sorted_ofList (xs : List α) : (ofList xs).Sorted (· < ·) := by
  suffices ∀ s : List α, s.Sorted (· < ·) → (xs.foldl (fun s x => insert x s) s).Sorted (· < ·)
    from this [] List.sorted_nil
  induction xs with
  | nil => exact fun _ h => h
  | cons y ys ih => exact fun s h => ih _ (sorted_insert h)

/-- A set built from `xs` has exactly one element `a` iff `xs` is a nonempty run of `a`s. -/
theorem ofList_eq_singleton : ofList xs = [a] ↔ xs ≠ [] ∧ ∀ x ∈ xs, x = a := by
  constructor
  · intro h
    refine ⟨?_, fun x hx => ?_⟩
    · rintro rfl; simp [ofList] at h
    · simpa [h] using (@mem_ofList _ _ x xs).2 hx
  · rintro ⟨hne, hall⟩
    obtain ⟨y, hy⟩ := List.exists_mem_of_ne_nil xs hne
    have hsub : ∀ z ∈ ofList xs, z = a := fun z hz => hall z (mem_ofList.1 hz)
    have hrep := List.eq_replicate_iff.2 ⟨rfl, hsub⟩
    have hle := List.nodup_replicate.1 (hrep ▸ (sorted_ofList xs).nodup)
    have hpos : 0 < (ofList xs).length := List.length_pos_of_mem (mem_ofList.2 hy)
    rw [hrep, show (ofList xs).length = 1 by omega]
    rfl

end SafeNetwork.BTreeSet
