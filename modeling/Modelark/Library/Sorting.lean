import Mathlib

/-!
# Sorting by a key

A stable sort of a list by a key in a linear order, and the sorted list of the distinct values of
a list. Both depend on their argument only up to the order in which it was written down: this is
what makes a canonical exploration order independent of the caller's order.
-/

namespace Modelark.Library

variable {α β : Type*} [LinearOrder β]

/-- Stable sort by `key`. -/
def sortBy (key : α → β) (xs : List α) : List α :=
  xs.insertionSort fun a b => key a ≤ key b

instance keyTotal (key : α → β) : Std.Total fun a b : α => key a ≤ key b :=
  ⟨fun a b => le_total (key a) (key b)⟩

instance keyTrans (key : α → β) : IsTrans α fun a b => key a ≤ key b :=
  ⟨fun _ _ _ first second => le_trans first second⟩

theorem sortBy_perm (key : α → β) (xs : List α) : (sortBy key xs).Perm xs :=
  List.perm_insertionSort _ xs

@[simp] theorem mem_sortBy {key : α → β} {xs : List α} {x : α} : x ∈ sortBy key xs ↔ x ∈ xs :=
  (sortBy_perm key xs).mem_iff

@[simp] theorem sortBy_nil (key : α → β) : sortBy key [] = [] := rfl

@[simp] theorem sortBy_eq_nil {key : α → β} {xs : List α} : sortBy key xs = [] ↔ xs = [] := by
  rw [← List.length_eq_zero_iff, (sortBy_perm key xs).length_eq, List.length_eq_zero_iff]

theorem pairwise_sortBy (key : α → β) (xs : List α) :
    (sortBy key xs).Pairwise fun a b => key a ≤ key b :=
  List.pairwise_insertionSort _ xs

/-- Two permutations of a list with distinct keys are sorted to the same list. -/
theorem sortBy_eq_of_perm {key : α → β} {xs ys : List α} (permuted : xs.Perm ys)
    (distinct : ∀ x ∈ xs, ∀ y ∈ xs, key x = key y → x = y) :
    sortBy key xs = sortBy key ys := by
  have sameItems : (sortBy key xs).Perm (sortBy key ys) :=
    (sortBy_perm key xs).trans (permuted.trans (sortBy_perm key ys).symm)
  refine sameItems.eq_of_pairwise ?_ (pairwise_sortBy key xs) (pairwise_sortBy key ys)
  intro x y left right below above
  rw [mem_sortBy] at left right
  exact distinct x left y (permuted.mem_iff.mpr right) (le_antisymm below above)

theorem mem_of_sortBy_cons {key : α → β} {xs rest : List α} {x : α}
    (sorted : sortBy key xs = x :: rest) : x ∈ xs := by
  rw [← @mem_sortBy _ _ _ key, sorted]
  exact List.mem_cons_self ..

/-- Sorting a sorted list changes nothing. -/
theorem sortBy_of_pairwise {key : α → β} {xs : List α}
    (sorted : xs.Pairwise fun a b => key a ≤ key b) : sortBy key xs = xs :=
  sorted.insertionSort_eq

theorem sortBy_map {γ : Type*} (f : α → γ) (key : γ → β) (xs : List α) :
    (sortBy (fun x => key (f x)) xs).map f = sortBy key (xs.map f) :=
  List.map_insertionSort _ _ f xs fun _ _ _ _ => Iff.rfl

/-- Keys that order the elements of a list alike, and tell them apart, sort it alike. -/
theorem sortBy_eq_sortBy {γ : Type*} [LinearOrder γ] {key : α → β} {other : α → γ} {xs : List α}
    (alike : ∀ x ∈ xs, ∀ y ∈ xs, key x ≤ key y → other x ≤ other y)
    (distinct : ∀ x ∈ xs, ∀ y ∈ xs, other x = other y → x = y) : sortBy key xs = sortBy other xs := by
  have sorted : (sortBy key xs).Pairwise fun x y => other x ≤ other y := by
    refine (pairwise_sortBy key xs).imp_of_mem fun left right below => ?_
    exact alike _ (mem_sortBy.mp left) _ (mem_sortBy.mp right) below
  calc sortBy key xs = sortBy other (sortBy key xs) := (sortBy_of_pairwise sorted).symm
    _ = sortBy other xs := (sortBy_eq_of_perm (sortBy_perm key xs).symm distinct).symm

section SortedSet

/-- The distinct values of a list, in increasing order. -/
def sortedSet (xs : List β) : List β :=
  sortBy id xs.dedup

@[simp] theorem mem_sortedSet {xs : List β} {x : β} : x ∈ sortedSet xs ↔ x ∈ xs := by
  rw [sortedSet, mem_sortBy, List.mem_dedup]

theorem nodup_sortedSet (xs : List β) : (sortedSet xs).Nodup :=
  (sortBy_perm id xs.dedup).nodup_iff.mpr (List.nodup_dedup xs)

theorem sortedSet_lt (xs : List β) : (sortedSet xs).Pairwise (· < ·) := by
  refine ((pairwise_sortBy id xs.dedup).and (nodup_sortedSet xs)).imp fun both => ?_
  exact lt_of_le_of_ne both.1 both.2

/-- Lists with the same members have the same sorted list of values. -/
theorem sortedSet_congr {xs ys : List β} (same : ∀ x, x ∈ xs ↔ x ∈ ys) :
    sortedSet xs = sortedSet ys := by
  refine sortBy_eq_of_perm ?_ fun _ _ _ _ equal => equal
  rw [List.perm_ext_iff_of_nodup (List.nodup_dedup xs) (List.nodup_dedup ys)]
  intro x
  simp only [List.mem_dedup, same]

@[simp] theorem sortedSet_nil : sortedSet ([] : List β) = [] := rfl

theorem sortedSet_sortedSet (xs : List β) : sortedSet (sortedSet xs) = sortedSet xs := by
  rw [sortedSet, (nodup_sortedSet xs).dedup]
  exact sortBy_of_pairwise (pairwise_sortBy id xs.dedup)

theorem sortedSet_eq_nil {xs : List β} : sortedSet xs = [] ↔ xs = [] := by
  constructor
  · intro empty
    rw [List.eq_nil_iff_forall_not_mem]
    intro x member
    have listed : x ∈ sortedSet xs := mem_sortedSet.mpr member
    rw [empty] at listed
    exact List.not_mem_nil listed
  · rintro rfl
    rfl

end SortedSet

/-- The sorted values of a list, as a sorted list of an already distinct list. -/
theorem sortBy_id_eq_of_perm {xs ys : List β} (permuted : xs.Perm ys) :
    sortBy id xs = sortBy id ys :=
  sortBy_eq_of_perm permuted fun _ _ _ _ equal => equal

/-- Lists are ordered by beginnings of which neither continues the other. -/
theorem append_le_append {p q s t : List β} (apart : ¬p <+: q) (apart' : ¬q <+: p) (le : p ++ s ≤ q ++ t) :
    p ≤ q := by
  induction p generalizing q with
  | nil => exact absurd q.nil_prefix apart
  | cons x p ih =>
      cases q with
      | nil => exact absurd (List.nil_prefix) apart'
      | cons y q =>
          rw [← not_lt, List.cons_append, List.cons_append, List.cons_lt_cons_iff] at le
          rw [← not_lt, List.cons_lt_cons_iff]
          rintro (below | ⟨rfl, less⟩)
          · exact le (.inl below)
          · refine absurd less (not_lt.mpr (ih ?_ ?_ (not_lt.mp fun less => le (.inr ⟨rfl, less⟩))))
            · exact fun continued => apart (List.cons_prefix_cons.mpr ⟨rfl, continued⟩)
            · exact fun continued => apart' (List.cons_prefix_cons.mpr ⟨rfl, continued⟩)

end Modelark.Library
