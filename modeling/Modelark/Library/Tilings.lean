import Modelark.Library.Sorting

/-!
# Tilings

Intervals, one after another, that cover a region exactly. Intervals that tile in some order do so when they are
sorted, empty ones included.
-/

namespace Modelark.Library

variable {α : Type*} [LinearOrder α]

/-- Intervals from a start to a stop. -/
def Tiles : α → List (α × α) → α → Prop
  | start, [], stop => start = stop
  | start, interval :: rest, stop => interval.1 = start ∧ Tiles interval.2 rest stop

variable {start stop : α} {intervals others : List (α × α)}

/-- Intervals of a tiling begin where it starts or later, and end where it stops or earlier. -/
theorem Tiles.bounds (tiles : Tiles start intervals stop) (ordered : ∀ interval ∈ intervals, interval.1 ≤ interval.2) :
    start ≤ stop ∧ ∀ interval ∈ intervals, start ≤ interval.1 ∧ interval.2 ≤ stop := by
  induction intervals generalizing start with
  | nil => exact ⟨tiles.le, by simp⟩
  | cons interval rest ih =>
      obtain ⟨rfl, tiles⟩ := tiles
      have first := ordered interval List.mem_cons_self
      obtain ⟨before, bounds⟩ := ih tiles fun other member => ordered other (List.mem_cons_of_mem interval member)
      refine ⟨first.trans before, fun other member => ?_⟩
      rcases List.mem_cons.mp member with rfl | member
      · exact ⟨le_rfl, before⟩
      · exact ⟨first.trans (bounds other member).1, (bounds other member).2⟩

/-- The intervals of a tiling are in order. -/
theorem Tiles.sorted (tiles : Tiles start intervals stop) (ordered : ∀ interval ∈ intervals, interval.1 ≤ interval.2) :
    intervals.Pairwise fun one other => toLex one ≤ toLex other := by
  induction intervals generalizing start with
  | nil => exact .nil
  | cons interval rest ih =>
      obtain ⟨rfl, tiles⟩ := tiles
      have first := ordered interval List.mem_cons_self
      have further : ∀ other ∈ rest, other.1 ≤ other.2 :=
        fun other member => ordered other (List.mem_cons_of_mem interval member)
      refine List.pairwise_cons.mpr ⟨fun other member => ?_, ih tiles further⟩
      have after := ((tiles.bounds further).2 other member).1
      rw [Prod.Lex.toLex_le_toLex]
      rcases (first.trans after).lt_or_eq with less | same
      · exact .inl less
      · exact .inr ⟨same, after.trans (further other member)⟩

/-- Intervals that tile in some order tile in the sorted one. -/
theorem Tiles.of_perm (tiles : Tiles start intervals stop) (permuted : others.Perm intervals)
    (ordered : ∀ interval ∈ intervals, interval.1 ≤ interval.2)
    (sorted : others.Pairwise fun one other => toLex one ≤ toLex other) : Tiles start others stop := by
  have same : others = intervals := by
    refine permuted.eq_of_pairwise ?_ sorted (tiles.sorted ordered)
    intro one other _ _ first second
    exact toLex.injective (le_antisymm first second)
  exact same ▸ tiles

end Modelark.Library
