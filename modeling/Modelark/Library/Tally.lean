import Mathlib

/-!
# Totals and peaks

The sum and the maximum of a natural figure over a list, with 0 for the empty list. Neither depends
on the order of the list, and neither grows on a sublist.
-/

namespace Modelark.Library

variable {α β : Type*}

def total (f : α → Nat) (xs : List α) : Nat :=
  (xs.map f).sum

/-- `max(f(x) for x in xs)`, 0 by default. -/
def peak (f : α → Nat) (xs : List α) : Nat :=
  (xs.map f).foldr max 0

variable {f : α → Nat}

@[simp] theorem total_nil : total f [] = 0 := rfl

@[simp] theorem total_cons (x : α) (xs : List α) : total f (x :: xs) = f x + total f xs := by
  simp only [total, List.map_cons, List.sum_cons]

@[simp] theorem total_append (xs ys : List α) : total f (xs ++ ys) = total f xs + total f ys := by
  simp only [total, List.map_append, List.sum_append]

theorem total_perm {xs ys : List α} (permuted : xs.Perm ys) : total f xs = total f ys :=
  (permuted.map f).sum_eq

theorem total_map (g : β → α) (xs : List β) : total f (xs.map g) = total (fun x => f (g x)) xs := by
  simp only [total, List.map_map, Function.comp_def]

theorem total_sublist {xs ys : List α} (fewer : xs.Sublist ys) : total f xs ≤ total f ys :=
  (fewer.map f).sum_le_sum fun _ _ => Nat.zero_le _

theorem total_subperm {xs ys : List α} (fewer : xs.Subperm ys) : total f xs ≤ total f ys := by
  obtain ⟨zs, permuted, sublist⟩ := fewer
  exact (total_perm permuted).ge.trans (total_sublist sublist)

theorem total_mono {g : α → Nat} {xs : List α} (below : ∀ x ∈ xs, f x ≤ g x) : total f xs ≤ total g xs :=
  List.sum_le_sum below

theorem le_total_of_mem {xs : List α} {x : α} (member : x ∈ xs) : f x ≤ total f xs :=
  List.single_le_sum (fun _ _ => Nat.zero_le _) _ (List.mem_map_of_mem member)

@[simp] theorem peak_nil : peak f [] = 0 := rfl

@[simp] theorem peak_cons (x : α) (xs : List α) : peak f (x :: xs) = max (f x) (peak f xs) := by
  simp only [peak, List.map_cons, List.foldr_cons]

@[simp] theorem peak_append (xs ys : List α) :
    peak f (xs ++ ys) = max (peak f xs) (peak f ys) := by
  induction xs with
  | nil => simp only [List.nil_append, peak_nil, Nat.zero_max]
  | cons x xs ih => simp only [List.cons_append, peak_cons, ih, Nat.max_assoc]

theorem peak_le_iff {xs : List α} {bound : Nat} : peak f xs ≤ bound ↔ ∀ x ∈ xs, f x ≤ bound := by
  induction xs with
  | nil => simp
  | cons x xs ih => simp only [peak_cons, Nat.max_le, ih, List.forall_mem_cons]

theorem le_peak_of_mem {xs : List α} {x : α} (member : x ∈ xs) : f x ≤ peak f xs :=
  peak_le_iff.mp (le_refl _) x member

theorem peak_subset {xs ys : List α} (fewer : xs ⊆ ys) : peak f xs ≤ peak f ys :=
  peak_le_iff.mpr fun _ member => le_peak_of_mem (fewer member)

theorem peak_perm {xs ys : List α} (permuted : xs.Perm ys) : peak f xs = peak f ys :=
  le_antisymm (peak_subset permuted.subset) (peak_subset permuted.symm.subset)

theorem peak_map (g : β → α) (xs : List β) : peak f (xs.map g) = peak (fun x => f (g x)) xs := by
  simp only [peak, List.map_map, Function.comp_def]

end Modelark.Library
