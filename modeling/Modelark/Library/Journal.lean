import Mathlib

/-!
# Journals of generations

A resource counts its writes in generations, which start again in every epoch. A generation begins only
after the one before it has been marked clean. The journal of what was begun and what was marked clean
then has no gaps.
-/

namespace Modelark.Library

structure Journal where
  epoch : Nat
  generation : Nat
  begun : List (Nat × Nat)
  clean : List (Nat × Nat)

namespace Journal

inductive Shift (journal : Journal) : Journal → Prop where
  | advance (ready : journal.generation = 0 ∨ (journal.epoch, journal.generation) ∈ journal.clean) :
      Shift journal
        { journal with
          generation := journal.generation + 1
          begun := journal.begun ++ [(journal.epoch, journal.generation + 1)] }
  /-- Marks the current generation clean. -/
  | settle : Shift journal
      { journal with clean := journal.clean ++ [(journal.epoch, journal.generation)] }
  | renew : Shift journal { journal with epoch := journal.epoch + 1, generation := 0 }

abbrev Shifts : Journal → Journal → Prop := Relation.ReflTransGen Shift

def position (journal : Journal) : Nat ×ₗ Nat := toLex (journal.epoch, journal.generation)

/-- The generations begun in the current epoch, in their order. -/
def current (journal : Journal) : List Nat :=
  (journal.begun.filter fun entry => entry.1 = journal.epoch).map Prod.snd

structure Sound (journal : Journal) : Prop where
  begun : journal.current = List.range' 1 journal.generation
  clean : ∀ generation, 1 ≤ generation → generation < journal.generation →
    (journal.epoch, generation) ∈ journal.clean
  past : ∀ entry ∈ journal.begun, entry.1 ≤ journal.epoch

variable {journal next : Journal}

theorem Shift.sound (shift : Shift journal next) (sound : Sound journal) : Sound next := by
  cases shift with
  | advance ready =>
      constructor
      · have same := sound.begun
        simp only [current] at same ⊢
        simp [same, List.range'_concat, Nat.add_comm]
      · intro generation first below
        rcases Nat.lt_succ_iff_lt_or_eq.mp below with earlier | rfl
        · exact sound.clean generation first earlier
        · exact ready.resolve_left (Nat.ne_of_gt first)
      · intro entry member
        rcases List.mem_append.mp member with old | new
        · exact sound.past entry old
        · rw [List.mem_singleton.mp new]
  | settle =>
      refine ⟨sound.begun, ?_, sound.past⟩
      intro generation first below
      exact List.mem_append_left _ (sound.clean generation first below)
  | renew =>
      constructor
      · -- nothing has been begun in an epoch still to come
        have none : journal.begun.filter (fun entry => entry.1 = journal.epoch + 1) = [] := by
          rw [List.filter_eq_nil_iff]
          intro entry member
          have old := sound.past entry member
          simp only [decide_eq_true_eq]
          omega
        simp [current, none]
      · intro generation _ below
        cases below
      · intro entry member
        exact Nat.le_succ_of_le (sound.past entry member)

theorem Shift.position_le (shift : Shift journal next) : journal.position ≤ next.position := by
  cases shift with
  | advance => simp [position, Prod.Lex.le_iff]
  | settle => exact le_refl _
  | renew => simp [position, Prod.Lex.le_iff]

theorem Shifts.sound (shifts : Shifts journal next) (sound : Sound journal) : Sound next := by
  induction shifts with
  | refl => exact sound
  | tail _ shift ih => exact shift.sound ih

theorem Shifts.position_le (shifts : Shifts journal next) : journal.position ≤ next.position := by
  induction shifts with
  | refl => exact le_refl _
  | tail _ shift ih => exact ih.trans shift.position_le

end Journal

end Modelark.Library
