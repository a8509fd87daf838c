import Mathlib

/-!
# Following parents

A walk that goes from a node to its parent, and on, until a node ends it. A node met a second time is
refused, so the walk ends on every graph with finitely many inner nodes, also on a cycle. Where it finds a
node, that is the only one above its start that ends a walk.
-/

namespace Modelark.Library

variable {ε κ : Type*}

/-- What a walk does at a node. -/
inductive Turn (ε κ : Type*) where
  | found
  | refuse (refused : ε)
  | up (parent : κ)

/-- One node is the next above another. -/
def Turn.Ascends (turn : κ → Turn ε κ) (key parent : κ) : Prop :=
  turn key = .up parent

section Walks

variable [DecidableEq κ] (turn : κ → Turn ε κ) (again : ε)

/-- The walk from a node, with the nodes already seen; `none` when the fuel runs out. -/
def climb : Nat → List κ → κ → Option (Except ε κ)
  | 0, _, _ => none
  | fuel + 1, seen, key =>
      if key ∈ seen then some (.error again)
      else
        match turn key with
        | .found => some (.ok key)
        | .refuse refused => some (.error refused)
        | .up parent => climb fuel (key :: seen) parent

variable {turn again}

theorem climb_succ {fuel : Nat} {seen : List κ} {key : κ} {result : Except ε κ}
    (ends : climb turn again fuel seen key = some result) :
    climb turn again (fuel + 1) seen key = some result := by
  induction fuel generalizing seen key with
  | zero => cases ends
  | succ fuel ih =>
      rw [climb] at ends ⊢
      by_cases met : key ∈ seen
      · rw [if_pos met] at ends ⊢
        exact ends
      · rw [if_neg met] at ends ⊢
        cases decided : turn key with
        | found => simpa only [decided] using ends
        | refuse refused => simpa only [decided] using ends
        | up parent =>
            simp only [decided] at ends ⊢
            exact ih ends

theorem climb_mono {fuel more : Nat} {seen : List κ} {key : κ} {result : Except ε κ}
    (ends : climb turn again fuel seen key = some result) (enough : fuel ≤ more) :
    climb turn again more seen key = some result := by
  induction enough with
  | refl => exact ends
  | step _ ih => exact climb_succ ih

/-- A walk ends within its fuel when fewer inner nodes are unseen. -/
theorem climb_isSome {inner : List κ} (within : ∀ key parent, turn key = .up parent → key ∈ inner)
    {fuel : Nat} {seen : List κ} {key : κ} (room : (inner.filter (· ∉ seen)).length < fuel) :
    (climb turn again fuel seen key).isSome = true := by
  induction fuel generalizing seen key with
  | zero => omega
  | succ fuel ih =>
      rw [climb]
      by_cases met : key ∈ seen
      · simp [met]
      · rw [if_neg met]
        cases decided : turn key with
        | found => rfl
        | refuse refused => rfl
        | up parent =>
            have listed : key ∈ inner.filter (· ∉ seen) := by
              simp [met, within key parent decided]
            have fewer : inner.filter (· ∉ key :: seen) =
                (inner.filter (· ∉ seen)).filter (· ≠ key) := by
              simp [List.filter_filter]
            have shorter : (inner.filter (· ∉ key :: seen)).length <
                (inner.filter (· ∉ seen)).length := by
              rw [fewer]
              exact List.length_filter_lt_length_iff_exists.mpr ⟨key, listed, by simp⟩
            exact ih (by omega)

/-- The walk ends, with the same result for all fuel beyond the number of inner nodes. -/
theorem climb_ends {inner : List κ} (within : ∀ key parent, turn key = .up parent → key ∈ inner)
    (key : κ) : ∃ result, ∀ fuel, inner.length < fuel → climb turn again fuel [] key = some result := by
  have within_one : (climb turn again (inner.length + 1) [] key).isSome = true :=
    climb_isSome within (by simp)
  obtain ⟨result, ends⟩ := Option.isSome_iff_exists.mp within_one
  exact ⟨result, fun fuel enough => climb_mono ends enough⟩

/-- What a walk finds lies above its start. -/
theorem climb_found {fuel : Nat} {seen : List κ} {key top : κ}
    (found : climb turn again fuel seen key = some (.ok top)) :
    Relation.ReflTransGen (Turn.Ascends turn) key top ∧ turn top = .found := by
  induction fuel generalizing seen key with
  | zero => cases found
  | succ fuel ih =>
      rw [climb] at found
      by_cases met : key ∈ seen
      · simp [met] at found
      · rw [if_neg met] at found
        cases decided : turn key with
        | found =>
            simp only [decided, Option.some.injEq, Except.ok.injEq] at found
            subst found
            exact ⟨.refl, decided⟩
        | refuse refused => simp [decided] at found
        | up parent =>
            simp only [decided] at found
            obtain ⟨above, top⟩ := ih found
            exact ⟨.head decided above, top⟩

end Walks

/-- Above a node there is at most one that has nothing above it. -/
theorem top_unique {Above : κ → κ → Prop} (single : Relator.RightUnique Above) {key top other : κ}
    (first : Relation.ReflTransGen Above key top) (second : Relation.ReflTransGen Above key other)
    (noneAbove : ∀ parent, ¬Above top parent) (noneAboveOther : ∀ parent, ¬Above other parent) :
    top = other := by
  rcases Relation.ReflTransGen.total_of_right_unique single first second with up | down
  · rcases Relation.ReflTransGen.cases_head up with same | ⟨parent, step, _⟩
    · exact same
    · exact absurd step (noneAbove parent)
  · rcases Relation.ReflTransGen.cases_head down with same | ⟨parent, step, _⟩
    · exact same.symm
    · exact absurd step (noneAboveOther parent)

end Modelark.Library
