import Mathlib

/-!
# Runs

The state after a sequence of atomic actions, and the rules of reasoning about runs whose every
action is taken in a state that allows it.
-/

namespace Modelark.Library

variable {σ α : Type*} (step : σ → α → σ)

/-- The state after a sequence of actions. -/
def run (start : σ) (actions : List α) : σ :=
  actions.foldl step start

@[simp] theorem run_nil (start : σ) : run step start [] = start := rfl

@[simp] theorem run_cons (start : σ) (action : α) (actions : List α) :
    run step start (action :: actions) = run step (step start action) actions := rfl

theorem run_append (start : σ) (before later : List α) :
    run step start (before ++ later) = run step (run step start before) later :=
  List.foldl_append

theorem run_snoc (start : σ) (actions : List α) (action : α) :
    run step start (actions ++ [action]) = step (run step start actions) action := by
  simp [run_append]

/-- Every action is taken in a state that allows it. -/
def Permitted (allowed : σ → α → Prop) (start : σ) (actions : List α) : Prop :=
  ∀ before action later, actions = before ++ action :: later →
    allowed (run step start before) action

variable {step} {allowed : σ → α → Prop} {start : σ}

theorem Permitted.nil : Permitted step allowed start [] := by
  intro before action later split
  simp at split

theorem permitted_cons {action : α} {actions : List α} :
    Permitted step allowed start (action :: actions) ↔
      allowed start action ∧ Permitted step allowed (step start action) actions := by
  constructor
  · intro permitted
    refine ⟨permitted [] action actions rfl, fun before other later split => ?_⟩
    exact permitted (action :: before) other later (by rw [split]; rfl)
  · rintro ⟨first, rest⟩ (_ | ⟨other, before⟩) chosen later split
    · obtain ⟨rfl, rfl⟩ := List.cons.inj split
      exact first
    · simp only [List.cons_append, List.cons.injEq] at split
      obtain ⟨rfl, split⟩ := split
      exact rest before chosen later split

theorem permitted_append {before later : List α} :
    Permitted step allowed start (before ++ later) ↔
      Permitted step allowed start before ∧ Permitted step allowed (run step start before) later := by
  induction before generalizing start with
  | nil => simp [Permitted.nil]
  | cons action before ih => simp [permitted_cons, ih, and_assoc]

/-- Whether the actions of a run are allowed can be computed along it. -/
instance permittedDecidable [∀ state action, Decidable (allowed state action)] (start : σ) :
    (actions : List α) → Decidable (Permitted step allowed start actions)
  | [] => .isTrue Permitted.nil
  | action :: actions =>
      have := permittedDecidable (step start action) actions
      decidable_of_iff (allowed start action ∧ Permitted step allowed (step start action) actions)
        permitted_cons.symm

/-- What every allowed action preserves holds after every run of allowed actions. -/
theorem run_invariant {inv : σ → Prop}
    (preserved : ∀ state action, allowed state action → inv state → inv (step state action))
    {actions : List α} (permitted : Permitted step allowed start actions) (holds : inv start) :
    inv (run step start actions) := by
  induction actions generalizing start with
  | nil => exact holds
  | cons action actions ih =>
      obtain ⟨first, rest⟩ := permitted_cons.mp permitted
      exact ih rest (preserved start action first holds)

/-- What every action preserves holds after every run. -/
theorem run_invariant_always (inv : σ → Prop)
    (preserved : ∀ state action, inv state → inv (step state action)) (actions : List α)
    (holds : inv start) : inv (run step start actions) := by
  have permitted : Permitted step (fun _ _ => True) start actions := fun _ _ _ _ => trivial
  exact run_invariant (fun state action _ => preserved state action) permitted holds

/-- What holds after a run and not before it has come about in one of its steps. -/
theorem run_origin (step : σ → α → σ) {p : σ → Prop} {actions : List α} (starts : ¬p start)
    (holds : p (run step start actions)) :
    ∃ before action later, actions = before ++ action :: later ∧
      ¬p (run step start before) ∧ p (step (run step start before) action) := by
  induction actions generalizing start with
  | nil => exact absurd holds starts
  | cons action actions ih =>
      by_cases first : p (step start action)
      · exact ⟨[], action, actions, rfl, starts, first⟩
      · obtain ⟨before, other, later, split, notYet, now⟩ := ih first holds
        exact ⟨action :: before, other, later, by rw [split]; rfl, notYet, now⟩

/-- What holds after a run and not before it has held ever since one of its steps. -/
theorem run_since (step : σ → α → σ) {p : σ → Prop} {actions : List α} (starts : ¬p start)
    (holds : p (run step start actions)) :
    ∃ before action later, actions = before ++ action :: later ∧ ¬p (run step start before) ∧
      ∀ middle rest, later = middle ++ rest → p (run step start (before ++ action :: middle)) := by
  induction actions using List.reverseRecOn with
  | nil => exact absurd holds starts
  | append_singleton actions last ih =>
      by_cases already : p (run step start actions)
      · obtain ⟨before, action, later, rfl, notYet, since⟩ := ih already
        refine ⟨before, action, later ++ [last], by simp, notYet, fun middle rest split => ?_⟩
        cases rest using List.reverseRecOn with
        | nil =>
            obtain rfl : later ++ [last] = middle := by simpa using split
            simpa using holds
        | append_singleton rest other =>
            rw [← List.append_assoc] at split
            exact since middle rest (List.append_inj_left' split rfl)
      · refine ⟨actions, last, [], rfl, already, fun middle rest split => ?_⟩
        obtain ⟨rfl, _⟩ := List.append_eq_nil_iff.mp split.symm
        exact holds

end Modelark.Library
