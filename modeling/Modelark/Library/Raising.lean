import Mathlib

/-!
# Computations that may raise

A computation changes a state and returns or raises; what it has changed before it raises stays
changed, unless it is handled.
-/

namespace Modelark.Library

universe u v

/-- A computation on a state that returns an `α` or raises an `ε`. -/
def Raising (σ : Type u) (ε : Type v) (α : Type u) := σ → σ × Except ε α

namespace Raising

variable {σ : Type u} {ε : Type v} {α β : Type u}

def run (body : Raising σ ε α) (state : σ) : σ × Except ε α := body state

def bind (body : Raising σ ε α) (next : α → Raising σ ε β) : Raising σ ε β := fun state =>
  match body state with
  | (after, .ok value) => next value after
  | (after, .error raised) => (after, .error raised)

instance : Monad (Raising σ ε) where
  pure value := fun state => (state, .ok value)
  bind := bind

/-- What only looks at the state. -/
def look (see : σ → Except ε α) : Raising σ ε α := fun state => (state, see state)

/-- What changes the state or raises without a change. -/
def attempt (act : σ → Except ε σ) : Raising σ ε PUnit := fun state =>
  match act state with
  | .ok after => (after, .ok ⟨⟩)
  | .error raised => (state, .error raised)

/-- `try: … except: handler; raise`. -/
def handle (body : Raising σ ε α) (handler : σ → σ) : Raising σ ε α := fun state =>
  match body state with
  | (after, .ok value) => (after, .ok value)
  | (after, .error raised) => (handler after, .error raised)

/-- `try: … finally: cleanup`. -/
def ensure (body : Raising σ ε α) (cleanup : σ → σ) : Raising σ ε α := fun state =>
  ((cleanup (body state).1), (body state).2)

@[simp] theorem run_pure (value : α) (state : σ) : (pure value : Raising σ ε α).run state = (state, .ok value) :=
  rfl

theorem run_bind (body : Raising σ ε α) (next : α → Raising σ ε β) (state : σ) :
    (body >>= next).run state =
      match body.run state with
      | (after, .ok value) => (next value).run after
      | (after, .error raised) => (after, .error raised) := rfl

variable {body : Raising σ ε α} {next : α → Raising σ ε β} {state after : σ}

theorem run_bind_error {raised : ε} (ran : body.run state = (after, .error raised)) :
    (body >>= next).run state = (after, .error raised) := by
  rw [run_bind, ran]

/-- A sequence that returns has returned from both parts. -/
theorem bind_eq_ok {value : β} (ran : (body >>= next).run state = (after, .ok value)) :
    ∃ first middle, body.run state = (middle, .ok first) ∧ (next first).run middle = (after, .ok value) := by
  rw [run_bind] at ran
  rcases shape : body.run state with ⟨middle, first | first⟩
  · rw [shape] at ran
    cases ran
  · rw [shape] at ran
    exact ⟨first, middle, rfl, ran⟩

@[simp] theorem run_look (see : σ → Except ε α) (state : σ) : (look see).run state = (state, see state) := rfl

theorem look_eq_ok {see : σ → Except ε α} {value : α} (ran : (look see).run state = (after, .ok value)) :
    state = after ∧ see state = .ok value :=
  Prod.mk.inj ran

theorem attempt_eq_ok {act : σ → Except ε σ} {value : PUnit}
    (ran : (attempt act).run state = (after, .ok value)) : act state = .ok after := by
  simp only [attempt, run] at ran
  cases acted : act state with
  | error raised =>
      rw [acted] at ran
      cases ran
  | ok changed =>
      rw [acted] at ran
      cases ran
      rfl

/-- What every state that a body leaves is. -/
def Leaves (kept : σ → Prop) (body : Raising σ ε α) : Prop :=
  ∀ state, kept state → kept (body.run state).1

theorem Leaves.bind {kept : σ → Prop} (first : Leaves kept body) (rest : ∀ value, Leaves kept (next value)) :
    Leaves kept (body >>= next) := by
  intro state holds
  have after := first state holds
  rw [run_bind]
  rcases shape : body.run state with ⟨middle, raised | value⟩
  · rw [shape] at after
    exact after
  · rw [shape] at after
    exact rest value middle after

theorem Leaves.pure {kept : σ → Prop} (value : α) : Leaves kept (Pure.pure value : Raising σ ε α) :=
  fun _ holds => holds

theorem Leaves.look {kept : σ → Prop} (see : σ → Except ε α) : Leaves kept (Raising.look see) :=
  fun _ holds => holds

theorem Leaves.attempt {kept : σ → Prop} {act : σ → Except ε σ}
    (keeps : ∀ state after, kept state → act state = .ok after → kept after) :
    Leaves kept (Raising.attempt act) := by
  intro state holds
  simp only [Raising.attempt, run]
  cases acted : act state with
  | error raised => exact holds
  | ok after => exact keeps state after holds acted

/-- What the state is when a body raises. -/
def Fails (kept : σ → Prop) (body : Raising σ ε α) : Prop :=
  ∀ state after raised, kept state → body.run state = (after, .error raised) → kept after

theorem Leaves.fails {kept : σ → Prop} (leaves : Leaves kept body) : Fails kept body := by
  intro state after raised holds ran
  have left := leaves state holds
  rwa [ran] at left

theorem Fails.bind {kept : σ → Prop} (first : Leaves kept body) (rest : ∀ value, Fails kept (next value)) :
    Fails kept (body >>= next) := by
  intro state after raised holds ran
  have left := first state holds
  rw [run_bind] at ran
  rcases shape : body.run state with ⟨middle, other | value⟩
  · rw [shape] at ran left
    cases ran
    exact left
  · rw [shape] at ran left
    exact rest value middle after raised left ran

/-- A last step that raises has changed nothing. -/
theorem Fails.last {kept : σ → Prop} {act : σ → Except ε σ} {value : α} :
    Fails kept (Raising.attempt act >>= fun _ => Pure.pure value) := by
  intro state after raised holds ran
  rw [run_bind] at ran
  simp only [Raising.attempt, run] at ran
  cases acted : act state with
  | error other =>
      rw [acted] at ran
      cases ran
      exact holds
  | ok changed =>
      rw [acted] at ran
      cases ran

end Raising

end Modelark.Library
