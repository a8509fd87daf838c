import Mathlib

/-!
# Programs that can be interrupted

A program takes steps on a state, each of which decides from what it sees how to go on. It can be
interrupted between any two steps, and in the middle of a step that is not atomic. The rules say what
every state that is left satisfies, and what holds when the program has come to its end.
-/

namespace Modelark.Library

/-- A program on states `σ` that returns an `α` or raises an `ε`. -/
inductive Program (σ ε α : Type) where
  | done (result : Except ε α)
  /-- The states that an interruption in the middle of the step can leave, what the step does, and how
      the program goes on after what it saw. -/
  | step (torn : σ → σ → Prop) (move : σ → σ) (next : σ → Program σ ε α)

namespace Program

variable {σ ε α β : Type}

def bind (program : Program σ ε α) (next : α → Program σ ε β) : Program σ ε β :=
  match program with
  | .done (.ok value) => next value
  | .done (.error raised) => .done (.error raised)
  | .step torn move rest => .step torn move fun state => (rest state).bind next

instance : Monad (Program σ ε) where
  pure value := .done (.ok value)
  bind := bind

/-- A step that changes the state or raises, and can be torn. -/
def tearing (torn : σ → σ → Prop) (act : σ → Except ε (σ × α)) : Program σ ε α :=
  .step torn (fun state => ((act state).map Prod.fst).toOption.getD state)
    fun state => .done ((act state).map Prod.snd)

def atomic (act : σ → Except ε (σ × α)) : Program σ ε α :=
  tearing (fun _ _ => False) act

/-- A step that only looks. -/
def look (see : σ → Except ε α) : Program σ ε α :=
  atomic fun state => (see state).map fun value => (state, value)

/-- What needs no state. -/
def lift (result : Except ε α) : Program σ ε α := .done result

/-- The program for every item, in order, with the results that are kept. -/
def gather {ι : Type} (program : ι → Program σ ε (Option α)) : List ι → Program σ ε (List α)
  | [] => .done (.ok [])
  | item :: items =>
      (program item).bind fun first => (gather program items).bind fun rest =>
        .done (.ok (first.toList ++ rest))

/-- The program to its end. -/
def run : Program σ ε α → σ → σ × Except ε α
  | .done result, state => (state, result)
  | .step _ move next, state => (next state).run (move state)

/-- The state after so many steps. -/
def after : Nat → Program σ ε α → σ → σ
  | 0, _, state => state
  | _, .done _, state => state
  | count + 1, .step _ move next, state => after count (next state) (move state)

/-- The states that an interruption of the program, or its end, can leave. -/
inductive Leaves : Program σ ε α → σ → σ → Prop where
  | here {program state} : Leaves program state state
  | torn {torn move next state left} (during : torn state left) : Leaves (.step torn move next) state left
  | later {torn move next state left} (rest : Leaves (next state) (move state) left) :
      Leaves (.step torn move next) state left

/-- Every state that is left is as `crash` says, and the program ends as the others say. -/
def Meets (crash : σ → Prop) (raises : ε → σ → Prop) (ends : α → σ → Prop) :
    Program σ ε α → σ → Prop
  | .done (.ok value), state => crash state ∧ ends value state
  | .done (.error raised), state => crash state ∧ raises raised state
  | .step torn move next, state =>
      crash state ∧ (∀ left, torn state left → crash left) ∧
        Meets crash raises ends (next state) (move state)

theorem leaves_after (count : Nat) (program : Program σ ε α) (state : σ) :
    program.Leaves state (program.after count state) := by
  induction count generalizing program state with
  | zero => exact .here
  | succ count ih =>
      cases program with
      | done result => exact .here
      | step torn move next => exact .later (ih (next state) (move state))

theorem run_tearing {torn : σ → σ → Prop} {act : σ → Except ε (σ × α)} {state after : σ} {value : α}
    (acted : act state = .ok (after, value)) : (tearing torn act).run state = (after, .ok value) := by
  simp [tearing, run, acted, Except.map, Except.toOption]

theorem run_look {see : σ → Except ε α} {state : σ} {value : α} (saw : see state = .ok value) :
    (look see).run state = (state, .ok value) := by
  apply run_tearing
  simp [saw, Except.map]

theorem run_look_error {see : σ → Except ε α} {state : σ} {raised : ε} (saw : see state = .error raised) :
    (look see).run state = (state, .error raised) := by
  simp [look, atomic, tearing, run, saw, Except.map, Except.toOption]

theorem run_atomic_eq_ok {act : σ → Except ε (σ × α)} {state final : σ} {value : α}
    (ran : (atomic act).run state = (final, .ok value)) : act state = .ok (final, value) := by
  simp only [atomic, tearing, run] at ran
  cases acted : act state with
  | error error =>
      rw [acted] at ran
      cases ran
  | ok result =>
      rw [acted] at ran
      cases ran
      rfl

theorem run_look_eq_ok {see : σ → Except ε α} {state final : σ} {value : α}
    (ran : (look see).run state = (final, .ok value)) : see state = .ok value ∧ final = state := by
  have saw := run_atomic_eq_ok ran
  cases seen : see state with
  | error error =>
      rw [seen] at saw
      cases saw
  | ok result =>
      rw [seen] at saw
      cases saw
      exact ⟨rfl, rfl⟩

theorem run_lift_eq_ok {result : Except ε α} {state final : σ} {value : α}
    (ran : (lift result).run state = (final, .ok value)) : result = .ok value ∧ final = state := by
  cases ran
  exact ⟨rfl, rfl⟩

theorem Leaves.of_done {result : Except ε α} {state left : σ}
    (leaves : (done result : Program σ ε α).Leaves state left) : left = state := by
  cases leaves
  rfl

/-- An atomic step leaves what was before it, or what it does. -/
theorem Leaves.of_atomic {act : σ → Except ε (σ × α)} {state left : σ}
    (leaves : (atomic act).Leaves state left) :
    left = state ∨ ∃ value, act state = .ok (left, value) := by
  cases leaves with
  | here => exact .inl rfl
  | torn during => exact during.elim
  | later rest =>
      rw [rest.of_done]
      cases acted : act state with
      | error error => exact .inl (by simp [acted, Except.map, Except.toOption])
      | ok result => exact .inr ⟨result.2, by simp [acted, Except.map, Except.toOption]⟩

theorem Leaves.of_look {see : σ → Except ε α} {state left : σ} (leaves : (look see).Leaves state left) :
    left = state := by
  rcases leaves.of_atomic with same | ⟨value, saw⟩
  · exact same
  · cases seen : see state with
    | error error =>
        rw [seen] at saw
        cases saw
    | ok result =>
        rw [seen] at saw
        cases saw
        rfl

section Bind

variable {program : Program σ ε α} {next : α → Program σ ε β} {state middle left : σ} {value : α}

/-- What comes after a program that returns. -/
theorem run_bind (ran : program.run state = (middle, .ok value)) :
    (program.bind next).run state = (next value).run middle := by
  induction program generalizing state with
  | done result =>
      cases ran
      rfl
  | step torn move rest ih => exact ih _ ran

/-- A program that raises is not gone on with. -/
theorem run_bind_error {raised : ε} (ran : program.run state = (middle, .error raised)) :
    (program.bind next).run state = (middle, .error raised) := by
  induction program generalizing state with
  | done result =>
      cases ran
      rfl
  | step torn move rest ih => exact ih _ ran

/-- A program that returns has come through its first part. -/
theorem run_bind_eq_ok {final : σ} {result : β}
    (ran : (program.bind next).run state = (final, .ok result)) :
    ∃ middle value, program.run state = (middle, .ok value) ∧
      (next value).run middle = (final, .ok result) := by
  induction program generalizing state with
  | done outcome =>
      cases outcome with
      | error error => cases ran
      | ok value => exact ⟨state, value, rfl, ran⟩
  | step torn move rest ih => exact ih state ran

/-- What is left of two programs is left of the first, or of the second after the first returned. -/
theorem Leaves.of_bind (leaves : (program.bind next).Leaves state left) :
    program.Leaves state left ∨ ∃ middle value, program.run state = (middle, .ok value) ∧
      (next value).Leaves middle left := by
  induction program generalizing state with
  | done outcome =>
      cases outcome with
      | error error =>
          cases leaves
          exact .inl .here
      | ok value => exact .inr ⟨state, value, rfl, leaves⟩
  | step torn move rest ih =>
      cases leaves with
      | here => exact .inl .here
      | torn during => exact .inl (.torn during)
      | later onward =>
          rcases ih state onward with first | second
          · exact .inl (.later first)
          · exact .inr second

theorem Leaves.bind (leaves : program.Leaves state left) : (program.bind next).Leaves state left := by
  induction leaves with
  | here => exact .here
  | torn during => exact .torn during
  | later _ ih => exact .later ih

theorem Leaves.after_bind (ran : program.run state = (middle, .ok value))
    (rest : (next value).Leaves middle left) : (program.bind next).Leaves state left := by
  induction program generalizing state with
  | done result =>
      cases ran
      exact rest
  | step torn move onward ih => exact .later (ih _ ran)

end Bind

variable {crash : σ → Prop} {raises : ε → σ → Prop} {ends : α → σ → Prop}
variable {program : Program σ ε α} {state left : σ}

theorem Meets.here (meets : program.Meets crash raises ends state) : crash state := by
  match program with
  | .done (.ok _) => exact meets.1
  | .done (.error _) => exact meets.1
  | .step _ _ _ => exact meets.1

theorem Meets.leaves (meets : program.Meets crash raises ends state)
    (leaves : program.Leaves state left) : crash left := by
  induction leaves with
  | here => exact meets.here
  | torn during => exact meets.2.1 _ during
  | later _ ih => exact ih meets.2.2

theorem Meets.mono {crash' : σ → Prop} {raises' : ε → σ → Prop} {ends' : α → σ → Prop}
    (meets : program.Meets crash raises ends state) (crashes : ∀ state, crash state → crash' state)
    (raised : ∀ error state, raises error state → raises' error state)
    (ended : ∀ value state, ends value state → ends' value state) :
    program.Meets crash' raises' ends' state := by
  induction program generalizing state with
  | done result =>
      cases result with
      | ok value => exact ⟨crashes _ meets.1, ended _ _ meets.2⟩
      | error error => exact ⟨crashes _ meets.1, raised _ _ meets.2⟩
  | step torn move next ih =>
      exact ⟨crashes _ meets.1, fun left during => crashes _ (meets.2.1 left during), ih _ meets.2.2⟩

theorem Meets.bind {next : α → Program σ ε β} {ends' : β → σ → Prop}
    (meets : program.Meets crash raises (fun value => (next value).Meets crash raises ends') state) :
    (program.bind next).Meets crash raises ends' state := by
  induction program generalizing state with
  | done result =>
      cases result with
      | ok value => exact meets.2
      | error error => exact meets
  | step torn move rest ih => exact ⟨meets.1, meets.2.1, ih _ meets.2.2⟩

/-- One program after another. -/
theorem Meets.seq {middle : α → σ → Prop} {next : α → Program σ ε β} {ends' : β → σ → Prop}
    (first : program.Meets crash raises middle state)
    (rest : ∀ value after, middle value after → (next value).Meets crash raises ends' after) :
    (program.bind next).Meets crash raises ends' state :=
  (first.mono (fun _ kept => kept) (fun _ _ kept => kept) rest).bind

theorem meets_pure {value : α} (here : crash state) (ended : ends value state) :
    (pure value : Program σ ε α).Meets crash raises ends state :=
  ⟨here, ended⟩

theorem meets_lift {result : Except ε α} {value : α} (same : result = .ok value) (here : crash state) :
    (lift result : Program σ ε α).Meets crash raises (fun returned now => returned = value ∧ now = state)
      state := by
  subst same
  exact ⟨here, rfl, rfl⟩

/-- A program that never raises returns. -/
theorem Meets.returns (meets : program.Meets crash (fun _ _ => False) ends state) :
    ∃ value final, program.run state = (final, .ok value) ∧ crash final ∧ ends value final := by
  induction program generalizing state with
  | done result =>
      cases result with
      | ok value => exact ⟨value, state, rfl, meets.1, meets.2⟩
      | error error => exact meets.2.elim
  | step torn move next ih => exact ih _ meets.2.2

theorem meets_tearing {torn : σ → σ → Prop} {act : σ → Except ε (σ × α)} (here : crash state)
    (during : ∀ left, torn state left → crash left)
    (raised : ∀ error, act state = .error error → raises error state)
    (ended : ∀ after value, act state = .ok (after, value) → crash after ∧ ends value after) :
    (tearing torn act).Meets crash raises ends state := by
  refine ⟨here, during, ?_⟩
  dsimp only
  cases acted : act state with
  | error error => exact ⟨here, raised error acted⟩
  | ok result => exact ended result.1 result.2 acted

theorem meets_atomic {act : σ → Except ε (σ × α)} (here : crash state)
    (raised : ∀ error, act state = .error error → raises error state)
    (ended : ∀ after value, act state = .ok (after, value) → crash after ∧ ends value after) :
    (atomic act).Meets crash raises ends state :=
  meets_tearing here (fun _ => False.elim) raised ended

theorem meets_look {see : σ → Except ε α} (here : crash state)
    (raised : ∀ error, see state = .error error → raises error state)
    (ended : ∀ value, see state = .ok value → ends value state) :
    (look see).Meets crash raises ends state := by
  apply meets_atomic here
  · intro error seen
    apply raised
    cases saw : see state with
    | error other =>
        rw [saw] at seen
        exact congrArg Except.error (Except.error.inj seen)
    | ok value =>
        rw [saw] at seen
        cases seen
  · intro after value seen
    cases saw : see state with
    | error other =>
        rw [saw] at seen
        cases seen
    | ok value' =>
        rw [saw] at seen
        cases seen
        exact ⟨here, ended _ saw⟩

theorem meets_look_of_ok {see : σ → Except ε α} {value : α} (saw : see state = .ok value)
    (here : crash state) (ended : ends value state) : (look see).Meets crash raises ends state := by
  apply meets_look here
  · intro error failed
    rw [saw] at failed
    cases failed
  · intro returned same
    rw [saw] at same
    cases same
    exact ended

section Onwards

variable {next : α → Program σ ε β} {ends' : β → σ → Prop} {value : α} {middle : σ}

/-- After a program whose result is known. -/
theorem Meets.onward
    (first : program.Meets crash raises (fun returned now => returned = value ∧ now = middle) state)
    (rest : (next value).Meets crash raises ends' middle) :
    (program.bind next).Meets crash raises ends' state := by
  apply first.seq
  intro returned now same
  rw [same.1, same.2]
  exact rest

theorem meets_look_bind {see : σ → Except ε α} (saw : see state = .ok value) (here : crash state)
    (rest : (next value).Meets crash raises ends' state) :
    ((look see).bind next).Meets crash raises ends' state :=
  (meets_look_of_ok saw here ⟨rfl, rfl⟩).onward rest

theorem meets_atomic_bind {act : σ → Except ε (σ × α)} (acted : act state = .ok (middle, value))
    (here : crash state) (rest : (next value).Meets crash raises ends' middle) :
    ((atomic act).bind next).Meets crash raises ends' state := by
  apply Meets.onward _ rest
  apply meets_atomic here
  · intro error failed
    rw [acted] at failed
    cases failed
  · intro after returned same
    rw [acted] at same
    cases same
    exact ⟨rest.here, rfl, rfl⟩

theorem meets_lift_bind {result : Except ε α} (same : result = .ok value)
    (rest : (next value).Meets crash raises ends' state) :
    ((lift result).bind next).Meets crash raises ends' state := by
  subst same
  exact rest

end Onwards

/-- An invariant of the items that are still to come carries a program through all of them. -/
theorem meets_gather {ι : Type} {each : ι → Program σ ε (Option α)} (inv : List ι → σ → Prop)
    (crashes : ∀ items state, inv items state → crash state)
    (progress : ∀ item items state, inv (item :: items) state →
      (each item).Meets crash raises (fun _ => inv items) state)
    (items : List ι) (holds : inv items state) :
    (gather each items).Meets crash raises (fun _ => inv []) state := by
  induction items generalizing state with
  | nil => exact ⟨crashes [] state holds, holds⟩
  | cons item items ih =>
      apply Meets.bind
      apply (progress item items state holds).mono (fun _ kept => kept) (fun _ _ kept => kept)
      intro first state holds
      apply Meets.bind
      exact (ih holds).mono (fun _ kept => kept) (fun _ _ kept => kept)
        fun _ _ holds => ⟨crashes [] _ holds, holds⟩

/-- No step, and no interruption of one, leaves the relation. -/
def Steady (R : σ → σ → Prop) : Program σ ε α → Prop
  | .done _ => True
  | .step torn move next =>
      (∀ state left, torn state left → R state left) ∧ (∀ state, R state (move state)) ∧
        ∀ state, (next state).Steady R

variable {R : σ → σ → Prop}

theorem Steady.bind {program : Program σ ε α} {next : α → Program σ ε β} (first : program.Steady R)
    (rest : ∀ value, (next value).Steady R) : (program.bind next).Steady R := by
  induction program with
  | done result =>
      cases result with
      | ok value => exact rest value
      | error error => trivial
  | step torn move onward ih => exact ⟨first.1, first.2.1, fun state => ih state (first.2.2 state)⟩

theorem steady_lift (result : Except ε α) : (lift result : Program σ ε α).Steady R := trivial

theorem steady_tearing {torn : σ → σ → Prop} {act : σ → Except ε (σ × α)} (still : ∀ state, R state state)
    (during : ∀ state left, torn state left → R state left)
    (acts : ∀ state after value, act state = .ok (after, value) → R state after) :
    (tearing torn act).Steady R := by
  refine ⟨during, fun state => ?_, fun _ => trivial⟩
  dsimp only
  cases acted : act state with
  | error error => exact still state
  | ok result => exact acts state result.1 result.2 acted

theorem steady_atomic {act : σ → Except ε (σ × α)} (still : ∀ state, R state state)
    (acts : ∀ state after value, act state = .ok (after, value) → R state after) :
    (atomic act).Steady R :=
  steady_tearing still (fun _ _ => False.elim) acts

theorem steady_look {see : σ → Except ε α} (still : ∀ state, R state state) : (look see).Steady R := by
  apply steady_atomic still
  intro state after value saw
  cases seen : see state with
  | error error =>
      rw [seen] at saw
      cases saw
  | ok value' =>
      rw [seen] at saw
      cases saw
      exact still state

theorem steady_gather {ι : Type} {each : ι → Program σ ε (Option α)} (one : ∀ item, (each item).Steady R)
    (items : List ι) : (gather each items).Steady R := by
  induction items with
  | nil => trivial
  | cons item items ih => exact (one item).bind fun _ => ih.bind fun _ => trivial

/-- A state, and the program that is being run on it, if any. -/
structure Moment (σ ε α : Type) where
  program : Option (Program σ ε α)
  state : σ

/-- A program is begun, goes on by one step, or comes to an end or an interruption. -/
inductive Next (begins : σ → Program σ ε α → Prop) : Moment σ ε α → Moment σ ε α → Prop where
  | call (state : σ) (program : Program σ ε α) (chosen : begins state program) :
      Next begins ⟨none, state⟩ ⟨some program, state⟩
  | move (torn : σ → σ → Prop) (move : σ → σ) (next : σ → Program σ ε α) (state : σ) :
      Next begins ⟨some (.step torn move next), state⟩ ⟨some (next state), move state⟩
  | torn (torn : σ → σ → Prop) (move : σ → σ) (next : σ → Program σ ε α) (state left : σ)
      (during : torn state left) :
      Next begins ⟨some (.step torn move next), state⟩ ⟨none, left⟩
  | stop (program : Program σ ε α) (state : σ) : Next begins ⟨some program, state⟩ ⟨none, state⟩

/-- The moments of runs of such programs. -/
abbrev Onward (begins : σ → Program σ ε α → Prop) : Moment σ ε α → Moment σ ε α → Prop :=
  Relation.ReflTransGen (Next begins)

variable {begins : σ → Program σ ε α → Prop} {now later : Moment σ ε α}

/-- What every program that is begun keeps at each of its states holds at every moment. -/
theorem Onward.holds {inv : σ → Prop}
    (each : ∀ state program, inv state → begins state program →
      program.Meets inv (fun _ _ => True) (fun _ _ => True) state)
    (onward : Onward begins now later)
    (first : inv now.state ∧ ∀ program, now.program = some program →
      program.Meets inv (fun _ _ => True) (fun _ _ => True) now.state) :
    inv later.state ∧ ∀ program, later.program = some program →
      program.Meets inv (fun _ _ => True) (fun _ _ => True) later.state := by
  induction onward with
  | refl => exact first
  | tail _ next ih =>
      cases next with
      | call _ _ chosen =>
          refine ⟨ih.1, ?_⟩
          rintro _ ⟨⟩
          exact each _ _ ih.1 chosen
      | move =>
          have rest := (ih.2 _ rfl).2.2
          refine ⟨rest.here, ?_⟩
          rintro _ ⟨⟩
          exact rest
      | torn _ _ _ _ _ during => exact ⟨(ih.2 _ rfl).2.1 _ during, fun _ impossible => nomatch impossible⟩
      | stop => exact ⟨ih.1, fun _ impossible => nomatch impossible⟩

/-- What no step takes back is not taken back from one moment to another. -/
theorem Onward.steady (still : ∀ state, R state state)
    (chain : ∀ first second third, R first second → R second third → R first third)
    (each : ∀ state program, begins state program → program.Steady R)
    (onward : Onward begins now later) (first : ∀ program, now.program = some program → program.Steady R) :
    R now.state later.state ∧ ∀ program, later.program = some program → program.Steady R := by
  induction onward with
  | refl => exact ⟨still _, first⟩
  | tail _ next ih =>
      cases next with
      | call _ _ chosen =>
          refine ⟨ih.1, ?_⟩
          rintro _ ⟨⟩
          exact each _ _ chosen
      | move =>
          have step := ih.2 _ rfl
          refine ⟨chain _ _ _ ih.1 (step.2.1 _), ?_⟩
          rintro _ ⟨⟩
          exact step.2.2 _
      | torn _ _ _ _ _ during =>
          exact ⟨chain _ _ _ ih.1 ((ih.2 _ rfl).1 _ _ during), fun _ impossible => nomatch impossible⟩
      | stop => exact ⟨ih.1, fun _ impossible => nomatch impossible⟩

/-- A program that is begun can be left at each of its states. -/
theorem onward_leaves {state left : σ} {program : Program σ ε α} (chosen : begins state program)
    (leaves : program.Leaves state left) : Onward begins ⟨none, state⟩ ⟨none, left⟩ := by
  apply Relation.ReflTransGen.head (.call state program chosen)
  clear chosen
  induction leaves with
  | here => exact .single (.stop _ _)
  | torn during => exact .single (.torn _ _ _ _ _ during)
  | later _ ih => exact .head (.move _ _ _ _) ih

end Program

end Modelark.Library
