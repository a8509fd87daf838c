import Modelark.Library.Fallible
import Modelark.Library.Runs

/-!
# Write transactions

One writer at a time. A transaction reads the committed state and decides on its statements; it runs
them one after another on a copy of its own, and commits the copy or drops it. It can fail between any
two of its statements.
-/

namespace Modelark.Library

variable {σ ι : Type*} {ε : Type}

/-- What an operation decides to write, from the state its transaction starts in. -/
abbrev Transaction (σ : Type*) (ε : Type) := σ → Except ε (List (σ → Except ε σ))

structure Database (σ ι : Type*) (ε : Type) where
  committed : σ
  /-- The operation that holds the write lock, its copy, and the statements it has still to run. -/
  writer : Option (ι × σ × List (σ → Except ε σ))

inductive WriterStep (ι : Type*) where
  | immediate (op : ι)
  | statement
  | commit
  /-- The transaction is rolled back. -/
  | fail

def statements (start : σ) (rest : List (σ → Except ε σ)) : Except ε σ :=
  thread (fun state statement => statement state) start rest

/-- The operation, started in one state, commits another. -/
def Effect (transaction : ι → Transaction σ ε) (op : ι) (before after : σ) : Prop :=
  ∃ decided, transaction op before = .ok decided ∧ statements before decided = .ok after

namespace Database

/-- Nothing committed yet but the initial state. -/
def initial (start : σ) : Database σ ι ε := ⟨start, none⟩

/-- The write lock is taken unless another transaction holds it or the operation refuses. -/
def acquire (transaction : ι → Transaction σ ε) (db : Database σ ι ε) (op : ι) : Database σ ι ε :=
  match db.writer, transaction op db.committed with
  | none, .ok decided => { db with writer := some (op, db.committed, decided) }
  | _, _ => db

def runStatement (db : Database σ ι ε) : Database σ ι ε :=
  match db.writer with
  | some (op, copy, statement :: rest) =>
      match statement copy with
      | .ok next => { db with writer := some (op, next, rest) }
      | .error _ => { db with writer := none }
  | _ => db

def commit (db : Database σ ι ε) : Database σ ι ε :=
  match db.writer with
  | some (_, copy, []) => ⟨copy, none⟩
  | _ => db

def rollback (db : Database σ ι ε) : Database σ ι ε :=
  { db with writer := none }

def step (transaction : ι → Transaction σ ε) (db : Database σ ι ε) :
    WriterStep ι → Database σ ι ε
  | .immediate op => db.acquire transaction op
  | .statement => db.runStatement
  | .commit => db.commit
  | .fail => db.rollback

/-- The rest of the statements would complete the effect of the operation. -/
def Underway (transaction : ι → Transaction σ ε) (db : Database σ ι ε) : Prop :=
  ∀ op copy rest, db.writer = some (op, copy, rest) →
    ∀ final, statements copy rest = .ok final → Effect transaction op db.committed final

variable {transaction : ι → Transaction σ ε} {db : Database σ ι ε}

theorem underway_initial (start : σ) : Underway transaction (initial start) := by
  intro op copy rest writing
  cases writing

theorem acquire_cases (transaction : ι → Transaction σ ε) (db : Database σ ι ε) (op : ι) :
    db.acquire transaction op = db ∨ ∃ decided, transaction op db.committed = .ok decided ∧
      db.acquire transaction op = { db with writer := some (op, db.committed, decided) } := by
  unfold acquire
  cases db.writer with
  | some writer => exact .inl rfl
  | none =>
      cases accepted : transaction op db.committed with
      | error refused => exact .inl rfl
      | ok decided => exact .inr ⟨decided, rfl, rfl⟩

theorem runStatement_cases (db : Database σ ι ε) :
    db.runStatement = db ∨ db.runStatement = db.rollback ∨
      ∃ op copy statement rest next, db.writer = some (op, copy, statement :: rest) ∧
        statement copy = .ok next ∧ db.runStatement = { db with writer := some (op, next, rest) } := by
  unfold runStatement
  split
  · rename_i op copy statement rest holding
    cases ran : statement copy with
    | error refused => exact .inr (.inl rfl)
    | ok next => exact .inr (.inr ⟨op, copy, statement, rest, next, holding, ran, rfl⟩)
  · exact .inl rfl

theorem commit_cases (db : Database σ ι ε) :
    db.commit = db ∨ ∃ op copy, db.writer = some (op, copy, []) ∧ db.commit = ⟨copy, none⟩ := by
  unfold commit
  split
  · rename_i op copy holding
    exact .inr ⟨op, copy, holding, rfl⟩
  · exact .inl rfl

theorem underway_step (underway : Underway transaction db) (action : WriterStep ι) :
    Underway transaction (db.step transaction action) := by
  cases action with
  | immediate op =>
      obtain same | ⟨decided, accepted, same⟩ := acquire_cases transaction db op <;>
        rw [step, same]
      · exact underway
      · intro op' copy rest writing final completed
        cases writing
        exact ⟨decided, accepted, completed⟩
  | statement =>
      obtain same | same | ⟨op, copy, statement, rest, next, holding, ran, same⟩ :=
        runStatement_cases db <;> rw [step, same]
      · exact underway
      · intro op copy rest writing
        cases writing
      · intro op' copy' rest' writing final completed
        cases writing
        apply underway op copy (statement :: rest) holding
        simpa [statements, ran] using completed
  | commit =>
      obtain same | ⟨op, copy, _, same⟩ := commit_cases db <;> rw [step, same]
      · exact underway
      · intro op copy rest writing
        cases writing
  | fail =>
      intro op copy rest writing
      cases writing

/-- A step leaves the committed state alone, or it is the commit of an operation's effect. -/
theorem committed_step (underway : Underway transaction db) (action : WriterStep ι) :
    (db.step transaction action).committed = db.committed ∨
      ∃ op, Effect transaction op db.committed (db.step transaction action).committed := by
  cases action with
  | immediate op =>
      left
      obtain same | ⟨decided, _, same⟩ := acquire_cases transaction db op <;> rw [step, same]
  | statement =>
      left
      obtain same | same | ⟨_, _, _, _, _, _, _, same⟩ := runStatement_cases db <;> rw [step, same]
      rfl
  | commit =>
      obtain same | ⟨op, copy, holding, same⟩ := commit_cases db <;> rw [step, same]
      · exact .inl rfl
      · exact .inr ⟨op, underway op copy [] holding copy rfl⟩
  | fail => exact .inl rfl

variable {start : σ} {actions : List (WriterStep ι)}

theorem underway_run (start : σ) (actions : List (WriterStep ι)) :
    Underway transaction (run (step transaction) (initial start) actions) :=
  run_invariant_always (Underway transaction) (fun _ action underway => underway_step underway action)
    actions (underway_initial start)

/-- One step of a run, on the committed state. -/
theorem committed_snoc (start : σ) (actions : List (WriterStep ι)) (action : WriterStep ι) :
    (run (step transaction) (initial start) (actions ++ [action])).committed =
        (run (step transaction) (initial start) actions).committed ∨
      ∃ op, Effect transaction op (run (step transaction) (initial start) actions).committed
        (run (step transaction) (initial start) (actions ++ [action])).committed := by
  rw [run_snoc]
  exact committed_step (underway_run start actions) action

/-- What the effect of every operation preserves holds of everything that is ever committed. -/
theorem committed_invariant {inv : σ → Prop}
    (preserved : ∀ op before after, Effect transaction op before after → inv before → inv after)
    (actions : List (WriterStep ι)) (holds : inv start) :
    inv (run (step transaction) (initial start) actions).committed := by
  induction actions using List.reverseRecOn with
  | nil => exact holds
  | append_singleton actions action ih =>
      obtain same | ⟨op, effect⟩ := @committed_snoc _ _ _ transaction start actions action
      · rwa [same]
      · exact preserved op _ _ effect ih

end Database

end Modelark.Library
