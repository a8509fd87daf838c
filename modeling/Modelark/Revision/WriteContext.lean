import Modelark.Library.Raising
import Modelark.Revision.Writers

/-!
# Owned writes

An operation runs in a transaction of an adapter, which owns it until it is committed or rolled back.
The operation may put off some updates until the adapter has bumped the revision. Whatever is raised, by
the operation, by the bump or by what was put off, everything is rolled back together.
-/

namespace Modelark.Revision

open Library Execution

/-- A catalog with any tables. `planner_state` may lack its one row. -/
structure Base (T : Type) where
  tables : T
  plannerRevision : Option Nat
  sessions : SessionTable

inductive WriteIdentity where
  | graph
  | session (sessionId : String) (fencingToken : Nat)
  deriving Repr, DecidableEq

/-- A marker update of the owning transaction, with the new revision. -/
abbrev Finalizer (T : Type) := Nat → Raising (Base T) Failure Unit

/-- `_OwnedWrite`, of the one thread that holds it. -/
structure OwnedWrite (T κ β : Type) where
  identity : WriteIdentity
  finalizers : List (Finalizer T)
  finalizerBindings : List (κ × β)
  finalizing : Bool

/-- A connection: what is committed, its open transaction, the owned write that is active on it, and the
    session that is authorized on it. -/
structure Connection (T κ β : Type) where
  committed : Base T
  transaction : Option (Base T)
  active : Option (OwnedWrite T κ β)
  authority : Option (String × Nat)

/-- What an operation returns. -/
structure GraphResult (α : Type) where
  provenNoop : Bool
  value : α

variable {T κ β α : Type} [DecidableEq κ] [DecidableEq β]

def writeContextError (code : String) : Failure := .raised code

namespace Connection

variable (con : Connection T κ β)

/-- What statements see. -/
def view : Base T :=
  con.transaction.getD con.committed

/-- A statement outside of a transaction is committed by itself. -/
def write (base : Base T) : Connection T κ β :=
  match con.transaction with
  | some _ => { con with transaction := some base }
  | none => { con with committed := base }

/-- `BEGIN IMMEDIATE`. -/
def begin : Except Failure (Connection T κ β) :=
  match con.transaction with
  | some _ => .error (.raised "cannot start a transaction within a transaction")
  | none => .ok { con with transaction := some con.committed }

/-- `ROLLBACK`, whose failure is ignored. -/
def rollback : Connection T κ β :=
  { con with transaction := none }

/-- `COMMIT`, which may fail and then leaves the transaction open. -/
def commit (fault : Option Failure) : Except Failure (Connection T κ β) :=
  match fault with
  | some raised => .error raised
  | none => .ok { con with committed := con.view, transaction := none }

/-- `_enter`. -/
def enter (identity : WriteIdentity) : Except Failure (Connection T κ β) := do
  require con.active.isNone (writeContextError "CATALOG_WRITE_CONTEXT_NESTED")
  require con.transaction.isSome (writeContextError "CATALOG_WRITE_TRANSACTION_MISSING")
  return { con with active := some ⟨identity, [], [], false⟩ }

/-- `_current`. -/
def current : Except Failure (OwnedWrite T κ β) :=
  match con.active, con.transaction with
  | some owned, some _ => .ok owned
  | _, _ => .error (writeContextError "CATALOG_WRITE_AUTHORITY_MISSING")

/-- `require_write`. -/
def requireWrite (expected : WriteIdentity) : Except Failure (OwnedWrite T κ β) := do
  let owned ← con.current
  require (owned.identity == expected && !owned.finalizing)
    (writeContextError "CATALOG_WRITE_AUTHORITY_MISMATCH")
  return owned

/-- `defer_revision`. -/
def deferRevision (expected : WriteIdentity) (finalize : Finalizer T) :
    Except Failure (Connection T κ β) := do
  let owned ← con.requireWrite expected
  return { con with active := some { owned with finalizers := owned.finalizers ++ [finalize] } }

/-- `defer_revision_once`. -/
def deferRevisionOnce (expected : WriteIdentity) (key : κ) (binding : β) (finalize : Finalizer T) :
    Except Failure (Connection T κ β) := do
  let owned ← con.requireWrite expected
  match owned.finalizerBindings.find? (·.1 == key) with
  | some (_, bound) =>
      require (bound == binding) (writeContextError "CATALOG_WRITE_FINALIZER_CONFLICT")
      return con
  | none =>
      return { con with active := some { owned with
        finalizers := owned.finalizers ++ [finalize]
        finalizerBindings := owned.finalizerBindings ++ [(key, binding)] } }

/-- `_exit`: what was active before is again. -/
def exit (previous : Option (OwnedWrite T κ β)) : Connection T κ β :=
  { con with active := previous }

end Connection

/-- A computation on the catalog that the connection sees. -/
def onBase {γ : Type} (body : Raising (Base T) Failure γ) : Raising (Connection T κ β) Failure γ :=
  fun con => (con.write (body.run con.view).1, (body.run con.view).2)

/-- Finalizers one after another. -/
def runFinalizers (revision : Nat) : List (Finalizer T) → Raising (Base T) Failure Unit
  | [] => pure ()
  | finalize :: rest => do
      finalize revision
      runFinalizers revision rest

/-- `_finish`. -/
def finish (revision : Option Nat) : Raising (Connection T κ β) Failure Unit := do
  let owned ← Raising.look Connection.current
  Raising.look fun _ => require (!owned.finalizing) (writeContextError "CATALOG_WRITE_ALREADY_FINALIZED")
  Raising.attempt fun con => .ok { con with active := some { owned with finalizing := true } }
  match revision with
  | none =>
      Raising.look fun _ => require owned.finalizers.isEmpty
        (writeContextError "CATALOG_WRITE_NOOP_HAS_MARKERS")
  | some revision => do
      Raising.look fun _ => require (1 ≤ revision) (writeContextError "CATALOG_WRITE_REVISION_INVALID")
      onBase (runFinalizers revision owned.finalizers)

/-- What an operation does: statements, of which it sees the results, and updates that it puts off, of
    which it sees whether they are refused. It ends when it returns or raises. -/
inductive WriteOperation (T κ β α : Type) where
  | done (result : Except Failure (GraphResult α))
  | statement (act : Base T → Base T) (next : Base T → WriteOperation T κ β α)
  | defer (expected : WriteIdentity) (finalize : Finalizer T)
      (next : Except Failure Unit → WriteOperation T κ β α)
  | deferOnce (expected : WriteIdentity) (key : κ) (binding : β) (finalize : Finalizer T)
      (next : Except Failure Unit → WriteOperation T κ β α)

namespace WriteOperation

def run : WriteOperation T κ β α → Raising (Connection T κ β) Failure (GraphResult α)
  | done result => fun con => (con, result)
  | statement act next => fun con => (next (act con.view)).run (con.write (act con.view))
  | defer expected finalize next => fun con =>
      match con.deferRevision expected finalize with
      | .ok deferred => (next (.ok ())).run deferred
      | .error raised => (next (.error raised)).run con
  | deferOnce expected key binding finalize next => fun con =>
      match con.deferRevisionOnce expected key binding finalize with
      | .ok deferred => (next (.ok ())).run deferred
      | .error raised => (next (.error raised)).run con

end WriteOperation

/-- `_require_fill_idle`. -/
def requireFillIdle : Raising (Connection T κ β) Failure Unit :=
  Raising.look fun con => require (con.authority.isSome || !con.view.sessions.liveExists)
    (refusal "FILL_SESSION_ACTIVE")

/-- `bump_revision`: the new revision. -/
def bumpRevision : Raising (Connection T κ β) Failure Nat := do
  requireFillIdle
  onBase fun base =>
    match base.plannerRevision with
    | some revision => ({ base with plannerRevision := some (revision + 1) }, .ok (revision + 1))
    | none => (base, .error (.raised "planner_state singleton missing after revision bump"))

/-- The new revision, unless there is none. -/
def bumpUnless (provenNoop : Bool) : Raising (Connection T κ β) Failure (Option Nat) :=
  if provenNoop then pure none else some <$> bumpRevision

/-- What `graph_write` does in its transaction. -/
def graphBody (op : WriteOperation T κ β α) (fault : Option Failure) :
    Raising (Connection T κ β) Failure (GraphResult α) := do
  requireFillIdle
  Raising.attempt fun con => con.enter .graph
  let result ← op.run
  let revision ← bumpUnless result.provenNoop
  finish revision
  Raising.attempt fun con => con.commit fault
  return result

/-- `graph_write`. -/
def graphWrite (op : WriteOperation T κ β α) (fault : Option Failure) :
    Raising (Connection T κ β) Failure (GraphResult α) := do
  requireFillIdle
  let previous ← Raising.look fun con => .ok con.active
  Raising.attempt Connection.begin
  Raising.ensure (Raising.handle (graphBody op fault) Connection.rollback) fun con => con.exit previous

/-- The row of the session with its token, live. -/
def requireSession (sessionId : String) (fencingToken : Nat) (base : Base T) : Except Failure Unit :=
  match base.sessions.find sessionId with
  | none => .error (refusal "SESSION_NOT_FOUND")
  | some row => do
      require (row.fencingToken == fencingToken) (refusal "SESSION_TOKEN_MISMATCH")
      require row.live (refusal "SESSION_STATE_INVALID")

/-- The second look, inside the transaction, names every difference a token mismatch. -/
def requireAttempt (sessionId : String) (fencingToken : Nat) (base : Base T) : Except Failure Unit :=
  require ((base.sessions.find sessionId).any fun row => row.fencingToken == fencingToken && row.live)
    (refusal "SESSION_TOKEN_MISMATCH")

/-- The session's own record of the revision. -/
def bindSession (sessionId : String) (fencingToken revision : Nat) :
    Raising (Connection T κ β) Failure Unit :=
  Raising.attempt fun con =>
    match con.view.sessions.update (Session.matching sessionId fencingToken)
      (fun row => { row with boundPlannerRevision := revision }) with
    | none => .error .integrity
    | some sessions => .ok (con.write { con.view with sessions })

/-- The bump and the finalizers of a session's write. -/
def finishSession (sessionId : String) (fencingToken : Nat) (provenNoop : Bool) :
    Raising (Connection T κ β) Failure Unit :=
  if provenNoop then finish none
  else do
    let revision ← bumpRevision
    bindSession sessionId fencingToken revision
    finish (some revision)

/-- What `session_write` does in its transaction. -/
def sessionBody (sessionId : String) (fencingToken : Nat) (op : WriteOperation T κ β α)
    (fault : Option Failure) : Raising (Connection T κ β) Failure (GraphResult α) := do
  Raising.look fun con => requireAttempt sessionId fencingToken con.view
  Raising.attempt fun con => con.enter (.session sessionId fencingToken)
  let result ← op.run
  finishSession sessionId fencingToken result.provenNoop
  Raising.attempt fun con => con.commit fault
  return result

/-- `session_write`. -/
def sessionWrite (sessionId : String) (fencingToken : Nat) (op : WriteOperation T κ β α)
    (fault : Option Failure) : Raising (Connection T κ β) Failure (GraphResult α) := do
  Raising.look fun con => requireSession sessionId fencingToken con.view
  let previous ← Raising.look fun con => .ok (con.authority, con.active)
  Raising.attempt fun con => .ok { con with authority := some (sessionId, fencingToken) }
  Raising.ensure (do
    Raising.attempt Connection.begin
    Raising.handle (sessionBody sessionId fencingToken op fault) Connection.rollback)
    fun con => { con.exit previous.2 with authority := previous.1 }

/-- A registration that was not refused. -/
inductive Deferral (T κ β : Type) where
  | each (finalize : Finalizer T)
  | once (key : κ) (binding : β) (finalize : Finalizer T)

/-- The registrations of an operation that were not refused, in their order. -/
def WriteOperation.registered : WriteOperation T κ β α → Connection T κ β → List (Deferral T κ β)
  | .done _, _ => []
  | .statement act next, con => (next (act con.view)).registered (con.write (act con.view))
  | .defer expected finalize next, con =>
      match con.deferRevision expected finalize with
      | .ok deferred => .each finalize :: (next (.ok ())).registered deferred
      | .error raised => (next (.error raised)).registered con
  | .deferOnce expected key binding finalize next, con =>
      match con.deferRevisionOnce expected key binding finalize with
      | .ok deferred => .once key binding finalize :: (next (.ok ())).registered deferred
      | .error raised => (next (.error raised)).registered con

/-- The finalizers that registrations stand for: of those with one key, the first. -/
def coalesce (known : List κ) : List (Deferral T κ β) → List (Finalizer T)
  | [] => []
  | .each finalize :: rest => finalize :: coalesce known rest
  | .once key _ finalize :: rest =>
      if key ∈ known then coalesce known rest else finalize :: coalesce (known ++ [key]) rest

omit [DecidableEq β] in
/-- A registration is dropped only behind another one. -/
theorem coalesce_eq_nil {registrations : List (Deferral T κ β)} :
    coalesce [] registrations = [] ↔ registrations = [] := by
  cases registrations with
  | nil => simp [coalesce]
  | cons registration rest => cases registration <;> simp [coalesce]

namespace OwnedWrite

variable (owned : OwnedWrite T κ β)

def keys : List κ :=
  owned.finalizerBindings.map Prod.fst

/-- The binding of a key. -/
def bound (key : κ) : Option β :=
  (owned.finalizerBindings.find? (·.1 == key)).map Prod.snd

variable {owned} {key : κ} {binding : β}

omit [DecidableEq β]

theorem mem_keys_of_bound (found : owned.bound key = some binding) : key ∈ owned.keys := by
  obtain ⟨entry, first, _⟩ := Option.map_eq_some_iff.mp found
  have same : entry.1 = key := by simpa using List.find?_some first
  exact List.mem_map.mpr ⟨entry, List.mem_of_find?_eq_some first, same⟩

theorem not_mem_keys_of_bound (fresh : owned.bound key = none) : key ∉ owned.keys := by
  intro member
  obtain ⟨entry, listed, same⟩ := List.mem_map.mp member
  have absent := List.find?_eq_none.mp (Option.map_eq_none_iff.mp fresh) entry listed
  simp [same] at absent

/-- A new key takes no other key's binding. -/
theorem bound_of_append (finalizers : List (Finalizer T)) (other : κ) (fresh : owned.bound key = none) :
    OwnedWrite.bound { owned with
      finalizers := finalizers
      finalizerBindings := owned.finalizerBindings ++ [(key, binding)] } other =
      if key = other then some binding else owned.bound other := by
  unfold bound at fresh ⊢
  rw [List.find?_append]
  split_ifs with same
  · subst same
    rw [Option.map_eq_none_iff.mp fresh]
    simp
  · simp [same]

end OwnedWrite

section Working

variable {con after : Connection T κ β} {owned : OwnedWrite T κ β} {base : Base T}

omit [DecidableEq κ] [DecidableEq β] in
theorem requireWrite_eq_ok {expected : WriteIdentity} {found : OwnedWrite T κ β}
    (active : con.active = some owned) (seen : con.requireWrite expected = .ok found) : found = owned := by
  simp only [Connection.requireWrite, bind_eq_ok] at seen
  obtain ⟨current, seen, _, _, same⟩ := seen
  cases same
  unfold Connection.current at seen
  split at seen
  · rename_i first second
    rw [active] at first
    cases seen
    exact (Option.some.inj first).symm
  · cases seen

omit [DecidableEq κ] [DecidableEq β] in
theorem deferRevision_eq_ok {expected : WriteIdentity} {finalize : Finalizer T}
    (active : con.active = some owned) (deferred : con.deferRevision expected finalize = .ok after) :
    after = { con with active := some { owned with finalizers := owned.finalizers ++ [finalize] } } := by
  simp only [Connection.deferRevision, bind_eq_ok] at deferred
  obtain ⟨current, seen, made⟩ := deferred
  rw [requireWrite_eq_ok active seen] at made
  cases made
  rfl

/-- A registration under a key is new, or it agrees with the one before it. -/
theorem deferRevisionOnce_eq_ok {expected : WriteIdentity} {key : κ} {binding : β}
    {finalize : Finalizer T} (active : con.active = some owned)
    (deferred : con.deferRevisionOnce expected key binding finalize = .ok after) :
    (owned.bound key = some binding ∧ after = con) ∨
      (owned.bound key = none ∧ after = { con with active := some { owned with
        finalizers := owned.finalizers ++ [finalize]
        finalizerBindings := owned.finalizerBindings ++ [(key, binding)] } }) := by
  simp only [Connection.deferRevisionOnce, bind_eq_ok] at deferred
  obtain ⟨current, seen, made⟩ := deferred
  obtain rfl := requireWrite_eq_ok active seen
  unfold OwnedWrite.bound
  split at made
  · rename_i first known
    simp only [bind_eq_ok, require_eq_ok, beq_iff_eq] at made
    obtain ⟨_, rfl, same⟩ := made
    cases same
    exact .inl ⟨by rw [known]; rfl, rfl⟩
  · rename_i unknown
    cases made
    exact .inr ⟨by rw [unknown]; rfl, rfl⟩

/-- What an operation leaves of the transaction it ran in. -/
structure Worked (op : WriteOperation T κ β α) (con : Connection T κ β) (owned : OwnedWrite T κ β)
    (left : Base T) (ended : OwnedWrite T κ β) : Prop where
  state : (op.run con).1 = { con with transaction := some left, active := some ended }
  going : ended.finalizing = owned.finalizing
  finalizers : ended.finalizers = owned.finalizers ++ coalesce owned.keys (op.registered con)
  kept : ∀ key binding, owned.bound key = some binding → ended.bound key = some binding
  bound : ∀ key binding finalize, Deferral.once key binding finalize ∈ op.registered con →
    ended.bound key = some binding

/-- An operation changes its transaction and what is put off, and nothing else of the connection. -/
theorem exists_worked (op : WriteOperation T κ β α) (inside : con.transaction = some base)
    (active : con.active = some owned) : ∃ left ended, Worked op con owned left ended := by
  induction op generalizing con owned base with
  | done result =>
      refine ⟨base, owned, ?_, rfl, ?_, fun _ _ found => found, ?_⟩
      · simp [WriteOperation.run, ← inside, ← active]
      · simp [WriteOperation.registered, coalesce]
      · simp [WriteOperation.registered]
  | statement act next ih =>
      have written : con.write (act con.view) = { con with transaction := some (act con.view) } := by
        simp [Connection.write, inside]
      obtain ⟨left, ended, worked⟩ := @ih (act con.view) (con.write (act con.view)) owned (act con.view)
        (by rw [written]) (by rw [written, active])
      refine ⟨left, ended, ?_, worked.going, worked.finalizers, worked.kept, worked.bound⟩
      have state := worked.state
      rw [written] at state
      simp only [WriteOperation.run, written]
      exact state
  | defer expected finalize next ih =>
      cases deferred : con.deferRevision expected finalize with
      | error raised =>
          obtain ⟨left, ended, worked⟩ := ih (.error raised) inside active
          refine ⟨left, ended, ?_, worked.going, ?_, worked.kept, ?_⟩
          · simp only [WriteOperation.run, deferred]
            exact worked.state
          · rw [WriteOperation.registered, deferred]
            exact worked.finalizers
          · rw [WriteOperation.registered, deferred]
            exact worked.bound
      | ok after =>
          have shape := deferRevision_eq_ok active deferred
          obtain ⟨left, ended, worked⟩ := @ih (.ok ()) after
            { owned with finalizers := owned.finalizers ++ [finalize] } base
            (by rw [shape]; exact inside) (by rw [shape])
          refine ⟨left, ended, ?_, worked.going, ?_, worked.kept, ?_⟩
          · simp only [WriteOperation.run, deferred]
            exact worked.state.trans (by rw [shape])
          · rw [WriteOperation.registered, deferred]
            have all := worked.finalizers
            rw [List.append_assoc] at all
            exact all
          · rw [WriteOperation.registered, deferred]
            intro key binding other listed
            rcases List.mem_cons.mp listed with impossible | listed
            · cases impossible
            · exact worked.bound key binding other listed
  | deferOnce expected key binding finalize next ih =>
      cases deferred : con.deferRevisionOnce expected key binding finalize with
      | error raised =>
          obtain ⟨left, ended, worked⟩ := ih (.error raised) inside active
          refine ⟨left, ended, ?_, worked.going, ?_, worked.kept, ?_⟩
          · simp only [WriteOperation.run, deferred]
            exact worked.state
          · rw [WriteOperation.registered, deferred]
            exact worked.finalizers
          · rw [WriteOperation.registered, deferred]
            exact worked.bound
      | ok after =>
          rcases deferRevisionOnce_eq_ok active deferred with ⟨known, shape⟩ | ⟨fresh, shape⟩
          · obtain ⟨left, ended, worked⟩ := @ih (.ok ()) after owned base (by rw [shape]; exact inside)
              (by rw [shape]; exact active)
            refine ⟨left, ended, ?_, worked.going, ?_, worked.kept, ?_⟩
            · simp only [WriteOperation.run, deferred]
              exact worked.state.trans (by rw [shape])
            · rw [WriteOperation.registered, deferred]
              dsimp only
              rw [coalesce, if_pos (OwnedWrite.mem_keys_of_bound known)]
              exact worked.finalizers
            · rw [WriteOperation.registered, deferred]
              intro other bound also listed
              rcases List.mem_cons.mp listed with same | listed
              · cases same
                exact worked.kept key binding known
              · exact worked.bound other bound also listed
          · obtain ⟨left, ended, worked⟩ := @ih (.ok ()) after
              { owned with
                finalizers := owned.finalizers ++ [finalize]
                finalizerBindings := owned.finalizerBindings ++ [(key, binding)] } base
              (by rw [shape]; exact inside) (by rw [shape])
            have bound : ∀ other, _ = if key = other then some binding else owned.bound other :=
              fun other => OwnedWrite.bound_of_append (owned.finalizers ++ [finalize]) other fresh
            refine ⟨left, ended, ?_, worked.going, ?_, ?_, ?_⟩
            · simp only [WriteOperation.run, deferred]
              exact worked.state.trans (by rw [shape])
            · rw [WriteOperation.registered, deferred]
              dsimp only
              rw [coalesce, if_neg (OwnedWrite.not_mem_keys_of_bound fresh)]
              have all := worked.finalizers
              rw [List.append_assoc] at all
              simpa [OwnedWrite.keys] using all
            · intro other value found
              apply worked.kept
              rw [bound, if_neg _, found]
              rintro rfl
              rw [fresh] at found
              cases found
            · rw [WriteOperation.registered, deferred]
              intro other value also listed
              rcases List.mem_cons.mp listed with same | listed
              · cases same
                apply worked.kept
                rw [bound, if_pos rfl]
              · exact worked.bound other value also listed

end Working

section Whole

variable {con start after : Connection T κ β} {op : WriteOperation T κ β α} {identity : WriteIdentity}

/-- The connection in which an operation begins. -/
def Connection.opened (con : Connection T κ β) (identity : WriteIdentity)
    (authority : Option (String × Nat)) : Connection T κ β :=
  ⟨con.committed, some con.committed, some ⟨identity, [], [], false⟩, authority⟩

/-- The session rows that an adapter moves. -/
def WriteIdentity.owns (identity : WriteIdentity) (row : Session) : Bool :=
  match identity with
  | .graph => false
  | .session sessionId fencingToken => Session.matching sessionId fencingToken row

/-- What an adapter itself writes: one increment, which its session records. -/
structure Bumped (identity : WriteIdentity) (left bumped : Base T) (revision : Nat) : Prop where
  increment : left.plannerRevision.map (· + 1) = some revision
  recorded : bumped.plannerRevision = some revision
  tables : bumped.tables = left.tables
  sessions : bumped.sessions.rows = left.sessions.rows.map fun row =>
    if identity.owns row then { row with boundPlannerRevision := revision } else row

/-- A write commits nothing, or what its operation left when that was proven to be no change, or what it
    left with one increment and with every finalizer run on that. -/
inductive Whole (identity : WriteIdentity) (authority : Option (String × Nat))
    (op : WriteOperation T κ β α) (con : Connection T κ β) :
    Connection T κ β × Except Failure (GraphResult α) → Prop where
  | nothing (raised : Failure) : Whole identity authority op con (con, .error raised)
  | noop (result : GraphResult α) (idle : con.transaction = none) (proven : result.provenNoop = true)
      (returned : (op.run (con.opened identity authority)).2 = .ok result)
      (unregistered : op.registered (con.opened identity authority) = []) :
      Whole identity authority op con
        ({ con with committed := (op.run (con.opened identity authority)).1.view }, .ok result)
  | all (result : GraphResult α) (bumped final : Base T) (revision : Nat)
      (idle : con.transaction = none) (changes : result.provenNoop = false)
      (returned : (op.run (con.opened identity authority)).2 = .ok result)
      (increment : Bumped identity (op.run (con.opened identity authority)).1.view bumped revision)
      (finalized : (runFinalizers revision
        (coalesce [] (op.registered (con.opened identity authority)))).run bumped = (final, .ok ())) :
      Whole identity authority op con ({ con with committed := final }, .ok result)

/-- Nothing is committed yet, and the session that is authorized is the same. -/
def Inside (start con : Connection T κ β) : Prop :=
  con.committed = start.committed ∧ con.authority = start.authority ∧ con.transaction.isSome = true

omit [DecidableEq κ] [DecidableEq β] in
theorem Inside.write (inside : Inside start con) (base : Base T) : Inside start (con.write base) := by
  obtain ⟨committed, authority, open'⟩ := inside
  unfold Connection.write
  split
  · exact ⟨committed, authority, rfl⟩
  · rename_i none
    rw [none] at open'
    cases open'

theorem run_inside (op : WriteOperation T κ β α) : Raising.Leaves (Inside start) op.run := by
  intro con inside
  induction op generalizing con with
  | done result => exact inside
  | statement act next ih => exact ih (act con.view) (con.write (act con.view)) (inside.write _)
  | defer expected finalize next ih =>
      simp only [Raising.run, WriteOperation.run]
      cases deferred : con.deferRevision expected finalize with
      | error raised => exact ih (.error raised) con inside
      | ok after =>
          apply ih (.ok ()) after
          simp only [Connection.deferRevision, bind_eq_ok] at deferred
          obtain ⟨owned, _, made⟩ := deferred
          cases made
          exact inside
  | deferOnce expected key binding finalize next ih =>
      simp only [Raising.run, WriteOperation.run]
      cases deferred : con.deferRevisionOnce expected key binding finalize with
      | error raised => exact ih (.error raised) con inside
      | ok after =>
          apply ih (.ok ()) after
          simp only [Connection.deferRevisionOnce, bind_eq_ok] at deferred
          obtain ⟨owned, _, made⟩ := deferred
          split at made
          · obtain ⟨_, _, same⟩ := bind_eq_ok.mp made
            cases same
            exact inside
          · cases made
            exact inside

omit [DecidableEq κ] [DecidableEq β] in
theorem onBase_inside {γ : Type} (body : Raising (Base T) Failure γ) :
    Raising.Leaves (Inside start) (onBase body : Raising (Connection T κ β) Failure γ) :=
  fun con inside => inside.write (body.run con.view).1

omit [DecidableEq κ] [DecidableEq β] in
theorem attempt_inside {act : Connection T κ β → Except Failure (Connection T κ β)}
    (keeps : ∀ con after, act con = .ok after → after.committed = con.committed ∧
      after.authority = con.authority ∧ (con.transaction.isSome = true → after.transaction.isSome = true)) :
    Raising.Leaves (Inside start) (Raising.attempt act) := by
  apply Raising.Leaves.attempt
  intro con after inside acted
  obtain ⟨committed, authority, stays⟩ := keeps con after acted
  exact ⟨committed.trans inside.1, authority.trans inside.2.1, stays inside.2.2⟩

omit [DecidableEq κ] [DecidableEq β] in
theorem finish_inside (revision : Option Nat) :
    Raising.Leaves (Inside start) (finish revision : Raising (Connection T κ β) Failure Unit) := by
  refine Raising.Leaves.bind (Raising.Leaves.look _) fun owned => ?_
  refine Raising.Leaves.bind (Raising.Leaves.look _) fun _ => ?_
  refine Raising.Leaves.bind ?_ fun _ => ?_
  · apply attempt_inside
    intro con after made
    cases made
    exact ⟨rfl, rfl, id⟩
  · cases revision with
    | none => exact Raising.Leaves.look _
    | some revision => exact Raising.Leaves.bind (Raising.Leaves.look _) fun _ => onBase_inside _

omit [DecidableEq κ] [DecidableEq β] in
theorem bumpRevision_inside :
    Raising.Leaves (Inside start) (bumpRevision : Raising (Connection T κ β) Failure Nat) :=
  Raising.Leaves.bind (Raising.Leaves.look _) fun _ => onBase_inside _

omit [DecidableEq κ] [DecidableEq β] in
theorem bindSession_inside (sessionId : String) (fencingToken revision : Nat) :
    Raising.Leaves (Inside start)
      (bindSession sessionId fencingToken revision : Raising (Connection T κ β) Failure Unit) := by
  apply Raising.Leaves.attempt
  intro con after inside acted
  split at acted
  · cases acted
  · cases acted
    exact inside.write _

omit [DecidableEq κ] [DecidableEq β] in
theorem bumpRevision_increments {base : Base T} {revision : Nat} (open' : con.transaction = some base)
    (ran : bumpRevision.run con = (after, .ok revision)) :
    base.plannerRevision.map (· + 1) = some revision ∧
      after = { con with transaction := some { base with plannerRevision := some revision } } := by
  obtain ⟨_, middle, idle, bumped⟩ := Raising.bind_eq_ok ran
  simp only [requireFillIdle, Raising.run_look, Prod.mk.injEq] at idle
  obtain ⟨rfl, _⟩ := idle
  simp only [onBase, Raising.run, Connection.view, open', Option.getD_some, Connection.write] at bumped
  cases current : base.plannerRevision with
  | none => simp [current] at bumped
  | some before =>
      simp only [current, Prod.mk.injEq, Except.ok.injEq] at bumped
      obtain ⟨rfl, rfl⟩ := bumped
      exact ⟨rfl, rfl⟩

omit [DecidableEq κ] [DecidableEq β] in
theorem bindSession_eq_ok {base : Base T} {sessionId : String} {fencingToken revision : Nat} {value : Unit}
    (open' : con.transaction = some base)
    (ran : (bindSession sessionId fencingToken revision).run con = (after, .ok value)) :
    ∃ sessions, base.sessions.update (Session.matching sessionId fencingToken)
        (fun row => { row with boundPlannerRevision := revision }) = some sessions ∧
      after = { con with transaction := some { base with sessions } } := by
  have acted := Raising.attempt_eq_ok ran
  simp only [Connection.view, open', Option.getD_some, Connection.write] at acted
  split at acted
  · cases acted
  · rename_i sessions updated
    cases acted
    exact ⟨sessions, updated, rfl⟩

/-- What the finalizers make of a transaction. -/
def Finalized (finalizers : List (Finalizer T)) (base final : Base T) : Option Nat → Prop
  | none => finalizers = [] ∧ final = base
  | some revision => (runFinalizers revision finalizers).run base = (final, .ok ())

omit [DecidableEq κ] [DecidableEq β] in
/-- What `_finish` has done when it returns. -/
theorem finish_eq_ok {base : Base T} {owned : OwnedWrite T κ β} {revision : Option Nat}
    {value : Unit} (open' : con.transaction = some base) (active : con.active = some owned)
    (ran : (finish revision).run con = (after, .ok value)) :
    ∃ final, after = { con with
        transaction := some final, active := some { owned with finalizing := true } } ∧
      Finalized owned.finalizers base final revision := by
  obtain ⟨found, first, looked, ran⟩ := Raising.bind_eq_ok ran
  simp only [Raising.run_look, Connection.current, active, open', Prod.mk.injEq, Except.ok.injEq] at looked
  obtain ⟨rfl, rfl⟩ := looked
  obtain ⟨_, second, fresh, ran⟩ := Raising.bind_eq_ok ran
  simp only [Raising.run_look, Prod.mk.injEq] at fresh
  obtain ⟨rfl, _⟩ := fresh
  obtain ⟨_, third, marked, ran⟩ := Raising.bind_eq_ok ran
  cases Raising.attempt_eq_ok marked
  cases revision with
  | none =>
      simp only [Raising.run_look, Prod.mk.injEq, require_eq_ok, List.isEmpty_iff] at ran
      exact ⟨base, by rw [← ran.1, open'], ran.2, rfl⟩
  | some revision =>
      obtain ⟨_, fourth, counted, ran⟩ := Raising.bind_eq_ok ran
      simp only [Raising.run_look, Prod.mk.injEq] at counted
      obtain ⟨rfl, _⟩ := counted
      simp only [onBase, Raising.run, Connection.view, open', Option.getD_some, Connection.write,
        Prod.mk.injEq] at ran
      obtain ⟨rfl, returned⟩ := ran
      exact ⟨_, rfl, Prod.ext rfl returned⟩

omit [DecidableEq κ] [DecidableEq β] in
theorem enter_inside (identity : WriteIdentity) : Raising.Leaves (Inside start)
    (Raising.attempt fun con : Connection T κ β => con.enter identity) := by
  apply attempt_inside
  intro con after entered
  simp only [Connection.enter, bind_eq_ok] at entered
  obtain ⟨_, _, _, _, made⟩ := entered
  cases made
  exact ⟨rfl, rfl, id⟩

theorem graphBody_fails (op : WriteOperation T κ β α) (fault : Option Failure) :
    Raising.Fails (Inside start) (graphBody op fault) := by
  refine Raising.Fails.bind (Raising.Leaves.look _) fun _ => ?_
  refine Raising.Fails.bind (enter_inside _) fun _ => ?_
  refine Raising.Fails.bind (run_inside op) fun result => ?_
  refine Raising.Fails.bind ?_ fun revision => ?_
  · unfold bumpUnless
    split
    · exact Raising.Leaves.pure none
    · exact Raising.Leaves.bind bumpRevision_inside fun revision => Raising.Leaves.pure (some revision)
  · exact Raising.Fails.bind (finish_inside revision) fun _ => Raising.Fails.last

theorem sessionBody_fails (sessionId : String) (fencingToken : Nat) (op : WriteOperation T κ β α)
    (fault : Option Failure) : Raising.Fails (Inside start) (sessionBody sessionId fencingToken op fault) := by
  refine Raising.Fails.bind (Raising.Leaves.look _) fun _ => ?_
  refine Raising.Fails.bind (enter_inside _) fun _ => ?_
  refine Raising.Fails.bind (run_inside op) fun result => ?_
  refine Raising.Fails.bind ?_ fun _ => Raising.Fails.last
  unfold finishSession
  split
  · exact finish_inside none
  · refine Raising.Leaves.bind bumpRevision_inside fun revision => ?_
    exact Raising.Leaves.bind (bindSession_inside _ _ _) fun _ => finish_inside _

/-- The connection that an operation leaves, with what it has put off. -/
theorem exists_left (con : Connection T κ β) (op : WriteOperation T κ β α) (identity : WriteIdentity)
    (authority : Option (String × Nat)) : ∃ left ended,
      (op.run (con.opened identity authority)).1 =
        { con.opened identity authority with transaction := some left, active := some ended } ∧
      (op.run (con.opened identity authority)).1.view = left ∧
      ended.finalizers = coalesce [] (op.registered (con.opened identity authority)) := by
  obtain ⟨left, ended, worked⟩ : ∃ left ended,
      Worked op (con.opened identity authority) ⟨identity, [], [], false⟩ left ended :=
    exists_worked op rfl rfl
  refine ⟨left, ended, worked.state, ?_, worked.finalizers⟩
  rw [worked.state]
  rfl

omit [DecidableEq κ] [DecidableEq β] in
theorem commit_eq_ok {fault : Option Failure} {value : Unit}
    (ran : (Raising.attempt fun con : Connection T κ β => con.commit fault).run con = (after, .ok value)) :
    after = { con with committed := con.view, transaction := none } := by
  have acted := Raising.attempt_eq_ok ran
  cases fault with
  | some raised => cases acted
  | none =>
      cases acted
      rfl

/-- What a graph write has committed when its body returns. -/
theorem graphBody_eq_ok {fault : Option Failure} {result : GraphResult α} (idle : con.transaction = none)
    (ran : (graphBody op fault).run { con with transaction := some con.committed } = (after, .ok result)) :
    Whole .graph con.authority op con ({ con with committed := after.committed }, .ok result) ∧
      after.transaction = none ∧ after.authority = con.authority := by
  obtain ⟨_, first, looked, ran⟩ := Raising.bind_eq_ok ran
  simp only [requireFillIdle, Raising.run_look, Prod.mk.injEq] at looked
  obtain ⟨rfl, _⟩ := looked
  obtain ⟨_, second, entered, ran⟩ := Raising.bind_eq_ok ran
  have opened : second = con.opened .graph con.authority := by
    have made := Raising.attempt_eq_ok entered
    simp only [Connection.enter, bind_eq_ok] at made
    obtain ⟨_, _, _, _, made⟩ := made
    cases made
    rfl
  subst opened
  obtain ⟨value, third, operated, ran⟩ := Raising.bind_eq_ok ran
  obtain ⟨left, ended, state, view, finalizers⟩ := exists_left con op .graph con.authority
  have returned : (op.run (con.opened .graph con.authority)).2 = .ok value := congrArg Prod.snd operated
  obtain rfl := (congrArg Prod.fst operated).symm.trans state
  obtain ⟨revision, fourth, bumped, ran⟩ := Raising.bind_eq_ok ran
  obtain ⟨_, fifth, finished, ran⟩ := Raising.bind_eq_ok ran
  obtain ⟨_, sixth, committed, ran⟩ := Raising.bind_eq_ok ran
  obtain ⟨rfl, same⟩ := Prod.mk.inj ran
  cases same
  have commit := commit_eq_ok committed
  cases noop : result.provenNoop with
  | true =>
      rw [noop] at bumped
      obtain ⟨rfl, same⟩ := Prod.mk.inj bumped
      cases same
      obtain ⟨final, rfl, empty, rfl⟩ := finish_eq_ok rfl rfl finished
      subst commit
      have unregistered := coalesce_eq_nil.mp (finalizers.symm.trans empty)
      have whole := Whole.noop result idle noop returned unregistered
      rw [view] at whole
      exact ⟨whole, rfl, rfl⟩
  | false =>
      rw [noop] at bumped
      obtain ⟨number, middle, counted, made⟩ := Raising.bind_eq_ok bumped
      obtain ⟨rfl, same⟩ := Prod.mk.inj made
      cases same
      obtain ⟨increment, rfl⟩ := bumpRevision_increments rfl counted
      obtain ⟨final, rfl, finalized⟩ := finish_eq_ok rfl rfl finished
      subst commit
      rw [finalizers] at finalized
      refine ⟨.all result _ final number idle noop returned ⟨?_, rfl, ?_, ?_⟩ finalized, rfl, rfl⟩
      · rw [view]
        exact increment
      · rw [view]
      · rw [view]
        simp [WriteIdentity.owns]

/-- What a session's write has committed when its body returns. -/
theorem sessionBody_eq_ok {sessionId : String} {fencingToken : Nat} {fault : Option Failure}
    {result : GraphResult α} {authority : Option (String × Nat)} (idle : con.transaction = none)
    (ran : (sessionBody sessionId fencingToken op fault).run
      { con with transaction := some con.committed, authority } = (after, .ok result)) :
    Whole (.session sessionId fencingToken) authority op con
        ({ con with committed := after.committed }, .ok result) ∧ after.transaction = none := by
  obtain ⟨_, first, looked, ran⟩ := Raising.bind_eq_ok ran
  simp only [Raising.run_look, Prod.mk.injEq] at looked
  obtain ⟨rfl, _⟩ := looked
  obtain ⟨_, second, entered, ran⟩ := Raising.bind_eq_ok ran
  have opened : second = con.opened (.session sessionId fencingToken) authority := by
    have made := Raising.attempt_eq_ok entered
    simp only [Connection.enter, bind_eq_ok] at made
    obtain ⟨_, _, _, _, made⟩ := made
    cases made
    rfl
  subst opened
  obtain ⟨value, third, operated, ran⟩ := Raising.bind_eq_ok ran
  obtain ⟨left, ended, state, view, finalizers⟩ :=
    exists_left con op (.session sessionId fencingToken) authority
  have returned : (op.run (con.opened (.session sessionId fencingToken) authority)).2 = .ok value :=
    congrArg Prod.snd operated
  obtain rfl := (congrArg Prod.fst operated).symm.trans state
  obtain ⟨_, fourth, finished, ran⟩ := Raising.bind_eq_ok ran
  obtain ⟨_, fifth, committed, ran⟩ := Raising.bind_eq_ok ran
  obtain ⟨rfl, same⟩ := Prod.mk.inj ran
  cases same
  have commit := commit_eq_ok committed
  cases noop : result.provenNoop with
  | true =>
      rw [noop, finishSession, if_pos rfl] at finished
      obtain ⟨final, rfl, empty, rfl⟩ := finish_eq_ok rfl rfl finished
      subst commit
      have unregistered := coalesce_eq_nil.mp (finalizers.symm.trans empty)
      have whole := Whole.noop result idle noop returned unregistered
      rw [view] at whole
      exact ⟨whole, rfl⟩
  | false =>
      rw [noop, finishSession, if_neg Bool.false_ne_true] at finished
      obtain ⟨number, middle, counted, finished⟩ := Raising.bind_eq_ok finished
      obtain ⟨increment, rfl⟩ := bumpRevision_increments rfl counted
      obtain ⟨_, rebound, moved, finished⟩ := Raising.bind_eq_ok finished
      obtain ⟨sessions, updated, rfl⟩ := bindSession_eq_ok rfl moved
      obtain ⟨final, rfl, finalized⟩ := finish_eq_ok rfl rfl finished
      subst commit
      rw [finalizers] at finalized
      refine ⟨.all result _ final number idle noop returned ⟨?_, rfl, ?_, ?_⟩ finalized, rfl⟩
      · rw [view]
        exact increment
      · rw [view]
      · rw [view]
        exact SessionTable.rows_update updated

omit [DecidableEq κ] [DecidableEq β] in
/-- What is raised in the transaction rolls it back. -/
theorem handled (con : Connection T κ β) {body : Raising (Connection T κ β) Failure (GraphResult α)}
    (fails : Raising.Fails (Inside con) body) (start : Connection T κ β) (inside : Inside con start)
    {raised : Failure} (ran : (Raising.handle body Connection.rollback).run start = (after, .error raised)) :
    after.committed = con.committed ∧ after.transaction = none ∧ after.authority = con.authority := by
  simp only [Raising.handle, Raising.run] at ran
  split at ran
  · cases ran
  · rename_i left other failed
    obtain ⟨rfl, _⟩ := Prod.mk.inj ran
    obtain ⟨committed, authority, _⟩ := fails start left other inside failed
    exact ⟨committed, rfl, authority⟩

omit [DecidableEq κ] [DecidableEq β] in
theorem handle_eq_ok {body : Raising (Connection T κ β) Failure (GraphResult α)} {result : GraphResult α}
    (ran : (Raising.handle body Connection.rollback).run start = (after, .ok result)) :
    body.run start = (after, .ok result) := by
  simp only [Raising.handle, Raising.run] at ran
  split at ran
  · rename_i left value returned
    cases ran
    exact returned
  · cases ran

omit [DecidableEq κ] [DecidableEq β] in
theorem begin_cases (con : Connection T κ β) :
    (∃ raised, con.begin = .error raised) ∨ (con.transaction = none ∧
      con.begin = .ok { con with transaction := some con.committed }) := by
  unfold Connection.begin
  cases con.transaction with
  | some base => exact .inl ⟨_, rfl⟩
  | none => exact .inr ⟨rfl, rfl⟩

/-- `graph_write` is whole. -/
theorem graphWrite_whole (op : WriteOperation T κ β α) (fault : Option Failure) (con : Connection T κ β) :
    Whole .graph con.authority op con ((graphWrite op fault).run con) := by
  unfold graphWrite
  rw [Raising.run_bind]
  simp only [requireFillIdle, Raising.run_look]
  cases require (con.authority.isSome || !con.view.sessions.liveExists) (refusal "FILL_SESSION_ACTIVE") with
  | error raised => exact .nothing raised
  | ok _ =>
      dsimp only
      rw [Raising.run_bind]
      simp only [Raising.run_look]
      rw [Raising.run_bind]
      rcases begin_cases con with ⟨raised, refused⟩ | ⟨idle, begun⟩
      · simp only [Raising.attempt, Raising.run, refused]
        exact .nothing raised
      · simp only [Raising.attempt, Raising.run, begun, Raising.ensure]
        rcases shape : (Raising.handle (graphBody op fault) Connection.rollback).run
            { con with transaction := some con.committed } with ⟨after, raised | result⟩
        · obtain ⟨committed, transaction, authority⟩ :=
            handled con (graphBody_fails op fault) { con with transaction := some con.committed }
              ⟨rfl, rfl, rfl⟩ shape
          have restored : after.exit con.active = con := by
            cases con
            cases after
            simp_all [Connection.exit]
          simp only [Raising.run] at shape
          rw [shape, restored]
          exact .nothing raised
        · obtain ⟨whole, transaction, authority⟩ := graphBody_eq_ok idle (handle_eq_ok shape)
          have restored : after.exit con.active = { con with committed := after.committed } := by
            cases con
            cases after
            simp_all [Connection.exit]
          simp only [Raising.run] at shape
          rw [shape, restored]
          exact whole

/-- A session's write when the session is authorized. -/
theorem authorized_whole (sessionId : String) (fencingToken : Nat) (op : WriteOperation T κ β α)
    (fault : Option Failure) (con : Connection T κ β) {result : Except Failure (GraphResult α)}
    (ran : (Raising.attempt Connection.begin >>= fun _ =>
      Raising.handle (sessionBody sessionId fencingToken op fault) Connection.rollback).run
        { con with authority := some (sessionId, fencingToken) } = (after, result)) :
    Whole (.session sessionId fencingToken) (some (sessionId, fencingToken)) op con
      ({ after.exit con.active with authority := con.authority }, result) := by
  rw [Raising.run_bind] at ran
  rcases begin_cases { con with authority := some (sessionId, fencingToken) } with
    ⟨raised, refused⟩ | ⟨idle, begun⟩
  · simp only [Raising.attempt, Raising.run, refused, Prod.mk.injEq] at ran
    obtain ⟨rfl, rfl⟩ := ran
    exact .nothing raised
  · simp only [Raising.attempt, Raising.run, begun] at ran
    cases result with
    | error raised =>
        obtain ⟨committed, transaction, _⟩ := handled
          { con with authority := some (sessionId, fencingToken) }
          (sessionBody_fails sessionId fencingToken op fault)
          { con with transaction := some con.committed, authority := some (sessionId, fencingToken) }
          ⟨rfl, rfl, rfl⟩ ran
        have restored : { after.exit con.active with authority := con.authority } = con := by
          cases con
          cases after
          simp_all [Connection.exit]
        rw [restored]
        exact .nothing raised
    | ok result =>
        have idle : con.transaction = none := idle
        obtain ⟨whole, transaction⟩ := sessionBody_eq_ok idle (handle_eq_ok ran)
        have restored : { after.exit con.active with authority := con.authority } =
            { con with committed := after.committed } := by
          cases con
          cases after
          simp_all [Connection.exit]
        rw [restored]
        exact whole

/-- `session_write` is whole. -/
theorem sessionWrite_whole (sessionId : String) (fencingToken : Nat) (op : WriteOperation T κ β α)
    (fault : Option Failure) (con : Connection T κ β) :
    Whole (.session sessionId fencingToken) (some (sessionId, fencingToken)) op con
      ((sessionWrite sessionId fencingToken op fault).run con) := by
  unfold sessionWrite
  rw [Raising.run_bind]
  simp only [Raising.run_look]
  cases requireSession sessionId fencingToken con.view with
  | error raised => exact .nothing raised
  | ok _ => exact authorized_whole sessionId fencingToken op fault con rfl

/-- Of the registrations that are not refused, those with one key have one binding. -/
theorem registered_agree (op : WriteOperation T κ β α) (con : Connection T κ β) (identity : WriteIdentity)
    (authority : Option (String × Nat)) {key : κ} {binding other : β} {finalize also : Finalizer T}
    (first : Deferral.once key binding finalize ∈ op.registered (con.opened identity authority))
    (second : Deferral.once key other also ∈ op.registered (con.opened identity authority)) :
    binding = other := by
  obtain ⟨left, ended, worked⟩ : ∃ left ended,
      Worked op (con.opened identity authority) ⟨identity, [], [], false⟩ left ended :=
    exists_worked op rfl rfl
  have bound := worked.bound key binding finalize first
  rw [worked.bound key other also second] at bound
  exact (Option.some.inj bound).symm

/-- A write of an adapter is whole: its changes, one increment and every finalizer once, or nothing. A
    key is registered with one binding only. -/
theorem owned_writes_whole (op : WriteOperation T κ β α) (fault : Option Failure)
    (con : Connection T κ β) :
    Whole .graph con.authority op con ((graphWrite op fault).run con) ∧
      (∀ sessionId fencingToken,
        Whole (.session sessionId fencingToken) (some (sessionId, fencingToken)) op con
          ((sessionWrite sessionId fencingToken op fault).run con)) ∧
      (∀ (inside : Connection T κ β) (owned : OwnedWrite T κ β) (key : κ) (bound binding : β)
        (expected : WriteIdentity) (finalize : Finalizer T), inside.active = some owned →
        owned.bound key = some bound → bound ≠ binding →
        ∃ raised, inside.deferRevisionOnce expected key binding finalize = .error raised) ∧
      ∀ (identity : WriteIdentity) (authority : Option (String × Nat)) (key : κ) (binding other : β)
        (finalize also : Finalizer T),
        Deferral.once key binding finalize ∈ op.registered (con.opened identity authority) →
        Deferral.once key other also ∈ op.registered (con.opened identity authority) →
        binding = other := by
  refine ⟨graphWrite_whole op fault con, ?_, ?_, ?_⟩
  · intro sessionId fencingToken
    exact sessionWrite_whole sessionId fencingToken op fault con
  · intro inside owned key bound binding expected finalize active known apart
    cases deferred : inside.deferRevisionOnce expected key binding finalize with
    | error raised => exact ⟨raised, rfl⟩
    | ok after =>
        rcases deferRevisionOnce_eq_ok active deferred with ⟨same, _⟩ | ⟨fresh, _⟩
        · rw [known] at same
          exact absurd (Option.some.inj same) apart
        · rw [known] at fresh
          cases fresh
  · intro identity authority key binding other finalize also first second
    exact registered_agree op con identity authority first second

end Whole

end Modelark.Revision
