import Modelark.Publication.Store

/-!
# Publication writes

The transactions of a scope, each of which makes some of the store's calls and is committed with one
bump of the revision or rolled back whole, and what other writers do between them.
-/

namespace Modelark.Publication

open Library Execution
open Revision (Failure lift)
open Conversion (refused)

namespace Scope

variable {R : Type} (rules : Rules) (scope : Scope)

/-- The one bump of the adapter, which a session records. -/
def bump (c : Catalog R) : Except Failure (Catalog R) := do
  let fleet ← lift (c.fleet.bumpRevision scope.writer.isSome)
  match scope.writer with
  | none => return { c with fleet }
  | some (sessionId, token) => do
      let some sessions := fleet.sessions.update (Session.matching sessionId token)
        (fun row => { row with boundPlannerRevision := fleet.plannerRevision })
        | .error .integrity
      return { c with fleet := { fleet with sessions } }

/-- `_finish`, and the commit. -/
def finish (w : Owned R) : Except Failure (Catalog R) :=
  if w.provenNoop then do
    Library.require w.finalizers.isEmpty (.raised "CATALOG_WRITE_NOOP_HAS_MARKERS")
    return w.catalog
  else do
    let bumped ← scope.bump w.catalog
    thread (Marker.finalize bumped.revision) bumped w.finalizers

/-- What `write` does for the operation of the scope after its callback. -/
def rebind (previous : Option (String × Nat)) (w : Owned R) : Except Failure (Owned R) :=
  match previous with
  | none => .ok w
  | some (operationId, revision) => do
      let changed : Failure := refused "PUBLICATION_OPERATION_BINDING_CHANGED"
      Library.require (w.operationId == some operationId) changed
      let some row := w.catalog.records.operations.find operationId | .error changed
      if row.state = .prepared ∧ w.provenNoop = false then
        w.stampOperation operationId (some revision) false
      else return w

/-- The operation that a scope is bound to, with its revision. -/
def boundRevision (operationId : Option String) (c : Catalog R) : Except Failure (Option (String × Nat)) :=
  match operationId with
  | none => .ok none
  | some operationId => do
      let (_, _, revision) ← scope.loadOwnedOperation rules c operationId
      return some (operationId, revision)

/-- `write`: the catalog that is committed, and the operation that the scope is bound to then. -/
def write (operationId : Option String) (callback : Owned R → Except Failure (Owned R)) (c : Catalog R) :
    Except Failure (Catalog R × Option String) := do
  scope.require rules c
  -- what `session_write` or `graph_write` asks for before it begins
  scope.requireOwner c
  scope.requireTransaction rules c
  let previous ← scope.boundRevision rules operationId c
  let called ← callback ⟨c, operationId, [], false⟩
  scope.require rules called.catalog
  let bound ← rebind previous called
  let committed ← scope.finish bound
  return (committed, bound.operationId)

end Scope

/-- A call of the store or of the actions. -/
inductive Call (R : Type) where
  | prepareOperation (operationId : String) (kind : OperationKind) (profileDigest : String)
      (batchFiles : List (String × List String)) (beforeState : Json)
  | prepareFile (operationId batchId fileId : String) (intent : Json)
  | advanceFile (operationId fileId : String) (phase : FilePhase) (proof : Json)
      (catalogCas : Option (CatalogCas R))
  | propagateBatch (operationId batchId : String) (mapProof : Json)
  | closeOperation (operationId : String) (observations : List (String × Observation))
      (inventoryProofs : List (String × Json)) (now : String)
  | prepareAction (actionId : String) (kind : ActionKind) (intent : Json)
  | verifyAction (actionId intentDigest : String) (receipt : Json)

namespace Call

variable {R : Type}

def perform (rules : Rules) (scope : Scope) (w : Owned R) : Call R → Except Failure (Owned R)
  | .prepareOperation operationId kind profileDigest batchFiles beforeState => Prod.fst <$>
      Store.prepareOperation rules scope operationId kind profileDigest batchFiles beforeState w
  | .prepareFile operationId batchId fileId intent => Prod.fst <$>
      Store.prepareFile rules scope operationId batchId fileId intent w
  | .advanceFile operationId fileId phase proof catalogCas => Prod.fst <$>
      Store.advanceFile rules scope operationId fileId phase proof catalogCas w
  | .propagateBatch operationId batchId mapProof => Prod.fst <$>
      Store.propagateBatch rules scope operationId batchId mapProof w
  | .closeOperation operationId observations inventoryProofs now => Prod.fst <$>
      Store.closeOperation rules scope operationId observations inventoryProofs now w
  | .prepareAction actionId kind intent => Actions.prepare rules scope actionId kind intent w
  | .verifyAction actionId intentDigest receipt =>
      Actions.verify rules scope actionId intentDigest receipt w

/-- The operation that a call goes on with. -/
def continues : Call R → Option String
  | .prepareFile operationId .. | .advanceFile operationId .. | .propagateBatch operationId ..
  | .closeOperation operationId .. => some operationId
  | .prepareOperation .. | .prepareAction .. | .verifyAction .. => none

/-- The file that a call puts into a phase. -/
def enters : Call R → Option (String × FilePhase)
  | .prepareFile _ _ fileId _ => some (fileId, .prepared)
  | .advanceFile _ fileId phase .. => some (fileId, phase)
  | _ => none

/-- The phases that calls have put a file into, in their order. -/
def phases (fileId : String) (calls : List (Call R)) : List FilePhase :=
  calls.filterMap fun call => (call.enters.filter (·.1 == fileId)).map Prod.snd

end Call

inductive Event (R : Type) where
  /-- A transaction of a scope, which may be bound to an operation. -/
  | write (scope : Scope) (bound : Option String) (calls : List (Call R))
  /-- A clean anchor of another writer. What else its transaction does is a change of its own. -/
  | anchor (label : String) (identityEpoch generation : Nat) (observation : Observation) (now : String)
  /-- Any other write, which bumps the revision and leaves the publication tables alone. -/
  | other (change : Fleet → R → Fleet × R)

namespace Event

variable {R : Type} (rules : Rules)

def commit (c : Catalog R) : Event R → Except Failure (Catalog R)
  | .write scope bound calls => Prod.fst <$>
      scope.write rules bound (fun w => thread (Call.perform rules scope) w calls) c
  | .anchor label identityEpoch generation observation now =>
      publishAnchorLocked c none label identityEpoch generation observation now
  | .other change =>
      let (fleet, rest) := change c.fleet c.rest
      .ok { c with
        fleet := { fleet with plannerRevision := c.revision + 1, anchors := c.fleet.anchors }, rest }

/-- A transaction that fails is rolled back. -/
def step (c : Catalog R) (event : Event R) : Catalog R :=
  (event.commit rules c).toOption.getD c

/-- The calls of a transaction that is committed. -/
def accepted (c : Catalog R) (event : Event R) : List (Call R) :=
  match event, event.commit rules c with
  | .write _ _ calls, .ok _ => calls
  | _, _ => []

/-- The calls of a run that are accepted, in their order. -/
def history : Catalog R → List (Event R) → List (Call R)
  | _, [] => []
  | c, event :: events => event.accepted rules c ++ history (event.step rules c) events

end Event

variable {R : Type} (operationId : String)

/-- A file of an operation is in the catalog. -/
def Catalog.publishes (c : Catalog R) : Bool :=
  c.records.files.rows.any fun row => row.operationId == operationId && row.phase == .catalogPublished

/-- The records without the rows of an operation. -/
def Records.drop (records : Records) : Records :=
  { records with
    operations := records.operations.delete fun row => row.operationId == operationId
    participants := records.participants.delete fun row => row.operationId == operationId
    files := records.files.delete fun row => row.operationId == operationId
    batches := records.batches.delete fun row => row.operationId == operationId
    actions := records.actions.delete fun row => row.operationId == operationId }

/-- `_abort_unfinished`: what a registration does at its end, which is not a write of its scope. -/
def abortUnfinished (c : Catalog R) : Except Failure (Catalog R) := do
  -- `graph_write` is refused while a session is live, also when there is nothing to drop
  let fleet ← lift (c.fleet.bumpRevision false)
  let some row := c.records.operations.find operationId | return c
  if row.state = .prepared ∧ c.publishes operationId = false then do
    -- an obligation refers to its operation
    Library.require (!c.records.cloneObligations.rows.any fun clone => clone.operationId == operationId)
      .integrity
    return { c with fleet, records := c.records.drop operationId }
  else return c

/-- A write to the publication tables, or past them. -/
inductive Later (R : Type) where
  | ordinary (event : Event R)
  | abort (operationId : String)

/-- A transaction that fails is rolled back. -/
def Later.step (rules : Rules) (c : Catalog R) : Later R → Catalog R
  | .ordinary event => event.step rules c
  | .abort operationId => (abortUnfinished operationId c).toOption.getD c

end Modelark.Publication
