import Modelark.Publication.Records

/-!
# Publication scopes

A publication works in short transactions under fences on the map and on its drives. In each of them
it checks first that the fences, the owner and the operation's record are those that it relies on, and
puts off to the end, when the transaction has bumped the revision, what is to be marked with it.
-/

namespace Modelark.Publication

open Library Execution
open Revision (Failure lift refusal)
open Conversion (refused)

/-- What is not of this repository, and the rules of fence identities. -/
structure Rules where
  sha256 : Sha256
  fences : FenceRules

/-- What is done at the end of a transaction with its revision. -/
inductive Marker where
  | operation (operationId : String) (previous : Option Nat) (created : Bool)
  | action (operationId actionId sealHash : String) (status : ActionStatus)
  | file (fileId sealHash : String)
  | batch (operationId batchId sealHash : String)
  | closure (operationId : String) (previous : Nat)
  deriving Repr, DecidableEq

/-- The key under which a marker is registered once. -/
def Marker.key : Marker → Option (String × Option (String × ActionStatus))
  | .operation operationId _ _ => some (operationId, none)
  | .action operationId actionId _ status => some (operationId, some (actionId, status))
  | .file .. | .batch .. | .closure .. => none

/-- `_OwnedWrite`: the copy of the catalog that a transaction works on, the operation of its scope, what
    is put off, and whether the transaction has proven that it changes nothing. -/
structure Owned (R : Type) where
  catalog : Catalog R
  operationId : Option String
  finalizers : List Marker
  provenNoop : Bool

section Finalizers

variable {R : Type}

/-- An update of exactly one row, or else a refusal. -/
def updateOne {ρ κ : Type} {key : ρ → κ} (table : Table key) (code : String) (where' : ρ → Bool)
    (change : ρ → ρ) (keeps : ∀ row, key (change row) = key row) : Except Failure (Table key) := do
  require ((table.rows.filter where').length == 1) (refused code)
  return table.update where' change keeps

def Marker.finalize (revision : Nat) (c : Catalog R) : Marker → Except Failure (Catalog R)
  | .operation operationId previous created => do
      let unmarked (row : OperationRow) : Bool :=
        if created then row.createdRevision.isNone && row.lastRevision.isNone
        else row.lastRevision.isSome && row.lastRevision == previous
      let operations ← updateOne c.records.operations "PUBLICATION_REVISION_CAS_FAILED"
        (fun row => row.operationId == operationId && unmarked row)
        (fun row => { row with
          createdRevision := if created then some revision else row.createdRevision
          lastRevision := some revision }) (fun _ => rfl)
      return c.setOperations operations
  | .action operationId actionId sealHash status => do
      let marked (row : ActionRow) : Option Nat :=
        match status with
        | .prepared => row.preparedRevision
        | .verified => row.verifiedRevision
      let actions ← updateOne c.records.actions "PUBLICATION_ACTION_REVISION_CAS_FAILED"
        (fun row => row.key == (operationId, actionId) && row.intent.digest == sealHash &&
          row.status == status && (marked row).isNone)
        (fun row => { row with
          preparedRevision := if status = .prepared then some revision else row.preparedRevision
          verifiedRevision := if status = .verified then some revision else row.verifiedRevision })
        (fun _ => rfl)
      return c.setActions actions
  | .file fileId sealHash => do
      let files ← updateOne c.records.files "PUBLICATION_FILE_REVISION_CAS_FAILED"
        (fun row => row.fileId == fileId && row.committedRevision.isNone &&
          row.catalogProof.any fun proof => proof.digest == sealHash)
        (fun row => { row with committedRevision := some revision }) (fun _ => rfl)
      return c.setFiles files
  | .batch operationId batchId sealHash => do
      let batches ← updateOne c.records.batches "PUBLICATION_BATCH_REVISION_CAS_FAILED"
        (fun row => row.key == (operationId, batchId) && row.committedRevision.isNone &&
          row.mapProof.any fun proof => proof.digest == sealHash)
        (fun row => { row with committedRevision := some revision }) (fun _ => rfl)
      return c.setBatches batches
  | .closure operationId previous => do
      let operations ← updateOne c.records.operations "PUBLICATION_CLOSURE_CAS_FAILED"
        (fun row => row.operationId == operationId && row.lastRevision == some previous &&
          row.state == .closed && row.closedRevision.isNone)
        (fun row => { row with closedRevision := some revision, lastRevision := some revision })
        (fun _ => rfl)
      return c.setOperations operations

namespace Owned

variable (w : Owned R)

/-- `defer_revision`. -/
def deferRevision (marker : Marker) : Owned R :=
  { w with finalizers := w.finalizers ++ [marker] }

/-- `defer_revision_once`. -/
def deferRevisionOnce (marker : Marker) : Except Failure (Owned R) :=
  match w.finalizers.find? fun other => other.key == marker.key with
  | none => .ok (w.deferRevision marker)
  | some other => do
      require (other == marker) (.raised "CATALOG_WRITE_FINALIZER_CONFLICT")
      return w

/-- `_stamp_operation`. -/
def stampOperation (operationId : String) (previous : Option Nat) (created : Bool) :
    Except Failure (Owned R) :=
  w.deferRevisionOnce (.operation operationId previous created)

end Owned

end Finalizers

section Guards

variable {R : Type} (c : Catalog R)

/-- The operations that are not closed, each with the drives that take part; one without any stands for
    itself. -/
def openParticipants : List (OperationRow × Option String) :=
  (c.records.operations.rows.filter (·.state != .closed)).flatMap fun row =>
    match c.records.participants.rows.filter (·.operationId == row.operationId) with
    | [] => [(row, none)]
    | taking => taking.map fun entry => (row, some entry.participant.driveLabel)

/-- `require_clear`, inside the closing of an operation or outside. -/
def requireClear (closing : Option String) (driveLabels : Option (List String)) (treeChange : Bool) :
    Except Failure Unit := do
  let among (label : String) : Bool := driveLabels.all fun labels => labels.contains label
  thread (fun _ (entry : OperationRow × Option String) => do
    require (entry.1.libraryId == c.records.library.1) (refused "PUBLICATION_RECORD_UNPROVEN")
    require (entry.2.isSome || entry.1.kind == .registration) (refused "PUBLICATION_RECORD_UNPROVEN"))
    () (openParticipants c)
  let blocked := (openParticipants c).any fun entry =>
    match entry.2 with
    | none => true
    | some label => closing != some entry.1.operationId && among label
  let cloning := c.records.cloneObligations.rows.any fun clone =>
    clone.pending && (driveLabels.isNone || c.fleet.drives.any fun drive =>
      drive.fence.annexUuid == some clone.annexUuid && among drive.driveLabel)
  require (!blocked && !(treeChange && cloning)) (refused "MAINTENANCE_REQUIRED")

/-- `_publish_anchor_locked`. -/
def publishAnchorLocked (closing : Option String) (label : String) (identityEpoch generation : Nat)
    (observation : Observation) (now : String) : Except Failure (Catalog R) := do
  requireClear c closing (some [label]) false
  let fleet ← lift (c.fleet.publishAnchorLocked label identityEpoch generation observation now)
  return { c with fleet }

end Guards

/-- `_FenceScope`, its operation apart: the library, the drives with what their fences were taken for,
    and the session and token of the writer, if it is not an operator's. -/
structure Scope where
  library : String × String
  identities : List (String × FenceIdentity)
  writer : Option (String × Nat)

namespace Scope

variable {R : Type} (rules : Rules) (scope : Scope) (c : Catalog R)

/-- `sorted(scope.identities)`. -/
def labels : List String :=
  sortedSet (scope.identities.map Prod.fst)

/-- `require`, of fences that are held. -/
def require : Except Failure Unit := do
  Library.require (c.records.library == scope.library) (refused "PUBLICATION_LIBRARY_CHANGED")
  thread (fun _ entry => do
    let identity ← lift (c.fleet.fenceIdentity rules.fences entry.1)
    Library.require (identity == entry.2) (refused "PUBLICATION_DRIVE_IDENTITY_CHANGED"))
    () scope.identities

/-- `_require_owner`. -/
def requireOwner : Except Failure Unit :=
  match scope.writer with
  | some (sessionId, token) => lift (c.fleet.requireLiveSessionToken sessionId token)
  | none => Library.require (!c.fleet.sessions.liveExists) (refusal "FILL_SESSION_ACTIVE")

/-- `require_transaction`, in a transaction of the scope's own writer. -/
def requireTransaction : Except Failure Unit := do
  scope.require rules c
  scope.requireOwner c

/-- The dirty generation of one drive, of the owner that writes. -/
def participant (label : String) : Except Failure Participant := do
  let missing : Failure := refused "PUBLICATION_DIRTY_GENERATION_REQUIRED"
  let some drive := c.fleet.findDrive label | .error missing
  let some dirty := c.fleet.dirty.find? fun row => row.driveLabel == label &&
    row.identityEpoch == drive.fence.identityEpoch && row.generation == drive.writeGeneration
    | .error missing
  Library.require (!c.fleet.anchors.any fun anchor => anchor.driveLabel == label &&
    anchor.identityEpoch == drive.fence.identityEpoch && anchor.generation == drive.writeGeneration)
    missing
  let some annexUuid := drive.fence.annexUuid | .error (refused "PUBLICATION_UUID_INVALID")
  canonicalUuid annexUuid
  match scope.writer with
  | some owner =>
      Library.require (dirty.owner == some owner) (refused "PUBLICATION_GENERATION_OWNER_MISMATCH")
  | none =>
      Library.require dirty.owner.isNone (refused "PUBLICATION_MAINTENANCE_ADAPTER_REQUIRED")
  return ⟨label, annexUuid, drive.fence.identityEpoch, drive.writeGeneration,
    drive.fence.identityFingerprint, dirty.owner⟩

/-- `_participants`. -/
def participants : Except Failure (List Participant) :=
  collect (fun label => some <$> scope.participant c label) scope.labels

/-- The batches of a binding with their files. -/
def batchFiles (binding : Json) : List (String × Json) :=
  match binding.get? "batch_files" with
  | some (.obj batches) => batches
  | _ => []

/-- The files of a batch of a binding. -/
def children (binding : Json) (batchId : String) : List Json :=
  match (batchFiles binding).find? (·.1 == batchId) with
  | some (_, .arr files) => files
  | _ => []

/-- The participants of an operation as they are stored. -/
def storedParticipants (operationId : String) : Json :=
  .arr ((sortBy (·.participant.driveLabel) (c.records.participants.rows.filter
    (·.operationId == operationId))).map fun row => row.participant.json)

/-- `_load_bound_operation`: the binding, its digest and the revision. -/
def loadBoundOperation (operationId : String) : Except Failure (Json × String × Nat) := do
  let some row := c.records.operations.find operationId
    | .error (refused "PUBLICATION_OPERATION_NOT_ACTIVE")
  Library.require (row.state == .prepared) (refused "PUBLICATION_OPERATION_NOT_ACTIVE")
  let binding ← unsealText rules.sha256 (some row.binding)
  Library.require (holds binding "version" (.int protocol) && !(batchFiles binding).isEmpty &&
    holds binding "operation_id" (.str operationId) &&
    holds binding "library_id" (.str scope.library.1) && holds binding "map_uuid" (.str scope.library.2))
    (refused "PUBLICATION_OPERATION_BINDING_CHANGED")
  let current ← scope.participants c
  Library.require (holds binding "participants" (.arr (current.map Participant.json)))
    (refused "PUBLICATION_OPERATION_BINDING_CHANGED")
  Library.require (holds binding "participants" (storedParticipants c operationId) &&
    row.lastRevision == some c.revision) (refused "PUBLICATION_OPERATION_STALE")
  return (binding, row.binding.digest, c.revision)

/-- `load_owned_operation`. -/
def loadOwnedOperation (operationId : String) : Except Failure (Json × String × Nat) := do
  scope.requireTransaction rules c
  scope.loadBoundOperation rules c operationId

end Scope

end Modelark.Publication
