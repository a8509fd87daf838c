import Modelark.Publication.Actions

/-!
# The publication store

An operation is prepared with its batches and their files bound to it. Each file goes through its
phases, each batch is propagated when all its files are published, and the operation is closed when all
its batches are propagated; the clean anchors of its drives are published with that.
-/

namespace Modelark.Publication

open Library Execution
open Revision (Failure lift refusal)
open Conversion (refused)

/-- `_CATALOG_WRITE`: the operation, the file and the digest of its intent. -/
structure CatalogWrite where
  operationId : String
  fileId : String
  intentDigest : String
  deriving Repr, DecidableEq

/-- A callback that writes the tables outside the publication's own: the drives and the others. -/
abbrev CatalogCas (R : Type) :=
  CatalogWrite → Catalog R → Json → Except Failure (List FleetDrive × R)

/-- The chain of a file's proofs: every proof names the one before it. -/
def chainStep (rules : Rules) (row : FileRow) (operationDigest : String) (previous : String)
    (phase : FilePhase) : Except Failure String :=
  if row.phase.index < phase.index then do
    require (row.proof phase).isNone (refused "PUBLICATION_PHASE_PROOF_MISMATCH")
    return previous
  else do
    let receipt ← unsealText rules.sha256 (row.proof phase)
    require (holds receipt "operation_digest" (.str operationDigest) &&
      holds receipt "file_digest" (.str row.intent.digest) && holds receipt "file_id" (.str row.fileId) &&
      holds receipt "batch_id" (.str row.batchId) && holds receipt "phase" (.str phase.text) &&
      holds receipt "previous_proof_digest" (.str previous))
      (refused "PUBLICATION_FILE_PROOF_CHAIN_CHANGED")
    return ((row.proof phase).map SealedText.digest).getD ""

/-- `_file_chain`: the row, its intent and the digest of its latest proof. -/
def fileChain {R : Type} (rules : Rules) (c : Catalog R) (operationId fileId operationDigest : String) :
    Except Failure (FileRow × Json × String) := do
  let some row := (c.records.files.find fileId).filter (·.operationId == operationId)
    | .error (refused "PUBLICATION_FILE_UNSELECTED")
  let intent ← unsealText rules.sha256 (some row.intent)
  require (holds intent "operation_digest" (.str operationDigest) && holds intent "file_id" (.str fileId) &&
    holds intent "batch_id" (.str row.batchId)) (refused "PUBLICATION_FILE_BINDING_CHANGED")
  require (if row.phase = .catalogPublished then
      row.committedRevision.any fun committed => 0 < committed && committed ≤ c.revision
    else row.committedRevision.isNone) (refused "PUBLICATION_FILE_REVISION_UNPROVEN")
  let latest ← thread (chainStep rules row operationDigest) row.intent.digest FilePhase.proven
  return (row, intent, latest)

namespace Store

variable {R : Type} (rules : Rules) (scope : Scope)

/-- What an operation is bound to. -/
def binding (operationId : String) (kind : OperationKind) (profileDigest : String)
    (batchFiles : List (String × List String)) (beforeState : Json) (participants : List Participant) :
    Json :=
  .obj [("version", .int protocol), ("operation_id", .str operationId),
    ("library_id", .str scope.library.1), ("map_uuid", .str scope.library.2), ("kind", .str kind.text),
    ("profile_digest", .str profileDigest),
    ("participants", .arr (participants.map Participant.json)), ("before_state", beforeState),
    ("batch_files", .obj (batchFiles.map fun batch =>
      (batch.1, .arr ((sortBy id batch.2).map Json.str))))]

/-- What a batch is bound to. -/
def batchIntent (operationDigest : String) (files : List String) : Json :=
  .obj [("version", .int protocol), ("operation_digest", .str operationDigest),
    ("files", .arr ((sortBy id files).map Json.str))]

/-- `prepare_operation`. -/
def prepareOperation (operationId : String) (kind : OperationKind) (profileDigest : String)
    (batchFiles : List (String × List String)) (beforeState : Json) (w : Owned R) :
    Except Failure (Owned R × String) := do
  scope.requireTransaction rules w.catalog
  canonicalUuid operationId
  requireDigest profileDigest
  require ([.fill, .replica, .registration].contains kind) (refused "PUBLICATION_CONVERSION_DISABLED")
  require (!batchFiles.isEmpty) (refused "PUBLICATION_BATCHES_REQUIRED")
  thread (fun _ (batch : String × List String) => do
    canonicalUuid batch.1
    require (!batch.2.isEmpty) (refused "PUBLICATION_FILES_REQUIRED")
    thread (fun _ fileId => canonicalUuid fileId) () batch.2) () batchFiles
  require (decide (batchFiles.flatMap Prod.snd).Nodup) (refused "PUBLICATION_CHILD_ID_REUSED")
  requireClear w.catalog none (some scope.labels) true
  let participants ← scope.participants w.catalog
  let frozen := binding scope operationId kind profileDigest batchFiles beforeState participants
  let stored := sealText rules.sha256 frozen
  let records := w.catalog.records
  let conflict : Failure := refused "PUBLICATION_PREPARE_CONFLICT"
  let some operations := records.operations.insert?
    ⟨operationId, scope.library.1, kind, stored, .prepared, none, none, none, none⟩ | .error conflict
  require (participants.all Participant.storable) conflict
  let some taking := records.participants.insertAll? (participants.map (ParticipantRow.mk operationId))
    | .error conflict
  let some batches := records.batches.insertAll? (batchFiles.map fun batch =>
    ⟨operationId, batch.1, sealText rules.sha256 (batchIntent stored.digest batch.2), .prepared, none, none⟩)
    | .error conflict
  let prepared := { w with
    catalog := { w.catalog with
      records := { records with operations := operations, participants := taking, batches := batches } }
    provenNoop := false }
  let stamped ← prepared.stampOperation operationId none true
  return ({ stamped with operationId := some operationId }, stored.digest)

/-- `prepare_file`. -/
def prepareFile (operationId batchId fileId : String) (intent : Json) (w : Owned R) :
    Except Failure (Owned R × String) := do
  let (binding, operationDigest, revision) ← scope.loadOwnedOperation rules w.catalog operationId
  require ((Scope.children binding batchId).any (same (.str fileId)))
    (refused "PUBLICATION_FILE_UNSELECTED")
  let stored := sealText rules.sha256 (.obj [("version", .int protocol),
    ("operation_digest", .str operationDigest), ("batch_id", .str batchId), ("file_id", .str fileId),
    ("intent", intent)])
  let conflict : Failure := refused "PUBLICATION_FILE_PREPARE_CONFLICT"
  require (w.catalog.records.batches.has (operationId, batchId)) conflict
  let some files := w.catalog.records.files.insert?
    ⟨fileId, operationId, batchId, stored, .prepared, none, none, none, none⟩ | .error conflict
  let prepared := { w with catalog := w.catalog.setFiles files, provenNoop := false }
  let stamped ← prepared.stampOperation operationId (some revision) false
  return (stamped, stored.digest)

/-- The catalog after the callback of a file's last phase. -/
def callCas (catalogCas : Option (CatalogCas R)) (write : CatalogWrite) (frozen : Json) (c : Catalog R) :
    Except Failure (Catalog R) :=
  match catalogCas with
  | none => .ok c
  | some cas => do
      let some intent := frozen.get? "intent" | .error (.raised "KeyError: 'intent'")
      let (drives, rest) ← cas write c intent
      return { c with fleet := { c.fleet with drives }, rest }

/-- `advance_file`. -/
def advanceFile (operationId fileId : String) (phase : FilePhase) (proof : Json)
    (catalogCas : Option (CatalogCas R)) (w : Owned R) : Except Failure (Owned R × String) := do
  let (binding, operationDigest, revision) ← scope.loadOwnedOperation rules w.catalog operationId
  let some expected := phase.expected | .error (refused "PUBLICATION_PHASE_INVALID")
  let (row, intent, previous) ← fileChain rules w.catalog operationId fileId operationDigest
  require (row.phase == expected && (Scope.children binding row.batchId).any (same (.str fileId)))
    (refused "PUBLICATION_PHASE_CAS_FAILED")
  require ((phase == .catalogPublished) == catalogCas.isSome) (refused "PUBLICATION_CATALOG_CAS_REQUIRED")
  let called ← callCas catalogCas ⟨operationId, fileId, row.intent.digest⟩ intent w.catalog
  let stored := sealText rules.sha256 (.obj [("version", .int protocol),
    ("operation_digest", .str operationDigest), ("file_digest", .str row.intent.digest),
    ("phase", .str phase.text), ("proof", proof), ("file_id", .str fileId), ("batch_id", .str row.batchId),
    ("previous_proof_digest", .str previous)])
  let files := called.records.files.update
    (fun row => row.fileId == fileId && row.operationId == operationId)
    (fun row => row.advanced phase stored) (fun row => row.advanced_fileId phase stored)
  let advanced := { w with catalog := called.setFiles files, provenNoop := false }
  let marked :=
    if phase = .catalogPublished then advanced.deferRevision (.file fileId stored.digest) else advanced
  let stamped ← marked.stampOperation operationId (some revision) false
  return (stamped, stored.digest)

/-- The digest of a file's last proof, when the file is published. -/
def publishedChild (c : Catalog R) (operationId operationDigest : String) (revision : Nat)
    (row : FileRow) : Except Failure (Option (String × Json)) := do
  require (row.phase == .catalogPublished &&
    row.committedRevision.any fun committed => 0 < committed && committed ≤ revision)
    (refused "PUBLICATION_BATCH_CHILDREN_INCOMPLETE")
  let _ ← fileChain rules c operationId row.fileId operationDigest
  let receipt ← unsealText rules.sha256 row.catalogProof
  require (holds receipt "operation_digest" (.str operationDigest) &&
    holds receipt "phase" (.str row.phase.text)) (refused "PUBLICATION_FILE_BINDING_CHANGED")
  return some (row.fileId, .ofText (row.catalogProof.map SealedText.digest))

/-- The files of a batch, in order. -/
def filesOf (c : Catalog R) (operationId batchId : String) : List FileRow :=
  sortBy FileRow.fileId (c.records.files.rows.filter fun row =>
    row.operationId == operationId && row.batchId == batchId)

/-- `propagate_batch`. -/
def propagateBatch (operationId batchId : String) (mapProof : Json) (w : Owned R) :
    Except Failure (Owned R × String) := do
  let (binding, operationDigest, revision) ← scope.loadOwnedOperation rules w.catalog operationId
  let some batch := w.catalog.records.batches.find (operationId, batchId)
    | .error (refused "PUBLICATION_BATCH_CAS_FAILED")
  require (batch.phase == .prepared) (refused "PUBLICATION_BATCH_CAS_FAILED")
  let intent ← unsealText rules.sha256 (some batch.intent)
  require (holds intent "operation_digest" (.str operationDigest) &&
    (((Scope.batchFiles binding).find? (·.1 == batchId)).any fun bound => holds intent "files" bound.2))
    (refused "PUBLICATION_BATCH_BINDING_CHANGED")
  let files := filesOf w.catalog operationId batchId
  require (holds intent "files" (.arr (files.map fun row => .str row.fileId)))
    (refused "PUBLICATION_BATCH_CHILDREN_INCOMPLETE")
  let published ← collect (publishedChild rules w.catalog operationId operationDigest revision) files
  let stored := sealText rules.sha256 (.obj [("version", .int protocol),
    ("operation_digest", .str operationDigest), ("batch_digest", .str batch.intent.digest),
    ("children", .obj published), ("map_proof", mapProof)])
  let batches := w.catalog.records.batches.update (fun row => row.key == (operationId, batchId))
    (fun row => { row with phase := .propagated, mapProof := some stored }) (fun _ => rfl)
  let propagated := { w with catalog := w.catalog.setBatches batches, provenNoop := false }
  let marked := propagated.deferRevision (.batch operationId batchId stored.digest)
  let stamped ← marked.stampOperation operationId (some revision) false
  return (stamped, stored.digest)

/-- The published files of a batch with the digests of their last proofs. -/
def currentChildren (c : Catalog R) (operationId batchId : String) : List (String × Json) :=
  ((filesOf c operationId batchId).filter fun row =>
    row.phase == .catalogPublished && row.committedRevision.isSome).map fun row =>
      (row.fileId, .ofText (row.catalogProof.map SealedText.digest))

/-- A batch that is complete, with the digest of its proof. -/
def closedBatch (c : Catalog R) (operationId operationDigest : String) (binding : Json) (revision : Nat)
    (row : BatchRow) : Except Failure (Option (String × Json)) := do
  require (row.phase == .propagated &&
    row.committedRevision.any fun committed => 0 < committed && committed ≤ revision)
    (refused "PUBLICATION_CLOSURE_BATCHES_INCOMPLETE")
  let receipt ← unsealText rules.sha256 row.mapProof
  let intent ← unsealText rules.sha256 (some row.intent)
  let bound := .arr (Scope.children binding row.batchId)
  require (holds intent "operation_digest" (.str operationDigest) && holds intent "files" bound &&
    holds receipt "batch_digest" (.str row.intent.digest)) (refused "PUBLICATION_BATCH_BINDING_CHANGED")
  let current := currentChildren c operationId row.batchId
  require (holds receipt "operation_digest" (.str operationDigest) &&
    holds receipt "children" (.obj current) && same (.arr (current.map fun child => .str child.1)) bound)
    (refused "PUBLICATION_BATCH_CHILDREN_CHANGED")
  thread (fun _ child => do
    let _ ← fileChain rules c operationId child.1 operationDigest
    return ()) () current
  return some (row.batchId, .ofText (row.mapProof.map SealedText.digest))

/-- `close_operation`. -/
def closeOperation (operationId : String) (observations : List (String × Observation))
    (inventoryProofs : List (String × Json)) (now : String) (w : Owned R) :
    Except Failure (Owned R × String) := do
  let (binding, operationDigest, revision) ← scope.loadOwnedOperation rules w.catalog operationId
  require (sortedSet (observations.map Prod.fst) == scope.labels &&
    sortedSet (inventoryProofs.map Prod.fst) == scope.labels)
    (refused "PUBLICATION_CLOSURE_PARTICIPANTS_INCOMPLETE")
  let receipts ← Actions.verifiedReceipts rules scope w
  let batches := sortBy BatchRow.batchId (w.catalog.records.batches.rows.filter
    (·.operationId == operationId))
  require (batches.map BatchRow.batchId == sortBy id ((Scope.batchFiles binding).map Prod.fst))
    (refused "PUBLICATION_CLOSURE_BATCHES_INCOMPLETE")
  let seals ← collect (closedBatch rules w.catalog operationId operationDigest binding revision) batches
  let closure := Json.obj [("version", .int protocol), ("operation_digest", .str operationDigest),
    ("batches", .obj seals), ("inventory_proofs", .obj inventoryProofs), ("actions", .arr receipts)]
  let participants ← scope.participants w.catalog
  let anchored ← thread (fun c (taking : Participant) => do
    let some (_, observation) := observations.find? (·.1 == taking.driveLabel)
      | .error (.raised "KeyError")
    publishAnchorLocked c (some operationId) taking.driveLabel taking.identityEpoch taking.generation
      observation now) w.catalog participants
  let operations := anchored.records.operations.update (·.operationId == operationId)
    (fun row => { row with state := .closed, closure := some (canonical closure) }) (fun _ => rfl)
  let closed := { w with catalog := anchored.setOperations operations, provenNoop := false }
  return (closed.deferRevision (.closure operationId revision), digest rules.sha256 closure)

end Store

end Modelark.Publication
