import Modelark.Publication.Writes

/-!
# What a publication's records say

In every run of the store's calls, failed and accepted, among other writers: a file goes through its
phases one by one, an operation is closed only with all of its files published and all of its batches
propagated, and none of its drives has a clean anchor before.
-/

namespace Modelark.Publication

open Library Execution
open Revision (Failure lift)
open Conversion (refused)

variable {R : Type} {rules : Rules} {scope : Scope} {c after : Catalog R} {w done : Owned R}
variable {operationId fileId batchId operationDigest : String}

/-- The phases from the first to this one. -/
def FilePhase.upTo (phase : FilePhase) : List FilePhase :=
  (.prepared :: proven).take (phase.index + 1)

theorem FilePhase.upTo_of_expected {phase expected : FilePhase} (known : phase.expected = some expected) :
    phase.upTo = expected.upTo ++ [phase] := by
  cases phase <;> cases known <;> rfl

/-- A proof that names the one before it. -/
def Receipt (rules : Rules) (row : FileRow) (operationDigest previous : String) (phase : FilePhase)
    (text : SealedText) : Prop :=
  ∃ receipt, unsealText rules.sha256 (some text) = .ok receipt ∧
    holds receipt "operation_digest" (.str operationDigest) = true ∧
    holds receipt "file_digest" (.str row.intent.digest) = true ∧
    holds receipt "file_id" (.str row.fileId) = true ∧ holds receipt "phase" (.str phase.text) = true ∧
    holds receipt "previous_proof_digest" (.str previous) = true

/-- The proofs of a published file chain to one another, from its intent on. -/
structure Chained (rules : Rules) (row : FileRow) (operationDigest : String)
    (localProof treeProof catalogProof : SealedText) : Prop where
  proofs : row.localProof = some localProof ∧ row.treeProof = some treeProof ∧
    row.catalogProof = some catalogProof
  first : Receipt rules row operationDigest row.intent.digest .localVerified localProof
  second : Receipt rules row operationDigest localProof.digest .treeVerified treeProof
  third : Receipt rules row operationDigest treeProof.digest .catalogPublished catalogProof

/-- A file of an operation's batch that is published. -/
def Published (rules : Rules) (c : Catalog R) (operationId batchId operationDigest fileId : String) : Prop :=
  ∃ row, c.records.files.find fileId = some row ∧ row.operationId = operationId ∧
    row.batchId = batchId ∧ row.phase = .catalogPublished ∧ row.committedRevision.isSome = true ∧
    ∃ localProof treeProof catalogProof,
      Chained rules row operationDigest localProof treeProof catalogProof

/-- Every batch that an operation is bound to is propagated, with every file of it published. -/
def Complete (rules : Rules) (c : Catalog R) (operationId : String) (text : SealedText) : Prop :=
  ∃ binding, unsealText rules.sha256 (some text) = .ok binding ∧ Scope.batchFiles binding ≠ [] ∧
    ∀ batch ∈ Scope.batchFiles binding,
      (∃ row, c.records.batches.find (operationId, batch.1) = some row ∧ row.phase = .propagated ∧
        row.committedRevision.isSome = true) ∧
      ∀ file ∈ Scope.children binding batch.1, ∃ fileId, file = .str fileId ∧
        Published rules c operationId batch.1 text.digest fileId

/-- A clean anchor of the generation that takes part. -/
def Anchored (c : Catalog R) (taking : Participant) : Prop :=
  ∃ anchor ∈ c.fleet.anchors, anchor.driveLabel = taking.driveLabel ∧
    anchor.identityEpoch = taking.identityEpoch ∧ anchor.generation = taking.generation

def IsPrepared (c : Catalog R) (operationId : String) : Prop :=
  ∃ row, c.records.operations.find operationId = some row ∧ row.state = .prepared

/-- The records after the accepted calls of a run. -/
structure Journaled (rules : Rules) (c : Catalog R) (calls : List (Call R)) : Prop where
  files : ∀ fileId, Call.phases fileId calls =
    ((c.records.files.find fileId).map fun row => row.phase.upTo).getD []
  known : ∀ row ∈ c.records.participants.rows,
    ∃ operation, c.records.operations.find row.operationId = some operation
  clean : ∀ operation ∈ c.records.operations.rows, operation.state = .prepared →
    ∀ row ∈ c.records.participants.rows, row.operationId = operation.operationId →
      ¬Anchored c row.participant
  complete : ∀ operation ∈ c.records.operations.rows, operation.state = .closed →
    Complete rules c operation.operationId operation.binding

/-- What is finished stays. -/
structure Finished (c after : Catalog R) (operationId : String) : Prop where
  files : ∀ fileId row, c.records.files.find fileId = some row → row.operationId = operationId →
    row.committedRevision.isSome = true → after.records.files.find fileId = some row
  batches : ∀ batchId row, c.records.batches.find (operationId, batchId) = some row →
    row.committedRevision.isSome = true → after.records.batches.find (operationId, batchId) = some row

theorem Complete.later {text : SealedText} (complete : Complete rules c operationId text)
    (finished : Finished c after operationId) : Complete rules after operationId text := by
  obtain ⟨binding, bound, filled, all⟩ := complete
  refine ⟨binding, bound, filled, fun batch listed => ?_⟩
  obtain ⟨⟨row, found, phase, committed⟩, files⟩ := all batch listed
  constructor
  · exact ⟨row, finished.batches batch.1 row found committed, phase, committed⟩
  · intro file child
    obtain ⟨fileId, same, row, found, operation, rest⟩ := files file child
    exact ⟨fileId, same, row, finished.files fileId row found operation rest.2.2.1, operation, rest⟩

/-- An anchor of a drive that no open operation has but this one. -/
def Closes (c : Catalog R) (operationId : String) (anchor : CleanAnchor) : Prop :=
  ∀ operation ∈ c.records.operations.rows, operation.state = .prepared →
    ∀ entry ∈ c.records.participants.rows, entry.operationId = operation.operationId →
      entry.participant.driveLabel = anchor.driveLabel → operation.operationId = operationId

/-- What a call does to the catalog, and the file that it puts into a phase. -/
inductive Change (rules : Rules) (c : Catalog R) : Option (String × FilePhase) → Catalog R → Prop where
  | operation (row : OperationRow) (taking : List ParticipantRow) (opening : List BatchRow)
      (operations : Table OperationRow.operationId) (participants : Table ParticipantRow.key)
      (batches : Table BatchRow.key) (begun : row.state = .prepared)
      (unmarked : row.lastRevision = none)
      (operationInserted : c.records.operations.insert? row = some operations)
      (participantsInserted : c.records.participants.insertAll? taking = some participants)
      (batchesInserted : c.records.batches.insertAll? opening = some batches)
      (dirty : ∀ entry ∈ taking, entry.operationId = row.operationId ∧ ¬Anchored c entry.participant) :
      Change rules c none { c with records :=
        { c.records with operations := operations, participants := participants, batches := batches } }
  | file (row : FileRow) (files : Table FileRow.fileId) (begun : row.phase = .prepared)
      (inserted : c.records.files.insert? row = some files) :
      Change rules c (some (row.fileId, .prepared)) (c.setFiles files)
  | advance (row : FileRow) (phase : FilePhase) (stored : SealedText) (drives : List FleetDrive) (rest : R)
      (found : c.records.files.find row.fileId = some row) (expected : phase.expected = some row.phase)
      (active : IsPrepared c row.operationId) :
      Change rules c (some (row.fileId, phase))
        (Catalog.setFiles { c with fleet := { c.fleet with drives }, rest } (c.records.files.update
          (fun other => other.fileId == row.fileId && other.operationId == row.operationId)
          (fun other => other.advanced phase stored) (fun other => other.advanced_fileId phase stored)))
  | batch (operationId batchId : String) (stored : SealedText) (active : IsPrepared c operationId) :
      Change rules c none (c.setBatches (c.records.batches.update
        (fun other => other.key == (operationId, batchId))
        (fun other => { other with phase := .propagated, mapProof := some stored }) (fun _ => rfl)))
  | close (row : OperationRow) (fleet : Fleet) (closure : String)
      (found : c.records.operations.find row.operationId = some row)
      (revision : fleet.plannerRevision = c.revision)
      (anchors : ∀ anchor ∈ fleet.anchors, anchor ∈ c.fleet.anchors ∨ Closes c row.operationId anchor)
      (complete : Complete rules c row.operationId row.binding) :
      Change rules c none (Catalog.setOperations { c with fleet } (c.records.operations.update
        (fun other => other.operationId == row.operationId)
        (fun other => { other with state := .closed, closure := some closure }) (fun _ => rfl)))
  | actions (actions : Table ActionRow.key) : Change rules c none (c.setActions actions)
  | same : Change rules c none c

end Modelark.Publication
