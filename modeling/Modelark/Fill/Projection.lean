import Modelark.Library.Fallible
import Modelark.Proposal.Stored

/-!
# Execution projection

What is left to do of an approved proposal, derived from its own file rows and the archive: the tasks
that are not complete, in approved order, or a typed refusal when the catalog no longer supports the
approval.
-/

namespace Modelark.Fill

open Modelark.Archive Library Planning Proposal Execution

structure DriveState where
  lifecycle : String
  identityEpoch : Option Nat
  offline : Bool
  deriving Repr, DecidableEq

/-- Capacity evidence, as far as the projection reads it. -/
structure EvidenceState where
  executable : Bool
  kind : Option String
  code : Option String
  deriving Repr, DecidableEq

structure ProjectionInput where
  /-- Manifest hashes by repository. -/
  manifests : List (String × String)
  drives : List (String × DriveState)
  archived : List ArchivedFileFact
  evidence : List (String × EvidenceState)
  observedRatio : List (String × ℚ)
  executionInvariants : Option String
  certificates : List (String × String)

structure ProjectionGraph where
  requirementIds : List String
  requirementSetHash : Option String

inductive ScheduleState where
  | ready
  | waitingDependency
  | parkedGated
  deriving Repr, DecidableEq

def ScheduleState.value : ScheduleState → String
  | .ready => "ready"
  | .waitingDependency => "waiting_dependency"
  | .parkedGated => "parked_gated"

structure ProjectedTask where
  row : TaskRow
  schedule : ScheduleState
  deriving Repr, DecidableEq

structure ExecutionProjection where
  proposalId : String
  tasks : List ProjectedTask
  projectionHash : String

inductive ProjectionRefusal where
  | approvalMissing (lifecycle : Lifecycle)
  | requirementSetChanged
  | expandedRequirements (extra : List String)
  | invariantsChanged
  | manifestChanged (repo : String)
  | driveLifecycle (drive lifecycle : String)
  | epochChanged (drive : String) (expected : Int) (current : Nat)
  | epochJumped (drive : String) (current : Nat)
  | missingSatisfyingDrive
  | baselineDriveInvalid (drive : String)
  | baselineArchiveMissing (drive repo : String)
  | baselineCertificateMismatch (task drive repo : String)
  | missingFileAuthority (requirementId repo : String)
  | emptyFileAuthority (requirementId repo : String)
  | missingGuaranteedDurable (requirementId repo : String)
  | compressionBudget (repo : String) (ratio : ℚ)
  | storedBytesOverrun (repo : String) (stored : Nat)
  | sourceNotReady (source repo : String)
  | capacityEvidenceUnknown (drive : String) (evidenceCode : Option String) (offline : Bool)
  deriving DecidableEq

def ProjectionRefusal.code : ProjectionRefusal → String
  | .approvalMissing _ => "APPROVAL_MISSING"
  | .requirementSetChanged | .expandedRequirements _ | .invariantsChanged | .manifestChanged _
  | .missingFileAuthority .. | .emptyFileAuthority .. => "APPROVED_INPUT_CHANGED"
  | .driveLifecycle .. | .missingSatisfyingDrive | .baselineDriveInvalid _
  | .baselineArchiveMissing .. | .baselineCertificateMismatch .. | .missingGuaranteedDurable ..
  | .sourceNotReady .. => "APPROVAL_PROJECTION_VIOLATION"
  | .epochChanged .. | .epochJumped .. => "APPROVED_TARGET_IDENTITY_CHANGED"
  | .compressionBudget .. | .storedBytesOverrun .. => "APPROVED_PLACEMENT_NO_LONGER_FEASIBLE"
  | .capacityEvidenceUnknown .. => "CAPACITY_EVIDENCE_UNKNOWN"

/-- The recorded reason of a refusal, where it has one. -/
def ProjectionRefusal.reason : ProjectionRefusal → Option String
  | .approvalMissing _ | .epochChanged .. | .epochJumped .. | .capacityEvidenceUnknown .. => none
  | .requirementSetChanged => some "requirement_set_hash"
  | .expandedRequirements _ => some "expanded_requirements"
  | .invariantsChanged => some "execution_invariants"
  | .manifestChanged _ => some "full_manifest_hash"
  | .driveLifecycle .. => some "drive_lifecycle"
  | .missingSatisfyingDrive => some "missing_satisfying_drive"
  | .baselineDriveInvalid _ => some "baseline_drive_invalid"
  | .baselineArchiveMissing .. => some "baseline_archive_missing"
  | .baselineCertificateMismatch .. => some "baseline_certificate_mismatch"
  | .missingFileAuthority .. => some "missing_proposal_file_authority"
  | .emptyFileAuthority .. => some "empty_proposal_file_authority"
  | .missingGuaranteedDurable .. => some "missing_guaranteed_durable"
  | .compressionBudget .. => some "compression_budget"
  | .storedBytesOverrun .. => some "stored_bytes_overrun"
  | .sourceNotReady .. => some "source_not_ready"

def ProjectionRefusal.actions : ProjectionRefusal → List String
  | .epochChanged .. | .epochJumped .. => ["correct_mount", "preview_again"]
  | .capacityEvidenceUnknown _ code _ =>
      if code = some "DRIVE_SERIAL_REPAIR_REQUIRED" then
        ["inspect_serial_identity", "repair_serial_identity", "preview_again"]
      else ["mount_and_reconcile", "resume_same_approval"]
  | .driveLifecycle .. | .missingSatisfyingDrive | .baselineDriveInvalid _
  | .baselineArchiveMissing .. | .baselineCertificateMismatch .. | .missingGuaranteedDurable ..
  | .sourceNotReady .. => ["inspect_integrity"]
  | _ => ["preview_again"]

/-- A label that is present and not empty. -/
def labelled (label : Option String) : Option String :=
  label.filter (· ≠ "")

section Evidence

variable (u : Unicode) (archived : List ArchivedFileFact)

/-- The row of one file on one drive; the last one written counts. -/
def archivedRow (repo rfilename drive : String) : Option ArchivedFileFact :=
  archived.reverse.find? fun row =>
    row.repoId == repo && row.driveLabel == drive && row.rfilename == rfilename

/-- `_file_content_satisfied`: the digest of the stored copy against the approved one. -/
def fileContentSatisfied (repo drive : String) (file : FileRow) : Bool :=
  (archivedRow archived repo file.rfilename drive).any fun row =>
    u.contentSatisfies file.origSha256 row.origSha256 (some row.compressed) row.annexKey

def storedBytes (repo rfilename drive : String) : Nat :=
  ((archivedRow archived repo rfilename drive).bind ArchivedFileFact.storedBytes).getD 0

def allFilesContentSatisfied (repo : String) (files : List FileRow) (drive : Option String) : Bool :=
  match labelled drive with
  | none => false
  | some drive => !files.isEmpty && files.all (fileContentSatisfied u archived repo drive)

def approvedStoredSum (repo : String) (files : List FileRow) (drive : Option String) : Nat :=
  match labelled drive with
  | none => 0
  | some drive => total (fun file : FileRow => storedBytes archived repo file.rfilename drive) files

end Evidence

/-- The approved files of a requirement. -/
def fileGroup (proposal : Loaded) (requirementId : String) : List FileRow :=
  proposal.files.filter (·.requirementId == requirementId)

def usableFiles (files : List FileRow) : List FileRow :=
  files.filter (·.rfilename ≠ "")

/-- `_primary_executable_unfinished`; a primary without file authority counts as unfinished. -/
def primaryUnfinished (u : Unicode) (proposal : Loaded) (archived : List ArchivedFileFact)
    (repo : String) : Bool :=
  match proposal.tasks.find? fun task =>
      task.requirementId == "primary:" ++ repo && task.rowKind == .executable with
  | none => false
  | some task =>
      let usable := usableFiles (fileGroup proposal ("primary:" ++ repo))
      usable.isEmpty || !allFilesContentSatisfied u archived repo usable task.targetDrive

section Checks

variable (proposal : Loaded) (input : ProjectionInput) (graph : ProjectionGraph)

/-- The desired requirements, or else the approved ones. -/
def graphIds : List String :=
  if graph.requirementIds = [] then proposal.tasks.map TaskRow.requirementId
  else graph.requirementIds

def checkRequirements : Option ProjectionRefusal :=
  let extra := (graphIds proposal graph).filter
    (· ∉ proposal.tasks.map TaskRow.requirementId)
  if truthy proposal.header.requirementSetHash ∧ truthy graph.requirementSetHash ∧
      proposal.header.requirementSetHash ≠ graph.requirementSetHash then
    some .requirementSetChanged
  else if extra = [] then none
  else some (.expandedRequirements (sortedSet extra))

/-- Only two digests are compared. -/
def checkInvariants : Option ProjectionRefusal :=
  match input.executionInvariants, proposal.header.semanticInputHash with
  | some current, some approved =>
      if current ≠ approved ∧ current.length = 64 ∧ approved.length = 64 then
        some .invariantsChanged
      else none
  | _, _ => none

def checkManifest (task : TaskRow) : Option ProjectionRefusal :=
  if task.repoId = "" ∨ task.fullManifestHash = "" then none
  else (Dict.ofPairs input.manifests)[task.repoId]?.bind fun hash =>
    if hash ≠ task.fullManifestHash then some (.manifestChanged task.repoId) else none

def lifecycleOf (drive : DriveState) : String :=
  orDefault drive.lifecycle "active"

def isGone (drive : DriveState) : Bool :=
  lifecycleOf drive = "lost" || lifecycleOf drive = "retired"

/-- A known drive that the task names is lost or retired. -/
def checkLifecycle (task : TaskRow) : Option ProjectionRefusal :=
  [task.targetDrive, task.satisfyingDrive, task.sourceDrive].findSome? fun named =>
    (labelled named).bind fun label => (Dict.ofPairs input.drives)[label]?.bind fun drive =>
      if isGone drive then some (.driveLifecycle label (lifecycleOf drive)) else none

/-- The epoch of the task's drive differs from the approved one, or is out of range. -/
def checkIdentity (task : TaskRow) : Option ProjectionRefusal :=
  (labelled task.targetDrive <|> labelled task.satisfyingDrive).bind fun label =>
    (Dict.ofPairs input.drives)[label]?.bind fun drive => drive.identityEpoch.bind fun current =>
      match task.identityEpoch.filter (· ≠ (current : Int)) with
      | some expected => some (.epochChanged label expected current)
      | none => if 99 ≤ current then some (.epochJumped label current) else none

/-- The certificate of a copy that was there when the proposal was made still holds. -/
def checkBaseline (task : TaskRow) : Option ProjectionRefusal :=
  if task.rowKind ≠ .baselineSatisfied then none
  else
    match labelled task.satisfyingDrive <|> labelled task.targetDrive with
    | none => some .missingSatisfyingDrive
    | some label =>
        if ((Dict.ofPairs input.drives)[label]?.all isGone) then some (.baselineDriveInvalid label)
        else
          let current := (Dict.ofPairs input.certificates)[task.requirementId]?
          if current = some "__MISSING__" then some (.baselineArchiveMissing label task.repoId)
          else if !truthy task.baselineCertificate ∨ current = none ∨
              current ≠ task.baselineCertificate then
            some (.baselineCertificateMismatch task.requirementId label task.repoId)
          else none

end Checks

section Tasks

variable (u : Unicode) (proposal : Loaded) (input : ProjectionInput) (parked : List String)

/-- Whether the source of a copy is there, is still awaited, or was lost. -/
def schedule (task : TaskRow) (usable : List FileRow) : Except ProjectionRefusal ScheduleState :=
  match labelled task.sourceDrive with
  | none => .ok .ready
  | some source =>
      if allFilesContentSatisfied u input.archived task.repoId usable task.sourceDrive then .ok .ready
      else if primaryUnfinished u proposal input.archived task.repoId then .ok .waitingDependency
      else .error (.sourceNotReady source task.repoId)

/-- An offline target needs executable evidence, and no target may have unknown evidence. -/
def checkTargetEvidence (task : TaskRow) : Option ProjectionRefusal :=
  (labelled task.targetDrive).bind fun target =>
    ((Dict.ofPairs input.evidence)[target]?.filter (!·.executable)).bind fun evidence =>
      if (Dict.ofPairs input.drives)[target]?.any DriveState.offline then
        some (.capacityEvidenceUnknown target evidence.code true)
      else if evidence.kind = some "unknown" then
        some (.capacityEvidenceUnknown target evidence.code false)
      else none

/-- Feasibility of a task before it may shrink out. -/
def checkBudget (task : TaskRow) (durable : Int) (usable : List FileRow) :
    Option ProjectionRefusal :=
  let stored := approvedStoredSum input.archived task.repoId usable task.targetDrive
  match ((Dict.ofPairs input.observedRatio)[task.repoId]?).filter (10 ≤ ·) with
  | some ratio => some (.compressionBudget task.repoId ratio)
  | none =>
      if 0 < durable ∧ max (durable * 1000) (10 ^ 12) < (stored : Int) then
        some (.storedBytesOverrun task.repoId stored)
      else none

/-- One turn of the loop over the approved tasks: a complete task is dropped. -/
def projectTask (task : TaskRow) : Except ProjectionRefusal (Option ProjectedTask) :=
  if task.rowKind ≠ .executable then .ok none
  else
    let group := fileGroup proposal task.requirementId
    let usable := usableFiles group
    if group = [] then .error (.missingFileAuthority task.requirementId task.repoId)
    else if usable = [] then .error (.emptyFileAuthority task.requirementId task.repoId)
    else
      match task.guaranteedDurable with
      | none => .error (.missingGuaranteedDurable task.requirementId task.repoId)
      | some durable =>
          match checkBudget input task durable usable with
          | some refused => .error refused
          | none =>
              if allFilesContentSatisfied u input.archived task.repoId usable task.targetDrive then
                .ok none
              else
                match schedule u proposal input task usable, checkTargetEvidence input task with
                | .error refused, _ => .error refused
                | .ok _, some refused => .error refused
                | .ok state, none =>
                    .ok (some ⟨task, if task.repoId ∈ parked then .parkedGated else state⟩)

/-- Approved order. -/
def executionKey (task : ProjectedTask) : Int ×ₗ String :=
  toLex (task.row.orderKey, task.row.requirementId)

def ProjectedTask.json (task : ProjectedTask) : Json :=
  .dict (task.row.fields ++ [("schedule_state", .str task.schedule.value)])

def canonicalProjectionHash (sha : Digester) (tasks : List ProjectedTask) : String :=
  sha.hash (Json.arr (tasks.map ProjectedTask.json)).dumps

/-- The checks of the proposal as a whole, in order. -/
def checkProposal (graph : ProjectionGraph) : Option ProjectionRefusal :=
  if proposal.lifecycle ≠ .approved then some (.approvalMissing proposal.lifecycle)
  else
    checkRequirements proposal graph <|> checkInvariants proposal input <|>
      proposal.tasks.findSome? (checkManifest input) <|>
      proposal.tasks.findSome? (checkLifecycle input) <|>
      proposal.tasks.findSome? (checkIdentity input) <|>
      proposal.tasks.findSome? (checkBaseline input)

/-- `project_pure`. -/
def projectPure (sha : Digester) (graph : ProjectionGraph) :
    Except ProjectionRefusal ExecutionProjection :=
  match checkProposal proposal input graph with
  | some refused => .error refused
  | none =>
      match collect (projectTask u proposal input parked) proposal.tasks with
      | .error refused => .error refused
      | .ok remaining =>
          let projected := sortBy executionKey remaining
          .ok ⟨proposal.proposalId, projected, canonicalProjectionHash sha projected⟩

end Tasks

end Modelark.Fill
