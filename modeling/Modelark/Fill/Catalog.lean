import Modelark.Fill.Projection
import Modelark.Revision.Evidence

/-!
# The catalog behind a fill

What a preview reads of the catalog's tables, what approving its proposal does to them, and the current
facts that the projection compares an approved proposal with.
-/

namespace Modelark.Revision.Tables

open Modelark.Archive Library Planning Proposal Execution

variable (tables : Tables)

/-- The members of a plan in label order, with both halves of their `drives` row. -/
def planMembers (planId : String) : List (FleetDrive × DriveColumns) :=
  sortBy (·.1.driveLabel) ((tables.drives.filterMap fun drive =>
    (tables.driveColumns.find drive.driveLabel).map fun columns => (drive, columns)).filter
      fun member => tables.planDrives.has (planId, member.1.driveLabel))

/-- What the semantic input of a successor plan takes from outside the tables. -/
structure SuccessorRules where
  unicode : Unicode
  safetyFloor : Nat → Bool → Nat
  loadProposal : String → Option Loaded

/-- `SuccessorPreference`, as the semantic input records it. -/
structure SuccessorLane where
  predecessorDrive : String
  successorDrive : String
  laneBytes : Nat
  baselineTargets : List (String × String)

/-- `_successor_args`. -/
def successorArgs (u : Unicode) (mutation : Proposal.Mutation) : Option (String × String × String) :=
  match mutation.args.map u.strip with
  | [predecessor, successor, baseline] =>
      if mutation.kind ≠ "successor_replan" ∨ predecessor = "" ∨ successor = "" ∨ baseline = "" ∨
          predecessor = successor then none
      else some (predecessor, successor, baseline)
  | _ => none

/-- `_canonical_requirement_id`. -/
def canonicalRequirementId (task : TaskRow) : String :=
  let repo := orDefault task.repoId (Placement.repoOf task.requirementId)
  if "replica:".toList.isPrefixOf task.requirementId.toList then "protected_replica:" ++ repo
  else if "primary:".toList.isPrefixOf task.requirementId.toList ∧
      (tables.models.find repo).any (2 ≤ ·.numcopies) then "protected_home:" ++ repo
  else task.requirementId

/-- The planned targets of a baseline's executable rows. -/
def baselineTargets (baseline : Loaded) : List (String × String) :=
  sortBy toLex (baseline.tasks.filterMap fun task =>
    if task.rowKind = .executable then
      (task.targetDrive.filter (· ≠ "") <|> task.satisfyingDrive.filter (· ≠ "")).map fun label =>
        (tables.canonicalRequirementId task, label)
    else none)

/-- `successor_preference`, without the demands on the active baseline and on the current drives. -/
def successorPreference (rules : SuccessorRules) (planId : String) (mutation : Proposal.Mutation) :
    Except String SuccessorLane :=
  match successorArgs rules.unicode mutation with
  | none => .error "SUCCESSOR_ARGUMENTS_INVALID"
  | some (predecessor, successor, baselineId) =>
      match rules.loadProposal baselineId with
      | none => .error "SUCCESSOR_BASELINE_MISSING"
      | some baseline =>
          if baseline.header.planId ≠ planId then .error "SUCCESSOR_BASELINE_PLAN_MISMATCH"
          else
            let member (label : String) := (tables.planMembers planId).find? (·.1.driveLabel == label)
            match member predecessor, member successor with
            | some (drive, columns), some _ =>
                let capacity := columns.capacityBytes.getD 0
                let filesystem := (drive.fence.filesystemCapacityBytes.or columns.capacityBytes).getD 0
                let known := min capacity (if filesystem = 0 then capacity else filesystem)
                let lane := known - rules.safetyFloor known columns.raidBacked
                if lane = 0 then .error "SUCCESSOR_PREDECESSOR_CAPACITY_UNKNOWN"
                else .ok ⟨predecessor, successor, lane, tables.baselineTargets baseline⟩
            | _, _ => .error "SUCCESSOR_DRIVE_NOT_IN_PLAN"

def SuccessorLane.json (lane : SuccessorLane) : Json :=
  .dict
    [("predecessor_drive", .str lane.predecessorDrive), ("successor_drive", .str lane.successorDrive),
      ("lane_bytes", .int lane.laneBytes),
      ("baseline_targets", .arr (lane.baselineTargets.map fun target =>
        .arr [.str target.1, .str target.2]))]

/-- The selection, the models and the drives of the plan, and the mutation. -/
def semanticFields (planId : String) (mutation : Proposal.Mutation) : List (String × Json) :=
  [("selection", .arr ((sortBy SelectionRow.repoId tables.selection.rows).map fun row =>
      .arr [.str row.repoId, .ofText row.finalizedAt])),
    ("models", .arr ((sortBy ModelRow.repoId tables.models.rows).map fun row =>
      .arr [.str row.repoId, .int row.numcopies])),
    ("drives", .arr ((tables.planMembers planId).map fun member =>
      .arr [.str member.1.driveLabel, .int member.1.fence.identityEpoch,
        .ofText member.1.fence.identityFingerprint, .str member.2.lifecycle,
        .str member.2.eligibility])),
    ("mutation", .arr [.str mutation.kind, .arr (mutation.args.map .str)])]

/-- The text that `_semantic_input_hash` hashes. -/
def semanticInput (rules : SuccessorRules) (planId : String) (mutation : Proposal.Mutation) :
    Except String String :=
  let fields := tables.semanticFields planId mutation
  if mutation.kind = "successor_replan" then
    (tables.successorPreference rules planId mutation).map fun lane =>
      (Json.dict (fields ++ [("successor_preference", lane.json)])).dumps
  else .ok (Json.dict fields).dumps

/-- `_selected_repos`: a finalization is previewed on the whole cart. -/
def selectedRepos (mutation : Proposal.Mutation) : List String :=
  if mutation.kind = "finalize" then
    sortedSet (tables.selection.rows.map SelectionRow.repoId ++ mutation.args)
  else sortedSet tables.facts.finalized

def fileLabel (repo : String) (mf : ManifestFile) : FileLabel :=
  match tables.files.find (repo, mf.rfilename) with
  | some row => ⟨row.format.getD "", row.quant⟩
  | none => ⟨"", none⟩

/-- The identity that a proposal records of a drive. -/
def driveIdentity (label : String) : DriveIdentity :=
  match tables.drives.find? (·.driveLabel == label) with
  | some drive => ⟨drive.fence.identityEpoch, drive.fence.identityFingerprint.getD ""⟩
  | none => ⟨0, ""⟩

/-- `_manifest_hash` of the catalog's files. -/
def currentManifestHash (sha : Digester) (rules : ReadRules) (repo : String) :
    Except PolicyError String :=
  (selectManifest rules (tables.facts.filesOf repo)).map (manifestHash sha (tables.fileLabel repo))

/-- Another archive, and everything else as it was. -/
def withArchived (archived : Table ArchivedRow.key) : Tables :=
  { tables with archived }

@[simp] theorem archived_withArchived (archived : Table ArchivedRow.key) :
    (tables.withArchived archived).archived = archived := rfl

@[simp] theorem semanticInput_withArchived (archived : Table ArchivedRow.key) (rules : SuccessorRules)
    (planId : String) (mutation : Proposal.Mutation) :
    (tables.withArchived archived).semanticInput rules planId mutation =
      tables.semanticInput rules planId mutation := rfl

@[simp] theorem currentManifestHash_withArchived (archived : Table ArchivedRow.key) (sha : Digester)
    (rules : ReadRules) (repo : String) :
    (tables.withArchived archived).currentManifestHash sha rules repo =
      tables.currentManifestHash sha rules repo := rfl

@[simp] theorem finalized_withArchived (archived : Table ArchivedRow.key) :
    (tables.withArchived archived).facts.finalized = tables.facts.finalized := rfl

/-- What `approve` does to the selection; other mutations are refused. -/
def approved (now : String) (mutation : Proposal.Mutation) : Except Failure Tables :=
  if mutation.kind = "adopt_current" then tables.applyMutation now .adoptCurrent
  else if mutation.kind = "successor_replan" then tables.applyMutation now .successorReplan
  else if mutation.kind = "finalize" then tables.applyMutation now (.finalize mutation.args)
  else .error (refusal "MUTATION_MISMATCH")

/-- The checks of the schema that a projection relies on. -/
structure Checked (tables : Tables) : Prop where
  repos : ∀ row ∈ tables.files.rows, row.repoId ≠ ""
  named : ∀ row ∈ tables.files.rows, row.rfilename ≠ ""
  labelled : ∀ drive ∈ tables.drives, drive.driveLabel ≠ ""
  epochs : ∀ drive ∈ tables.drives, 1 ≤ drive.fence.identityEpoch

end Modelark.Revision.Tables

namespace Modelark.Fill

open Modelark.Archive Library Planning Proposal Execution
open Revision (Tables ReadRules PolicyError)

/-- A preview that took its facts from the tables. -/
structure ReadFrom (rules : ReadRules) (successor : Tables.SuccessorRules) (tables : Tables)
    (facts : PreviewFacts) : Prop where
  planner : facts.input.planner = (tables.facts.capture rules facts.planId
    (some (tables.selectedRepos facts.mutation))).planner
  errors : facts.input.policyErrors = (tables.facts.capture rules facts.planId
    (some (tables.selectedRepos facts.mutation))).errors.map Prod.fst
  labels : facts.labels = tables.fileLabel
  identity : facts.identity = tables.driveIdentity
  archived : facts.archived = tables.facts.archived
  semantic : tables.semanticInput successor facts.planId facts.mutation = .ok facts.semanticInput

inductive BundleRefusal where
  | missingDriveEvidence (drives : List String)
  | manifestPolicy (repo : String) (error : PolicyError)
  | semanticInputUnavailable (cause : String)
  deriving DecidableEq

/-- The mutation that a proposal records; its arguments are texts. -/
def recordedMutation (header : Header) : Proposal.Mutation where
  kind := orDefault header.mutationKind "adopt_current"
  args := header.mutationArgs.filterMap fun
    | .str text => some text
    | _ => none

/-- `_proposal_drive_ids`. -/
def proposalDriveIds (proposal : Loaded) : List String :=
  sortedSet (proposal.tasks.flatMap fun task =>
    [task.targetDrive, task.sourceDrive, task.satisfyingDrive].filterMap labelled)

section Bundle

variable (sha : Digester) (rules : ReadRules) (successor : Tables.SuccessorRules) (tables : Tables)
  (proposal : Loaded)

def unprovenFingerprint : String :=
  String.ofList (List.replicate 64 '0')

/-- A drive with the defaults of the bundle; an unknown drive counts as offline. -/
def driveState (label : String) : DriveState × DriveIdentity :=
  match tables.drives.find? (·.driveLabel == label), tables.driveColumns.find label with
  | some drive, some columns =>
      let epoch := if drive.fence.identityEpoch = 0 then 1 else drive.fence.identityEpoch
      (⟨orDefault columns.lifecycle "active", some epoch, false⟩,
        ⟨epoch, orDefault (drive.fence.identityFingerprint.getD "") unprovenFingerprint⟩)
  | _, _ => (⟨"active", some 1, true⟩, ⟨1, unprovenFingerprint⟩)

@[simp] theorem driveState_withArchived (archived : Table Revision.ArchivedRow.key) (label : String) :
    driveState (tables.withArchived archived) label = driveState tables label := rfl

/-- The hashes of the proposal's repositories, recomputed from the catalog's files. -/
def currentManifests : Except BundleRefusal (List (String × String)) :=
  collect (fun repo => ((tables.currentManifestHash sha rules repo).mapError
      (BundleRefusal.manifestPolicy repo)).map fun hash => some (repo, hash))
    (sortedSet ((proposal.tasks.map TaskRow.repoId).filter (· ≠ "")))

/-- The certificate of a baseline row, recomputed from what is archived on its drive. Every drive of
    the proposal is among those that are read. -/
def currentCertificate (manifests : List (String × String)) (task : TaskRow) : String :=
  match labelled task.satisfyingDrive <|> labelled task.targetDrive with
  | none => "__MISSING__"
  | some label =>
      let evidence := baselineFileEvidence tables.facts.archived task.repoId label
      if task.repoId = "" ∨ evidence = [] then "__MISSING__"
      else baselineCertificate sha task.requirementId ((Dict.ofPairs manifests).getD task.repoId "")
        label (driveState tables label).2 evidence

/-- Finalized repositories that the proposal does not know. -/
def expandedIds : List String :=
  ((sortBy id tables.facts.finalized).filter fun repo =>
    "primary:" ++ repo ∉ proposal.tasks.map TaskRow.requirementId ∧
      repo ∉ proposal.tasks.map TaskRow.repoId).map ("primary:" ++ ·)

def currentGraph : ProjectionGraph where
  requirementIds := proposal.tasks.map TaskRow.requirementId ++ expandedIds tables proposal
  requirementSetHash :=
    if expandedIds tables proposal = [] then proposal.header.requirementSetHash
    else some (requirementSetHash sha
      (proposal.tasks.map TaskRow.requirementId ++ expandedIds tables proposal))

def currentInput (manifests : List (String × String)) (semantic : String)
    (observed : List (String × EvidenceState)) : ProjectionInput where
  manifests := manifests
  drives := (proposalDriveIds proposal).map fun label => (label, (driveState tables label).1)
  archived := tables.facts.archived
  evidence := observed
  observedRatio := []
  executionInvariants := some (sha.hash semantic)
  certificates := (proposal.tasks.filter (·.rowKind = .baselineSatisfied)).map fun task =>
    (task.requirementId, currentCertificate sha tables manifests task)

/-- `_catalog_projection_bundle`, for the drives of the proposal and the evidence observed of them. -/
def catalogProjectionBundle (observed : List (String × EvidenceState)) :
    Except BundleRefusal (ProjectionInput × ProjectionGraph) := do
  let missing := (proposalDriveIds proposal).filter (· ∉ observed.map Prod.fst)
  require missing.isEmpty (.missingDriveEvidence missing)
  let manifests ← currentManifests sha rules tables proposal
  let semantic ← (tables.semanticInput successor proposal.header.planId
    (recordedMutation proposal.header)).mapError .semanticInputUnavailable
  return (currentInput sha tables proposal manifests semantic observed,
    currentGraph sha tables proposal)

end Bundle

end Modelark.Fill
