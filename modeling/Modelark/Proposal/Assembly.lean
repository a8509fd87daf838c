import Modelark.Library.Json
import Modelark.Proposal.Rows

/-!
# The payload of a draft

A plan is previewed as task rows with the hash of their manifest, the identity of their drive and, for
copies that are there already, a certificate of the evidence; file rows for what is still missing; and
a header. All of it goes into one canonical text and its hash.
-/

namespace Modelark.Placement

def GateBCode.value : GateBCode → String
  | .feasible => "FEASIBLE"
  | .targetTierMissing => "TARGET_TIER_MISSING"
  | .unprovenProvenance => "UNPROVEN_PROVENANCE"
  | .graphDependencyInvariant => "GRAPH_DEPENDENCY_INVARIANT"
  | .failureDomainUnsatisfiable => "FAILURE_DOMAIN_UNSATISFIABLE"
  | .requirementExceedsUsableMax => "REQUIREMENT_EXCEEDS_USABLE_MAX"
  | .packingInconclusive => "PACKING_INCONCLUSIVE"
  | .infeasibleUnderAdmissionBudget => "INFEASIBLE_UNDER_ADMISSION_BUDGET"
  | .capacityEvidenceUnknown => "CAPACITY_EVIDENCE_UNKNOWN"
  | .infeasibleWithUnknownAtUsableMax => "INFEASIBLE_WITH_UNKNOWN_AT_USABLE_MAX"

def DerivationMode.value : DerivationMode → String
  | .optimized => "optimized"
  | .stateTruncated => "state_truncated"
  | .canonicalFallback => "canonical_fallback"

end Modelark.Placement

namespace Modelark.Proposal

open Modelark.Archive Library Planning Placement

/-- SHA-256 of a text, in hexadecimal. -/
structure Digester where
  hash : String → String
  nonempty : ∀ text, hash text ≠ ""

/-- A row of `proposal_tasks`. -/
structure TaskRow where
  requirementId : String
  rowKind : RowKind
  repoId : String
  targetDrive : Option String
  sourceDrive : Option String
  satisfyingDrive : Option String
  fullManifestHash : String
  orderKey : Int
  guaranteedDurable : Option Int
  expectedDurable : Option Int
  identityEpoch : Option Int
  baselineCertificate : Option String
  deriving Repr, DecidableEq

/-- A row of `proposal_files`. -/
structure FileRow where
  requirementId : String
  rfilename : String
  role : String
  sizeBytes : Option Int
  origSha256 : Option String
  format : Option String
  quant : Option String
  storageAction : Option String
  deriving Repr, DecidableEq

def RowKind.value : RowKind → String
  | .baselineSatisfied => "baseline_satisfied"
  | .executable => "executable"

def actionValue : StorageAction → String
  | .compress => "compress"
  | .raw => "raw"

/-- The hashed columns of a proposal. -/
structure Header where
  planId : String
  basedOnRevision : Int
  mutationKind : String
  mutationArgs : List Json
  requirementSetHash : Option String
  semanticInputHash : Option String
  selectionBeforeHash : Option String
  selectionAfterHash : Option String
  capacityMode : String
  policyVersion : String
  solverVersion : String
  serializerVersion : String
  gateBCode : String
  derivationMode : Option String
  executionConfigHash : Option String

def TaskRow.fields (row : TaskRow) : List (String × Json) :=
  [("requirement_id", .str row.requirementId), ("row_kind", .str row.rowKind.value),
    ("repo_id", .str row.repoId), ("target_drive", .ofText row.targetDrive),
    ("source_drive", .ofText row.sourceDrive), ("satisfying_drive", .ofText row.satisfyingDrive),
    ("full_manifest_hash", .str row.fullManifestHash), ("order_key", .int row.orderKey),
    ("guaranteed_durable", .ofInt row.guaranteedDurable),
    ("expected_durable", .ofInt row.expectedDurable), ("identity_epoch", .ofInt row.identityEpoch),
    ("baseline_certificate", .ofText row.baselineCertificate)]

def TaskRow.json (row : TaskRow) : Json :=
  .dict row.fields

def FileRow.json (row : FileRow) : Json :=
  .dict
    [("requirement_id", .str row.requirementId), ("rfilename", .str row.rfilename),
      ("role", .str row.role), ("size_bytes", .ofInt row.sizeBytes),
      ("orig_sha256", .ofText row.origSha256), ("format", .ofText row.format),
      ("quant", .ofText row.quant), ("storage_action", .ofText row.storageAction)]

/-- The header without the configuration that it is bound to. -/
def Header.fields (header : Header) : List (String × Json) :=
  [("plan_id", .str header.planId), ("based_on_revision", .int header.basedOnRevision),
    ("mutation_kind", .str header.mutationKind), ("mutation_args", .arr header.mutationArgs),
    ("requirement_set_hash", .ofText header.requirementSetHash),
    ("semantic_input_hash", .ofText header.semanticInputHash),
    ("selection_before_hash", .ofText header.selectionBeforeHash),
    ("selection_after_hash", .ofText header.selectionAfterHash),
    ("capacity_mode", .str header.capacityMode), ("policy_version", .str header.policyVersion),
    ("solver_version", .str header.solverVersion),
    ("serializer_version", .str header.serializerVersion), ("gate_b_code", .str header.gateBCode),
    ("derivation_mode", .ofText header.derivationMode)]

def headerSkip : List String :=
  ["lifecycle", "created_at", "approved_at", "superseded_at", "proposal_id"]

def TaskRow.key (row : TaskRow) : String ×ₗ Int :=
  toLex (row.requirementId, row.orderKey)

def FileRow.key (row : FileRow) : String ×ₗ String :=
  toLex (row.requirementId, row.rfilename)

def canonicalBody (header : List (String × Json)) (tasks : List TaskRow) (files : List FileRow) :
    Json :=
  .dict
    [("header", .dict (header.filter fun field => field.1 ∉ headerSkip)),
      ("tasks", .arr ((sortBy TaskRow.key tasks).map TaskRow.json)),
      ("files", .arr ((sortBy FileRow.key files).map FileRow.json))]

/-- `canonical_bytes`. -/
def canonicalBytes (header : List (String × Json)) (tasks : List TaskRow) (files : List FileRow) :
    String :=
  (canonicalBody header tasks files).dumps

section Hashes

variable (sha : Digester)

def proposalHash (header : List (String × Json)) (tasks : List TaskRow) (files : List FileRow) :
    String :=
  sha.hash (canonicalBytes header tasks files)

/-- What the catalog says of a file besides what planning reads. -/
structure FileLabel where
  format : String
  quant : Option String

def manifestHash (labels : ManifestFile → FileLabel) (planned : List ManifestFile) : String :=
  sha.hash (Json.arr (planned.map fun mf =>
    .arr [.str mf.rfilename, .int mf.sizeBytes, .ofText mf.sha256, .str (labels mf).format,
      .ofText (labels mf).quant])).dumps

/-- `_baseline_file_evidence`: everything archived of a repository on a drive. -/
def baselineFileEvidence (archived : List ArchivedFileFact) (repo label : String) :
    List ArchivedFileFact :=
  sortBy ArchivedFileFact.rfilename
    (archived.filter fun row => row.repoId == repo && row.driveLabel == label)

def evidenceJson (row : ArchivedFileFact) : Json :=
  .dict
    [("rfilename", .str row.rfilename), ("orig_sha256", .ofText row.origSha256),
      ("orig_bytes", .ofInt (row.origBytes.map Int.ofNat)), ("annex_key", .ofText row.annexKey),
      ("stored_bytes", .ofInt (row.storedBytes.map Int.ofNat))]

/-- A drive as the proposal identifies it. -/
structure DriveIdentity where
  epoch : Nat
  fingerprint : String
  deriving Repr, DecidableEq

/-- `baseline_satisfaction_certificate`. -/
def baselineCertificate (requirementId fullManifestHash label : String) (identity : DriveIdentity)
    (evidence : List ArchivedFileFact) : String :=
  sha.hash (Json.dict
    [("requirement_id", .str requirementId), ("full_manifest_hash", .str fullManifestHash),
      ("drive_label", .str label), ("identity_epoch", .int identity.epoch),
      ("identity_fingerprint", .str identity.fingerprint),
      ("files", .arr ((sortBy ArchivedFileFact.rfilename evidence).map evidenceJson))]).dumps

def requirementSetHash (ids : List String) : String :=
  sha.hash (Json.arr ((sortBy id ids).map .str)).dumps

end Hashes

/-- What building a proposal reads besides the plan. -/
structure ProposalFacts where
  labels : String → ManifestFile → FileLabel
  /-- Every drive the plan names is in the catalog. -/
  identity : String → DriveIdentity
  archived : List ArchivedFileFact

section Assignment

variable (sha : Digester) (facts : ProposalFacts) (result : ReconcileResult)

def repoManifestHash (repo : String) : String :=
  manifestHash sha (facts.labels repo) (ReconcileResult.manifest result repo)

/-- A baseline row with its certificate, an executable row with the epoch of its target. -/
def taskRow (row : ProposalRow) : TaskRow :=
  let hash := repoManifestHash sha facts result row.repoId
  let drive := row.targetDrive.getD ""
  { requirementId := row.requirementId
    rowKind := row.rowKind
    repoId := row.repoId
    targetDrive := row.targetDrive
    sourceDrive := row.sourceDrive
    satisfyingDrive := row.satisfyingDrive
    fullManifestHash := hash
    orderKey := row.orderKey
    guaranteedDurable := some row.guaranteedDurable
    expectedDurable := some row.expectedDurable
    identityEpoch := some (facts.identity drive).epoch
    baselineCertificate := match row.rowKind with
      | .executable => none
      | .baselineSatisfied => some (baselineCertificate sha row.requirementId hash drive
          (facts.identity drive) (baselineFileEvidence facts.archived row.repoId drive)) }

def fileRow (requirementId repo : String) (mf : ManifestFile) : FileRow where
  requirementId := requirementId
  rfilename := mf.rfilename
  role := "missing"
  sizeBytes := some mf.sizeBytes
  origSha256 := mf.sha256
  format := some (facts.labels repo mf).format
  quant := (facts.labels repo mf).quant
  storageAction := some (actionValue mf.storageAction)

/-- `_append_missing_files`: the planned files that a task's budget charges. -/
def missingRows (task : AssignedTask) : List FileRow :=
  ((ReconcileResult.manifest result task.repoId).filter
    (·.rfilename ∈ task.budget.missingFiles)).map
      (fileRow facts (proposalRequirementId task.requirementId) task.repoId)

def taskRows (plan : CapacityPlan) : List TaskRow :=
  (buildAssignment result plan).map (taskRow sha facts result)

def fileRows (plan : CapacityPlan) : List FileRow :=
  (inExecutionOrder result plan.tasks).flatMap (missingRows facts result)

end Assignment

structure Mutation where
  kind : String
  args : List String
  deriving Repr, DecidableEq

/-- One catalog snapshot, as a preview reads it. -/
structure PreviewFacts extends ProposalFacts where
  planId : String
  plannerRevision : Nat
  mutation : Mutation
  input : PreviewInput
  selectionBefore : String
  selectionAfter : String
  semanticInput : String
  /-- The graph-affecting configuration, as a text. -/
  executionConfig : String
  publicationClear : Bool

structure Payload where
  header : Header
  tasks : List TaskRow
  files : List FileRow
  canonicalHash : String

/-- `proposal_gate_code`: a policy refusal first, then Gate B, then the first blocking diagnostic. -/
def proposalGateCode (planned : PlanningResult) : String :=
  if "MANIFEST_POLICY" ∈ planned.graph.blocking then "INFEASIBLE"
  else if planned.capacity.gateBCode ≠ .feasible then planned.capacity.gateBCode.value
  else (sortedSet planned.graph.blocking).head?.getD "FEASIBLE"

def derivationModeForGate (gate : String) : DerivationMode :=
  if gate = "FEASIBLE" then .optimized else .canonicalFallback

/-- Policy and solver version. -/
def executionVersions (kind : String) : String × String :=
  if kind = "successor_replan" then ("successor_v1", "successor_lane_v1") else ("1", "1")

section Preview

variable (u : Unicode) (pyHash : KeyPart → HashValue) (sha : Digester) (facts : PreviewFacts)

def PreviewFacts.planned : PlanningResult :=
  preview u pyHash facts.input

def headerFromFacts (planned : PlanningResult) (tasks : List TaskRow) : Header where
  planId := facts.planId
  basedOnRevision := facts.plannerRevision
  mutationKind := facts.mutation.kind
  mutationArgs := facts.mutation.args.map .str
  requirementSetHash := some (requirementSetHash sha (tasks.map TaskRow.requirementId))
  semanticInputHash := some (sha.hash facts.semanticInput)
  selectionBeforeHash := some (sha.hash facts.selectionBefore)
  selectionAfterHash := some (sha.hash facts.selectionAfter)
  capacityMode := facts.input.capacityMode.value
  policyVersion := (executionVersions facts.mutation.kind).1
  solverVersion := (executionVersions facts.mutation.kind).2
  serializerVersion := "1"
  gateBCode := proposalGateCode planned
  derivationMode := some (planned.capacity.derivationMode.getD
    (derivationModeForGate (proposalGateCode planned))).value
  executionConfigHash := some (sha.hash facts.executionConfig)

/-- The header of a payload, with the configuration it was previewed under. -/
def Header.previewed (header : Header) : List (String × Json) :=
  header.fields ++ [("execution_config_hash", .ofText header.executionConfigHash)]

/-- `preview_pure`; nothing is previewed while a publication is unfinished. -/
def previewPure : Option Payload :=
  if facts.publicationClear then
    let planned := facts.planned u pyHash
    let tasks := taskRows sha facts.toProposalFacts planned.graph planned.capacity
    let files := fileRows facts.toProposalFacts planned.graph planned.capacity
    let header := headerFromFacts sha facts planned tasks
    some
      { header := header
        tasks := tasks
        files := files
        canonicalHash := proposalHash sha header.previewed tasks files }
  else none

end Preview

end Modelark.Proposal
