import Modelark.Execution.DriveMutation
import Modelark.Library.Table
import Modelark.Planning.Candidates

/-!
# The catalog that planning reads

The tables behind the planner input, the facts that the planner's queries select from them, and the
input that is captured from those facts.
-/

namespace Modelark.Revision

open Library Execution Planning

structure ModelRow where
  repoId : String
  status : String
  numcopies : Nat
  deriving Repr, DecidableEq

structure FileRow where
  repoId : String
  rfilename : String
  sizeBytes : Option Nat
  sha256 : Option String
  format : Option String
  quant : Option String
  deriving Repr, DecidableEq

def FileRow.key (row : FileRow) : String × String := (row.repoId, row.rfilename)

structure ReplicaRow where
  repoId : String
  rfilename : String
  driveLabel : String
  annexKey : Option String
  deriving Repr, DecidableEq

def ReplicaRow.key (row : ReplicaRow) : String × String × String :=
  (row.repoId, row.rfilename, row.driveLabel)

structure SelectionRow where
  repoId : String
  finalizedAt : Option String
  deriving Repr, DecidableEq

structure ArchivedRow where
  repoId : String
  rfilename : String
  driveLabel : String
  storedName : Option String
  storedRelpath : Option String
  origSha256 : Option String
  origBytes : Option Nat
  storedBytes : Option Nat
  compressed : Bool
  annexKey : Option String
  origSha256Provenance : Option String
  deriving Repr, DecidableEq

def ArchivedRow.key (row : ArchivedRow) : String × String × String :=
  (row.repoId, row.rfilename, row.driveLabel)

structure PlanRow where
  planId : String
  capacityMode : String
  isActive : Bool
  deriving Repr, DecidableEq

structure PlanDrive where
  planId : String
  driveLabel : String
  deriving Repr, DecidableEq

def PlanDrive.key (row : PlanDrive) : String × String := (row.planId, row.driveLabel)

/-- The columns of `drives` that no mutation of a drive touches. -/
structure DriveColumns where
  driveLabel : String
  role : String
  raidBacked : Bool
  capacityBytes : Option Nat
  freeBytes : Option Nat
  lifecycle : String
  eligibility : String
  deriving Repr, DecidableEq

structure HashRepairState where
  driveLabel : String
  identityEpoch : Nat
  identityFingerprint : Option String
  status : String
  detail : Option String
  deriving Repr, DecidableEq

def HashRepairState.key (row : HashRepairState) : String × Nat := (row.driveLabel, row.identityEpoch)

/-- What the body of a write may change. -/
structure Tables where
  models : Table ModelRow.repoId
  files : Table FileRow.key
  replicas : Table ReplicaRow.key
  selection : Table SelectionRow.repoId
  archived : Table ArchivedRow.key
  plans : Table PlanRow.planId
  planDrives : Table PlanDrive.key
  driveColumns : Table DriveColumns.driveLabel
  /-- The identity columns of `drives`. -/
  drives : List FleetDrive
  dirty : List DirtyGeneration
  anchors : List CleanAnchor
  hashRepairState : Table HashRepairState.key

structure Catalog where
  tables : Tables
  plannerRevision : Nat
  sessions : SessionTable

def Catalog.fleet (c : Catalog) : Fleet where
  sessions := c.sessions
  plannerRevision := c.plannerRevision
  drives := c.tables.drives
  dirty := c.tables.dirty
  anchors := c.tables.anchors

/-- The generations and anchors that a body of a drive mutation leaves. -/
def Tables.withFleet (tables : Tables) (fleet : Fleet) : Tables :=
  { tables with drives := fleet.drives, dirty := fleet.dirty, anchors := fleet.anchors }

/-- The columns of a drive that `_drive_facts` selects. -/
structure DriveRecord where
  fact : DriveFact
  filesystemCapacityBytes : Nat
  identityEpoch : Nat
  deriving Repr, DecidableEq

/-- The planner's facts: every column that one of its queries selects or filters by. -/
structure Facts where
  plans : List PlanRow
  planDrives : List PlanDrive
  drives : List DriveRecord
  finalized : List String
  numcopies : List (String × Nat)
  files : List FileRow
  archived : List ArchivedFileFact
  deriving DecidableEq

def ArchivedRow.fact (row : ArchivedRow) : ArchivedFileFact where
  repoId := row.repoId
  driveLabel := row.driveLabel
  rfilename := row.rfilename
  origSha256 := row.origSha256
  origBytes := row.origBytes
  storedBytes := row.storedBytes
  annexKey := row.annexKey
  compressed := row.compressed

def driveRecord (drive : FleetDrive) (columns : DriveColumns) : DriveRecord where
  fact :=
    { driveLabel := drive.driveLabel
      role := columns.role
      raidBacked := columns.raidBacked
      capacityBytes := (columns.capacityBytes.or columns.freeBytes).getD 0
      fsUuid := drive.fence.fsUuid
      annexUuid := drive.fence.annexUuid
      serial := drive.fence.serial
      lifecycle := columns.lifecycle
      eligibility := columns.eligibility }
  filesystemCapacityBytes :=
    (drive.fence.filesystemCapacityBytes.or columns.capacityBytes).getD 0
  identityEpoch := drive.fence.identityEpoch

def Tables.facts (tables : Tables) : Facts where
  plans := tables.plans.rows
  planDrives := tables.planDrives.rows
  drives := tables.drives.filterMap fun drive =>
    (tables.driveColumns.find drive.driveLabel).map (driveRecord drive)
  finalized := (tables.selection.rows.filter (·.finalizedAt.isSome)).map SelectionRow.repoId
  numcopies := tables.models.rows.map fun row => (row.repoId, row.numcopies)
  files := tables.files.rows
  archived := tables.archived.rows.map ArchivedRow.fact

/-- What a read takes from outside the catalog: texts, the acquisition policy and the budgets that the
    configuration gives at an observed ratio of stored to original bytes. -/
structure ReadRules where
  lower : String → String
  isUpstreamPayloadPath : String → Bool
  allowPickle : Bool
  budget : Nat → Nat → BudgetConfig

/-- `ArchivePolicyError`. -/
inductive PolicyError where
  | notUpstreamPayload (rfilename : String)
  | pickleOnly
  | noSupportedWeights (foundFormats : List String)
  deriving Repr, DecidableEq

/-- `FLOAT_QUANTS`, besides no quantisation. -/
def floatQuants : List String :=
  ["bf16", "bfloat16", "fp16", "f16", "float16", "fp32", "f32", "float32"]

def isFloatQuant (quant : Option String) : Bool :=
  quant.all floatQuants.contains

/-- The format whose files are the weights of a repository. -/
def weightFormat (rules : ReadRules) (rows : List FileRow) : Except PolicyError String :=
  let some? (format : String) : Bool := rows.any (·.format == some format)
  if some? "safetensors" then .ok "safetensors"
  else if some? "gguf" then .ok "gguf"
  else if some? "pytorch" then
    if rules.allowPickle then .ok "pytorch" else .error .pickleOnly
  else .error (.noSupportedWeights (sortedSet
    ((rows.filter (·.format != some "aux")).map fun row => row.format.getD "unknown")))

def manifestFile (weights : String) (row : FileRow) : Option ManifestFile :=
  let file (action : StorageAction) : ManifestFile :=
    ⟨row.rfilename, row.sizeBytes.getD 0, row.sha256, action⟩
  if row.format == some weights then
    some (file (if weights == "safetensors" && isFloatQuant row.quant then .compress else .raw))
  else if row.format == some "aux" then some (file .raw)
  else none

/-- `_select`. -/
def selectManifest (rules : ReadRules) (rows : List FileRow) :
    Except PolicyError (List ManifestFile) := do
  let administrative := rows.find? fun row =>
    row.format.any ["safetensors", "gguf", "pytorch", "aux"].contains &&
      !rules.isUpstreamPayloadPath row.rfilename
  match administrative with
  | some row => .error (.notUpstreamPayload row.rfilename)
  | none =>
      let weights ← weightFormat rules rows
      return sortBy ManifestFile.rfilename (rows.filterMap (manifestFile weights))

/-- A captured input: the planner's own and what reconciliation carries beside it. -/
structure CapturedInput where
  planner : PlannerInput
  capacityMode : String
  drives : List DriveRecord
  errors : List (String × PolicyError)
  activePlan : Option String

namespace Facts

variable (facts : Facts)

/-- `_selected_repos`. -/
def selectedRepos (repoIds : Option (List String)) : List String :=
  sortedSet (repoIds.getD facts.finalized)

def filesOf (repoId : String) : List FileRow :=
  facts.files.filter (·.repoId == repoId)

/-- `inspect_manifests_for_repos`, the manifests. -/
def manifests (rules : ReadRules) (repos : List String) : List (String × List ManifestFile) :=
  repos.filterMap fun repo =>
    (selectManifest rules (facts.filesOf repo)).toOption.map fun manifest => (repo, manifest)

/-- `inspect_manifests_for_repos`, the errors. -/
def manifestErrors (rules : ReadRules) (repos : List String) : List (String × PolicyError) :=
  repos.filterMap fun repo =>
    match selectManifest rules (facts.filesOf repo) with
    | .ok _ => none
    | .error refused => some (repo, refused)

theorem manifests_distinct (rules : ReadRules) {repos : List String} (distinct : repos.Nodup) :
    ((facts.manifests rules repos).map Prod.fst).Nodup := by
  have keys : (repos.map id).Nodup := by simpa using distinct
  apply nodup_keys_filterMap _ keys
  intro repo made selected
  obtain ⟨_, _, rfl⟩ := Option.map_eq_some_iff.mp selected
  rfl

/-- `_drive_facts`. -/
def driveFacts (planId : String) : List DriveRecord :=
  sortBy (·.fact.driveLabel) (facts.drives.filter fun drive =>
    facts.planDrives.contains ⟨planId, drive.fact.driveLabel⟩)

/-- `_archived_facts`: the rows of files that some manifest names. -/
def archivedFacts (repos labels rfilenames : List String) : List ArchivedFileFact :=
  sortBy (fun row => toLex (row.repoId, toLex (row.driveLabel, row.rfilename)))
    (facts.archived.filter fun row =>
      repos.contains row.repoId && labels.contains row.driveLabel &&
        rfilenames.contains row.rfilename)

/-- The rows whose sizes make up `observed_float_ratio`. -/
def floatRows (rules : ReadRules) : List ArchivedFileFact :=
  facts.archived.filter fun row =>
    0 < row.origBytes.getD 0 && facts.files.any fun file =>
      file.repoId == row.repoId && file.rfilename == row.rfilename &&
        file.format == some "safetensors" && file.quant.all fun quant =>
          floatQuants.contains (rules.lower quant)

/-- `_read_facts` and `resolve_policy`. -/
def capture (rules : ReadRules) (planId : String) (repoIds : Option (List String)) : CapturedInput :=
  let repos := facts.selectedRepos repoIds
  let manifests := facts.manifests rules repos
  let usable := manifests.map Prod.fst
  let drives := facts.driveFacts planId
  let floats := facts.floatRows rules
  { planner :=
      { selection := usable
        manifests := manifests
        uniqueRepos := facts.manifests_distinct rules (nodup_sortedSet _)
        numcopies := sortBy Prod.fst (facts.numcopies.filter fun entry => usable.contains entry.1)
        drives := drives.map DriveRecord.fact
        archived := facts.archivedFacts usable (drives.map (·.fact.driveLabel))
          (sortedSet (manifests.flatMap fun entry => entry.2.map ManifestFile.rfilename))
        budget := rules.budget (floats.map (·.storedBytes.getD 0)).sum
          (floats.map (·.origBytes.getD 0)).sum }
    capacityMode := ((facts.plans.find? (·.planId == planId)).map PlanRow.capacityMode).getD "guaranteed"
    drives := drives
    errors := facts.manifestErrors rules repos
    activePlan := (facts.plans.find? (·.isActive)).map PlanRow.planId }

end Facts

/-- `capture_planner_input`. -/
def Catalog.capture (c : Catalog) (rules : ReadRules) (planId : String)
    (repoIds : Option (List String)) : CapturedInput :=
  c.tables.facts.capture rules planId repoIds

end Modelark.Revision
