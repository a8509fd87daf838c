import Modelark.Placement.Capacity

/-!
# Proposal rows and the capacity check of approval

A plan is written down as proposal rows in execution order. Approval charges the executable rows one
after another: the workspace of a row is transient, its durable bytes stay on the drive.
-/

namespace Modelark.Proposal

open Library Planning Placement

inductive RowKind where
  | baselineSatisfied
  | executable
  deriving Repr, DecidableEq

structure ProposalRow where
  requirementId : String
  rowKind : RowKind
  repoId : String
  targetDrive : Option String
  sourceDrive : Option String
  satisfyingDrive : Option String
  orderKey : Nat
  guaranteedDurable : Nat
  expectedDurable : Nat
  deriving Repr, DecidableEq

/-- A row with the workspace that approval attaches to it. -/
structure ChargedRow extends ProposalRow where
  workspacePeak : Nat
  deriving Repr, DecidableEq

/-- A row of the catalog's `files` table. -/
structure CatalogFile where
  repoId : String
  rfilename : String
  sizeBytes : Option Nat
  format : String
  deriving Repr, DecidableEq

section Assignment

variable (result : ReconcileResult)

def ReconcileResult.manifest (repo : String) : List ManifestFile :=
  (Dict.ofPairs result.manifests).getD repo []

def rawSize (manifest : List ManifestFile) : Nat :=
  total ManifestFile.sizeBytes manifest

/-- Stable priority within and between drives: finish partials, then bulk, homes, primaries and
    last the replicas. -/
def executionRank (task : AssignedTask) : Nat ×ₗ Int ×ₗ String ×ₗ String :=
  let manifest := ReconcileResult.manifest result task.repoId
  let tier :=
    match task.kind with
    | .replicate => 4
    | .fetch =>
        if task.budget.missingFiles.length < manifest.length then 0
        else if 250000000000 < rawSize manifest then 1
        else if "protected_home:".toList.isPrefixOf task.requirementId.toList then 2
        else 3
  toLex (tier, toLex (-(rawSize manifest : Int), toLex (task.repoId, task.requirementId)))

/-- The proposal's names of the canonical requirements. -/
def proposalRequirementId (requirementId : String) : String :=
  if "protected_home:".toList.isPrefixOf requirementId.toList then "primary:" ++ repoOf requirementId
  else if "protected_replica:".toList.isPrefixOf requirementId.toList then
    "replica:" ++ repoOf requirementId
  else requirementId

def baselineRow (entry : String × String) (order : Nat) : ProposalRow :=
  let durable := rawSize (ReconcileResult.manifest result (repoOf entry.1))
  { requirementId := proposalRequirementId entry.1
    rowKind := .baselineSatisfied
    repoId := repoOf entry.1
    targetDrive := some entry.2
    sourceDrive := none
    satisfyingDrive := some entry.2
    orderKey := order
    guaranteedDurable := durable
    expectedDurable := durable }

/-- The drive a row copies from; a pending home is the target of its own task. -/
def rowSource (tasks : List AssignedTask) (task : AssignedTask) : Option String :=
  match task.sourceDrive with
  | some drive => some drive
  | none => task.dependsOnRequirement.bind fun dep =>
      (Dict.ofPairs (tasks.map fun other => (other.requirementId, other.targetDrive)))[dep]?

def executableRow (tasks : List AssignedTask) (task : AssignedTask) (order : Nat) : ProposalRow where
  requirementId := proposalRequirementId task.requirementId
  rowKind := .executable
  repoId := task.repoId
  targetDrive := some task.targetDrive
  sourceDrive := rowSource tasks task
  satisfyingDrive := none
  orderKey := order
  guaranteedDurable := task.budget.guaranteedDurable
  expectedDurable := task.budget.expectedDurable

/-- The tasks of a plan in execution order. -/
def inExecutionOrder (tasks : List AssignedTask) : List AssignedTask :=
  sortBy (executionRank result) tasks

/-- `_build_assignment`: certificate rows for the satisfied copies, then the executable rows, numbered
    from one. -/
def buildAssignment (plan : CapacityPlan) : List ProposalRow :=
  let baseline := result.matched.zipIdx 1
  let executable := (inExecutionOrder result plan.tasks).zipIdx (1 + result.matched.length)
  baseline.map (fun entry => baselineRow result entry.1 entry.2) ++
    executable.map fun entry => executableRow plan.tasks entry.1 entry.2

end Assignment

/-- Peak workspace over all safetensors files the catalog lists for a repository. -/
def repoWorkspacePeak (files : List CatalogFile) (cfg : CompressionConfig) (repoId : String) : Nat :=
  let sizes := (files.filter fun file => file.repoId == repoId && file.format == "safetensors").filterMap
    fun file => file.sizeBytes.filter (0 < ·)
  peak (workspaceCap cfg) (sizes.filter fun size => planCodec size cfg ≠ .raw)

/-- The workspace that `validate_exact_assignment` attaches to an executable row. -/
def attachedWorkspace (files : List CatalogFile) (cfg : CompressionConfig) (repoId : String) : Nat :=
  if repoId = "" then 0 else repoWorkspacePeak files cfg repoId

def chargeRow (files : List CatalogFile) (cfg : CompressionConfig) (row : ProposalRow) : ChargedRow :=
  { row with
    workspacePeak :=
      if row.rowKind = .executable then attachedWorkspace files cfg row.repoId else 0 }

def admissible (ev : Evidence) : Int :=
  if ev.executable then ev.admissibleFree else 0

/-- A target without evidence has no room. -/
def fillTarget (remaining : Dict String Int) (row : ChargedRow) : Dict String Int :=
  match row.targetDrive with
  | some label => if label = "" ∨ label ∈ remaining then remaining else remaining.insert label 0
  | none => remaining

/-- Admissible free bytes by drive. -/
def remainingByDrive (evidenceByDrive : List (String × Evidence)) (rows : List ChargedRow) :
    Dict String Int :=
  (rows.filter (·.rowKind = .executable)).foldl fillTarget
    (Dict.ofPairs (evidenceByDrive.map fun item => (item.1, admissible item.2)))

inductive Shortfall where
  | missingTarget (requirementId : String)
  | unknownDrive (drive requirementId : String) (need : Nat)
  | capacityOvercommit (drive requirementId : String) (need durable workspacePeak : Nat)
      (remaining : Int)
  deriving Repr, DecidableEq

/-- Charges the rows one after another; only durable bytes deplete a drive. -/
def chargeInOrder : List ChargedRow → Dict String Int → Option Shortfall
  | [], _ => none
  | row :: rows, remaining =>
      match row.targetDrive with
      | none => some (.missingTarget row.requirementId)
      | some label =>
          if label = "" then some (.missingTarget row.requirementId)
          else
            let peak := row.guaranteedDurable + row.workspacePeak
            match remaining[label]? with
            | none => some (.unknownDrive label row.requirementId peak)
            | some left =>
                if left < peak then
                  some (.capacityOvercommit label row.requirementId peak row.guaranteedDurable
                    row.workspacePeak left)
                else chargeInOrder rows (remaining.insert label (left - row.guaranteedDurable))

def jointCapacityShortfall (rows : List ChargedRow) (remaining : Dict String Int) :
    Option Shortfall :=
  chargeInOrder (sortBy (fun row => toLex (row.orderKey, row.requirementId))
    (rows.filter (·.rowKind = .executable))) remaining

/-- The capacity check of approval on the rows of a previewed plan. -/
def approvalShortfall (result : ReconcileResult) (plan : CapacityPlan) (files : List CatalogFile)
    (cfg : CompressionConfig) (evidenceByDrive : List (String × Evidence)) : Option Shortfall :=
  let rows := (buildAssignment result plan).map (chargeRow files cfg)
  jointCapacityShortfall rows (remainingByDrive evidenceByDrive rows)

end Modelark.Proposal
