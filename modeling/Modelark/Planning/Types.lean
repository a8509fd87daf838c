import Mathlib

/-!
# Planner facts, requirements and candidates

The immutable records exchanged between reconciliation, candidate construction and placement. Byte
figures are natural numbers; identifiers, labels and digests are strings as in the catalog.
-/

namespace Modelark.Planning

inductive RequirementKind where
  | primary
  | protectedHome
  | protectedReplica
  deriving Repr, DecidableEq

def RequirementKind.value : RequirementKind → String
  | .primary => "primary"
  | .protectedHome => "protected_home"
  | .protectedReplica => "protected_replica"

inductive TaskKind where
  | fetch
  | replicate
  deriving Repr, DecidableEq, Inhabited

def TaskKind.value : TaskKind → String
  | .fetch => "fetch"
  | .replicate => "replicate"

theorem TaskKind.value_injective : Function.Injective TaskKind.value := by
  intro left right same
  cases left <;> cases right <;> first | rfl | exact absurd same (by decide)

inductive ProofSource where
  | manifestSha256
  | archivedOrigSha256
  | rawAnnexSha256e
  deriving Repr, DecidableEq

/-- The catalog row of one drive, as far as planning reads it. -/
structure DriveFact where
  driveLabel : String
  role : String
  raidBacked : Bool
  capacityBytes : Nat
  fsUuid : Option String
  annexUuid : Option String
  serial : Option String
  lifecycle : String
  eligibility : String
  deriving Repr, DecidableEq

inductive StorageAction where
  | compress
  | raw
  deriving Repr, DecidableEq

structure ManifestFile where
  rfilename : String
  sizeBytes : Nat
  sha256 : Option String
  storageAction : StorageAction
  deriving Repr, DecidableEq

/-- One row of the archive: what is stored of a file on a drive, and the evidence for it. -/
structure ArchivedFileFact where
  repoId : String
  driveLabel : String
  rfilename : String
  origSha256 : Option String
  origBytes : Option Nat
  storedBytes : Option Nat
  annexKey : Option String
  compressed : Bool
  deriving Repr, DecidableEq

structure CopyRequirement where
  requirementId : String
  repoId : String
  kind : RequirementKind
  eligibleDrives : List String
  independentOf : Option String
  deriving Repr, DecidableEq

structure RequirementGraph where
  desired : List CopyRequirement
  deriving Repr, DecidableEq

structure ReusableFile where
  rfilename : String
  sizeBytes : Nat
  boundHash : Option String
  proofSource : ProofSource
  deriving Repr, DecidableEq

/-- The exact drive a replica copies from. -/
structure SourceIdentity where
  driveLabel : String
  annexKey : Option String
  origSha256 : Option String
  deriving Repr, DecidableEq

/-- `SourceIdentity | PendingHome`: a proven home, or the requirement whose target is not yet
    resolved. -/
inductive Source where
  | identity (source : SourceIdentity)
  | pendingHome (requirementId : String)
  deriving Repr, DecidableEq

structure FileBudget where
  rfilename : String
  guaranteedDurable : Nat
  expectedDurable : Nat
  workspacePeakGuaranteed : Nat
  workspacePeakExpected : Nat
  evidence : String
  deriving Repr, DecidableEq

structure CandidateBudget where
  guaranteedDurable : Nat
  expectedDurable : Nat
  workspacePeakGuaranteed : Nat
  workspacePeakExpected : Nat
  fileBudgets : List FileBudget
  deriving Repr, DecidableEq, Inhabited

structure MovementCost where
  transferBytes : Nat
  deriving Repr, DecidableEq, Inhabited

structure Candidate where
  requirementId : String
  taskKind : TaskKind
  targetDrive : String
  source : Option Source
  dependsOnRequirement : Option String
  reusedFiles : List ReusableFile
  missingFiles : List ManifestFile
  budget : CandidateBudget
  movementCost : MovementCost
  deriving Repr, DecidableEq, Inhabited

structure SatisfiedCopy where
  driveLabel : String
  reusedFiles : List ReusableFile
  sourceIdentity : Option SourceIdentity
  deriving Repr, DecidableEq

structure Satisfaction where
  requirementId : String
  copies : List SatisfiedCopy
  deriving Repr, DecidableEq

structure DriftRow where
  requirementId : String
  driveLabel : String
  rfilename : String
  reason : String
  deriving Repr, DecidableEq

structure BlockedRequirement where
  requirementId : String
  reason : String
  deriving Repr, DecidableEq

structure CandidateSet where
  satisfied : List Satisfaction
  byRequirement : List (String × List Candidate)
  drift : List DriftRow
  blocked : List BlockedRequirement
  deriving Repr, DecidableEq

end Modelark.Planning
