import Modelark.Library.Dict
import Modelark.Planning.Types

/-!
# Solver input and results

The pure inputs and outputs of feasibility (Gate B) and improvement, with the small functions on
candidates that every later stage uses.
-/

namespace Modelark.Placement

open Library Planning

structure DriveEvidenceFact where
  executable : Bool
  deriving Repr, DecidableEq

structure SolverBounds where
  feasibilityStateLimit : Nat
  optimizationStateLimit : Nat
  deriving Repr, DecidableEq

/-- Proposal-bound preference for one replacement drive. -/
structure SuccessorPreference where
  successorDrive : String
  laneBytes : Int
  baselineTargets : List (String × String)
  deriving Repr, DecidableEq

structure SolverInput where
  graph : RequirementGraph
  candidates : CandidateSet
  drives : List DriveFact
  executableBudget : List (String × Int)
  maxUsableForEpoch : List (String × Option Int)
  driveEvidence : List (String × DriveEvidenceFact)
  capacityMode : String
  bounds : SolverBounds
  preference : Option SuccessorPreference
  deriving Repr, DecidableEq

structure AssignmentTask where
  requirementId : String
  taskKind : TaskKind
  targetDrive : String
  source : Option SourceIdentity
  dependsOnRequirement : Option String
  movementCost : Nat
  durable : Nat
  workspace : Nat
  missingFiles : List String
  reusedFiles : List String
  guaranteedDurable : Nat
  expectedDurable : Nat
  workspacePeakGuaranteed : Nat
  workspacePeakExpected : Nat
  budgetEvidence : String
  deriving Repr, DecidableEq

/-- Tasks in requirement order and the free bytes left on each drive. -/
structure CanonicalAssignment where
  tasks : List AssignmentTask
  remainingFree : List (String × Int)
  deriving Repr, DecidableEq

inductive GateBCode where
  | feasible
  | targetTierMissing
  | unprovenProvenance
  | graphDependencyInvariant
  | failureDomainUnsatisfiable
  | requirementExceedsUsableMax
  | packingInconclusive
  | infeasibleUnderAdmissionBudget
  | capacityEvidenceUnknown
  | infeasibleWithUnknownAtUsableMax
  deriving Repr, DecidableEq

inductive DiagnosticValue where
  | text (value : String)
  | absent
  | labels (values : List String)
  | number (value : Nat)
  | maxima (values : List (String × Int))
  deriving Repr, DecidableEq

def DiagnosticValue.ofOption : Option String → DiagnosticValue
  | some value => .text value
  | none => .absent

abbrev Diagnostics := List (String × DiagnosticValue)

structure GateBResult where
  code : GateBCode
  capacityMode : String
  assignment : Option CanonicalAssignment
  diagnostics : Diagnostics
  actions : List String
  bounds : SolverBounds
  feasibilityStatesVisited : Nat
  relevantUnknownDrives : List String
  message : Option String
  deriving Repr, DecidableEq

/-- A source as a sort key; `None` is below every string. -/
abbrev SourceKey := List (WithBot String)

abbrev CanonEntry := String ×ₗ String ×ₗ String ×ₗ SourceKey ×ₗ List String

/-- The part of a score that a successor preference adds. -/
structure PreferenceScore where
  gap : Int
  changed : Nat
  changedBytes : Nat
  deriving DecidableEq

structure Score where
  movement : Nat
  preference : Option PreferenceScore
  freeVec : List Int
  idle : Int
  canon : List CanonEntry
  deriving DecidableEq

inductive DerivationMode where
  | optimized
  | stateTruncated
  | canonicalFallback
  deriving Repr, DecidableEq

structure PlacementResult where
  assignment : CanonicalAssignment
  derivationMode : DerivationMode
  diagnostic : Option String
  score : Score
  capacityMode : String
  bounds : SolverBounds
  optimizationStatesVisited : Nat
  deriving DecidableEq

section Candidates

def guaranteed (mode : String) : Bool :=
  mode == "guaranteed" || mode == "uncompressed"

def candDurable (c : Candidate) (mode : String) : Nat :=
  if guaranteed mode then c.budget.guaranteedDurable else c.budget.expectedDurable

def candWorkspace (c : Candidate) (mode : String) : Nat :=
  if guaranteed mode then c.budget.workspacePeakGuaranteed else c.budget.workspacePeakExpected

def candPeak (c : Candidate) (mode : String) : Nat :=
  candDurable c mode + candWorkspace c mode

/-- An absent value is put below every text. The source has no order for the two and fails where a sort comes to
    compare them, which takes two sources of a requirement on one drive. -/
def optionKey : Option String → WithBot String
  | some value => value
  | none => ⊥

def identityKey (source : SourceIdentity) : SourceKey :=
  [("source" : String), source.driveLabel, optionKey source.annexKey, optionKey source.origSha256]

def sourceKey : Option Source → SourceKey
  | some (.identity source) => identityKey source
  | some (.pendingHome requirementId) => [("pending" : String), requirementId]
  | none => [("none" : String)]

theorem optionKey_injective : Function.Injective optionKey := by
  intro left right same
  cases left <;> cases right
  · rfl
  · exact absurd same.symm WithBot.coe_ne_bot
  · exact absurd same WithBot.coe_ne_bot
  · exact congrArg some (WithBot.coe_injective same)

theorem sourceKey_injective : Function.Injective sourceKey := by
  rintro (_ | ⟨⟨label, key, orig⟩⟩ | home) (_ | ⟨⟨label', key', orig'⟩⟩ | home') same <;>
    simp only [sourceKey, identityKey, List.cons.injEq, and_true, reduceCtorEq, and_false,
      WithBot.coe_inj] at same
  · rfl
  · obtain ⟨_, rfl, keys, origs⟩ := same
    rw [optionKey_injective keys, optionKey_injective origs]
  · rw [same.2]

/-- `x and y and x == y` for two optional identifiers. -/
def sharesIdentifier (x y : Option String) : Bool :=
  match x, y with
  | some x, some y => x != "" && y != "" && x == y
  | _, _ => false

def sameFailureDomain (a b : DriveFact) : Bool :=
  sharesIdentifier a.fsUuid b.fsUuid || sharesIdentifier a.annexUuid b.annexUuid ||
    sharesIdentifier a.serial b.serial

end Candidates

namespace SolverInput

variable (inp : SolverInput)

def driveMap : Dict String DriveFact :=
  Dict.ofPairs (inp.drives.map fun drive => (drive.driveLabel, drive))

def evidenceMap : Dict String DriveEvidenceFact :=
  Dict.ofPairs inp.driveEvidence

def maxima : Dict String (Option Int) :=
  Dict.ofPairs inp.maxUsableForEpoch

def reqById : Dict String CopyRequirement :=
  Dict.ofPairs (inp.graph.desired.map fun req => (req.requirementId, req))

def candsByReq : Dict String (List Candidate) :=
  Dict.ofPairs inp.candidates.byRequirement

def satisfiedIds : Dict String Unit :=
  Dict.ofPairs (inp.candidates.satisfied.map fun item => (item.requirementId, ()))

def blockedById : Dict String BlockedRequirement :=
  Dict.ofPairs (inp.candidates.blocked.map fun item => (item.requirementId, item))

/-- `cands.get(rid, ())`. -/
def candsOf (rid : String) : List Candidate :=
  inp.candsByReq.getD rid []

/-- `maxima.get(label)`, where a missing entry and an unknown maximum are both `None`. -/
def maximum (label : String) : Option Int :=
  (inp.maxima[label]?).join

/-- The budget map with every drive whose evidence is not executable set to zero. -/
def freeMap : Dict String Int :=
  inp.evidenceMap.toList.foldl
    (fun free item => if item.2.executable then free else free.insert item.1 0)
    (Dict.ofPairs inp.executableBudget)

/-- Requirements that are neither satisfied nor blocked, in id order. -/
def unsat : List String :=
  sortBy id ((inp.graph.desired.map CopyRequirement.requirementId).filter fun rid =>
    rid ∉ inp.satisfiedIds ∧ rid ∉ inp.blockedById)

end SolverInput

end Modelark.Placement
