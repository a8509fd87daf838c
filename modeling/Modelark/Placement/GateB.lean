import Modelark.Placement.Structural
import Modelark.Placement.Search

/-!
# Gate B and improvement

The feasibility ladder over the admission-derived budgets, and the deterministic improvement of a
feasible assignment.
-/

namespace Modelark.Placement

open Library Planning

variable (pyHash : KeyPart → HashValue) (inp : SolverInput)

namespace SolverInput

/-- Candidate targets whose evidence is known not to be executable. -/
def relevantUnknowns : List String :=
  inp.unsatCandidateTargets.filter fun lab =>
    match inp.evidenceMap[lab]? with
    | some evidence => !evidence.executable
    | none => false

/-- Candidate targets whose usable maximum is unknown. -/
def targetsWithUnknownMax : List String :=
  inp.unsatCandidateTargets.filter fun lab => (inp.maximum lab).isNone

/-- A budget map with one drive at its usable maximum, if that is known. -/
def atMaximum (free : Dict String Int) (lab : String) : Dict String Int :=
  match inp.maximum lab with
  | some mx => free.insert lab mx
  | none => free

/-- Budgets with every relevant unknown drive at its usable maximum. -/
def optimisticFree : Dict String Int :=
  inp.relevantUnknowns.foldl inp.atMaximum inp.freeMap

/-- The feasibility search stops at the first complete assignment and has no monitor. -/
def feasibilityPolicy : DepthFirst.Policy where
  limit := inp.bounds.feasibilityStateLimit
  alarm := fun _ => false
  stopAtFirst := true

def optimizationPolicy (emergency : Nat → Bool) : DepthFirst.Policy where
  limit := inp.bounds.optimizationStateLimit
  alarm := emergency
  stopAtFirst := false

def gateResult (code : GateBCode) (assignment : Option CanonicalAssignment) (visited : Nat)
    (relevant : List String) (diagnostics : Diagnostics) (actions : List String)
    (message : Option String) : GateBResult where
  code := code
  capacityMode := inp.capacityMode
  assignment := assignment
  diagnostics := diagnostics
  actions := actions
  bounds := inp.bounds
  feasibilityStatesVisited := visited
  relevantUnknownDrives := relevant
  message := message

def unknownMayHelp (visited : Nat) (drives : List String) : GateBResult :=
  inp.gateResult .capacityEvidenceUnknown none visited inp.relevantUnknowns
    [("reason", .text "unknown_may_help"), ("drives", .labels drives)]
    ["mount_or_reconcile_drive", "retry_preview"]
    (some "known budgets cannot fit; named unknown drives could change the answer")

end SolverInput

/-- The second search, with unknown drives at their usable maxima. -/
def optimisticGate (visited : Nat) : GateBResult :=
  let relevant := inp.relevantUnknowns
  let result := search pyHash inp inp.optimisticFree inp.feasibilityPolicy
  let total := visited + result.visited
  match result.kind with
  | .found => inp.unknownMayHelp total relevant
  | .boundExhausted =>
      inp.gateResult .packingInconclusive none total relevant
        [("reason", .text "optimistic_state_limit"), ("drives", .labels relevant),
          ("visited", .number result.visited)]
        ["retry_higher_bound", "mount_or_reconcile_drive", "trim_selection"] none
  | _ =>
      inp.gateResult .infeasibleWithUnknownAtUsableMax none total relevant
        [("reason", .text "optimistic_exhaustive_infeasible"), ("drives", .labels relevant),
          ("note", .text "freeing known capacity may still help")]
        ["free_known_capacity", "add_capacity", "trim_selection", "change_hard_constraints"]
        (some ("resolving unknown evidence alone cannot help; " ++
          "freeing known capacity may still help"))

/-- What follows an exhaustive search that found nothing under the known budgets. -/
def knownInfeasibleGate (visited : Nat) : GateBResult :=
  let relevant := inp.relevantUnknowns
  let unknownMax := inp.targetsWithUnknownMax
  if relevant.isEmpty && unknownMax.isEmpty then
    inp.gateResult .infeasibleUnderAdmissionBudget none visited []
      [("reason", .text "known_exhaustive_infeasible")]
      ["add_admissible_capacity", "trim_selection", "change_capacity_mode"]
      (some ("proven infeasible under known admission budgets; " ++
        "free known capacity may still help"))
  else if !unknownMax.isEmpty then
    inp.unknownMayHelp visited (sortedSet (relevant ++ unknownMax))
  else optimisticGate pyHash inp visited

/-- The Gate-B ladder. -/
def gateB : GateBResult :=
  match inp.structural with
  | some failure => failure
  | none =>
      let result := search pyHash inp inp.freeMap inp.feasibilityPolicy
      match result.kind with
      | .found => inp.gateResult .feasible result.first result.visited [] [] [] none
      | .boundExhausted =>
          inp.gateResult .packingInconclusive none result.visited inp.relevantUnknowns
            [("reason", .text "feasibility_state_limit"), ("visited", .number result.visited)]
            ["retry_higher_bound", "trim_selection"] none
      | _ => knownInfeasibleGate pyHash inp result.visited

/-- Candidate targets for the score, or every drive with a budget when there are none. -/
def SolverInput.scoreTargets : List String :=
  if inp.unsatCandidateTargets.isEmpty then inp.freeMap.keys else inp.unsatCandidateTargets

/-- Deterministic improvement over a first feasible assignment. -/
def improve (firstFeasible : CanonicalAssignment) (emergency : Nat → Bool) : PlacementResult :=
  let firstScore := score firstFeasible inp.freeMap inp.scoreTargets inp.preference
  let result := search pyHash inp inp.freeMap (inp.optimizationPolicy emergency)
  let asn := result.best.getD firstFeasible
  let sc := result.bestScore.getD firstScore
  match result.kind with
  | .emergency =>
      { assignment := firstFeasible
        derivationMode := .canonicalFallback
        diagnostic := some "optimization_resource_exhausted"
        score := firstScore
        capacityMode := inp.capacityMode
        bounds := inp.bounds
        optimizationStatesVisited := 0 }
  | .boundExhausted =>
      { assignment := asn
        derivationMode := .stateTruncated
        diagnostic := some "optimization_truncated"
        score := sc
        capacityMode := inp.capacityMode
        bounds := inp.bounds
        optimizationStatesVisited := result.visited }
  | _ =>
      { assignment := asn
        derivationMode := .optimized
        diagnostic := none
        score := sc
        capacityMode := inp.capacityMode
        bounds := inp.bounds
        optimizationStatesVisited := result.visited }

end Modelark.Placement
