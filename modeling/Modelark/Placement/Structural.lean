import Modelark.Library.Tally
import Modelark.Placement.Types

/-!
# Structural checks of Gate B

The checks that run before any search: blocked requirements, dependency references and cycles,
failure domains and requirements larger than every usable maximum. The first failure in requirement
order is returned.
-/

namespace Modelark.Placement

open Library Planning

/-- Sets of the cycle check: the ids on the current chain, and those known to end. -/
structure VisitState where
  visiting : List String
  seen : List String
  deriving Repr, DecidableEq

namespace SolverInput

variable (inp : SolverInput)

def sortedReqs : List CopyRequirement :=
  sortBy CopyRequirement.requirementId inp.graph.desired

def structuralFailure (code : GateBCode) (diagnostics : Diagnostics) (actions : List String) :
    GateBResult where
  code := code
  capacityMode := inp.capacityMode
  assignment := none
  diagnostics := diagnostics
  actions := actions
  bounds := inp.bounds
  feasibilityStatesVisited := 0
  relevantUnknownDrives := []
  message := none

/-- 1 TARGET_TIER_MISSING and 2 UNPROVEN_PROVENANCE. -/
def blockedFailure (req : CopyRequirement) : Option GateBResult :=
  match inp.blockedById[req.requirementId]? with
  | none => none
  | some blocked =>
      if blocked.reason = "no_eligible_tier" then
        some (inp.structuralFailure .targetTierMissing
          [("requirement_id", .text req.requirementId), ("repo_id", .text req.repoId),
            ("kind", .text req.kind.value), ("eligible_drives", .labels req.eligibleDrives)]
          ["add_eligible_drive", "change_plan_policy"])
      else if blocked.reason = "all_targets_unproven" then
        let rows := inp.candidates.drift.filter fun row =>
          row.requirementId == req.requirementId && row.reason == "unproven_provenance"
        some (inp.structuralFailure .unprovenProvenance
          [("requirement_id", .text req.requirementId), ("repo_id", .text req.repoId),
            ("kind", .text req.kind.value),
            ("drives", .labels (sortedSet (rows.map DriftRow.driveLabel)))]
          ["repair_or_remove_unproven_rows", "provide_hash_evidence"])
      else none

def graphFailure (req : CopyRequirement) (invariant : String) : GateBResult :=
  inp.structuralFailure .graphDependencyInvariant
    [("requirement_id", .text req.requirementId),
      ("depends_on", DiagnosticValue.ofOption req.independentOf), ("invariant", .text invariant)]
    ["inspect_integrity", "reconcile_plan"]

/-- 3 GRAPH_DEPENDENCY_INVARIANT, a reference to no requirement. -/
def missingDependency (req : CopyRequirement) : Option GateBResult :=
  match req.independentOf with
  | none => none
  | some dep =>
      if dep ∈ inp.reqById then none
      else some (inp.graphFailure req "missing_dependency_reference")

/-- `dep and dep.independent_of`: the dependency that the cycle check follows. -/
def followedDependency (rid : String) : Option String :=
  ((inp.reqById[rid]?).bind CopyRequirement.independentOf).filter (· != "")

/-- Follow the dependencies of a requirement; true when the chain meets itself. The fuel bounds
    the length of the chain. -/
def visit : Nat → String → VisitState → Bool × VisitState
  | 0, _, state => (true, state)
  | fuel + 1, rid, state =>
      if rid ∈ state.seen then (false, state)
      else if rid ∈ state.visiting then (true, state)
      else
        let onChain := { state with visiting := rid :: state.visiting }
        match inp.followedDependency rid with
        | none => (false, ⟨onChain.visiting.erase rid, rid :: onChain.seen⟩)
        | some dep =>
            match visit fuel dep onChain with
            | (true, after) => (true, after)
            | (false, after) => (false, ⟨after.visiting.erase rid, rid :: after.seen⟩)

/-- The first requirement, in order, whose dependencies form a cycle. -/
def firstCycle : List CopyRequirement → VisitState → Option CopyRequirement
  | [], _ => none
  | req :: rest, state =>
      match inp.visit (inp.graph.desired.length + 1) req.requirementId state with
      | (true, _) => some req
      | (false, after) => firstCycle rest after

def dependencyCycle : Option GateBResult :=
  (inp.firstCycle inp.sortedReqs ⟨[], []⟩).map fun req => inp.graphFailure req "dependency_cycle"

/-- Drives the home may occupy: those it is satisfied on, else its eligible drives. -/
def homeTargets (homeId : String) (home : CopyRequirement) : List String :=
  let copies := match inp.candidates.satisfied.find? (·.requirementId == homeId) with
    | some item => item.copies.map SatisfiedCopy.driveLabel
    | none => []
  if copies.isEmpty then home.eligibleDrives else copies

/-- Some home target and some candidate target are known drives in different failure domains. -/
def separatedPair (homes : List String) (cands : List Candidate) : Bool :=
  homes.any fun ht =>
    match inp.driveMap[ht]? with
    | none => false
    | some hd => cands.any fun c =>
        match inp.driveMap[c.targetDrive]? with
        | none => false
        | some rd => !sameFailureDomain hd rd

def domainBit (attr : String) (x y : Option String) : List String :=
  if sharesIdentifier x y then [attr ++ ":" ++ x.getD ""] else []

/-- The identifiers shared by home and candidate drives. They are only reported when no pair is
    separated, so that every pair has been looked at. -/
def domainBits (homes : List String) (cands : List Candidate) : List String :=
  homes.flatMap fun ht =>
    match inp.driveMap[ht]? with
    | none => []
    | some hd => cands.flatMap fun c =>
        match inp.driveMap[c.targetDrive]? with
        | none => []
        | some rd => domainBit "fs_uuid" hd.fsUuid rd.fsUuid ++
            domainBit "annex_uuid" hd.annexUuid rd.annexUuid ++
            domainBit "serial" hd.serial rd.serial

def orSharedIdentity (bits : List String) : List String :=
  if bits.isEmpty then ["shared_identity"] else bits

/-- 4 FAILURE_DOMAIN_UNSATISFIABLE. -/
def failureDomain (req : CopyRequirement) : Option GateBResult :=
  if req.kind ≠ .protectedReplica then none
  else if req.requirementId ∈ inp.satisfiedIds ∨ req.requirementId ∈ inp.blockedById then none
  else
    match req.independentOf with
    | none => none
    | some homeId =>
        match inp.reqById[homeId]? with
        | none => none
        | some home =>
            let homes := inp.homeTargets homeId home
            let cands := inp.candsOf req.requirementId
            let okPair := inp.separatedPair homes cands
            let homeUnsat := homeId ∉ inp.satisfiedIds ∧ homeId ∉ inp.blockedById
            let anyHome := if homes.isEmpty then home.eligibleDrives else homes
            if cands.isEmpty then none
            else if okPair = false ∧ (homeUnsat ∨ homes ≠ []) ∧
                inp.separatedPair anyHome cands = false ∧ anyHome ≠ [] then
              some (inp.structuralFailure .failureDomainUnsatisfiable
                [("home_requirement_id", .text homeId),
                  ("replica_requirement_id", .text req.requirementId),
                  ("domain_evidence",
                    .labels (orSharedIdentity (sortedSet (inp.domainBits homes cands))))]
                ["add_independent_drive", "change_failure_domain_policy"])
            else none

/-- The known maximum of a candidate's target, when the candidate exceeds it. -/
def exceededMaximum (c : Candidate) : Option (String × Int) :=
  match inp.maximum c.targetDrive with
  | none => none
  | some mx => if (candPeak c inp.capacityMode : Int) ≤ mx then none else some (c.targetDrive, mx)

/-- 5 REQUIREMENT_EXCEEDS_USABLE_MAX: every candidate has a known maximum and exceeds it. -/
def exceedsUsableMax (req : CopyRequirement) : Option GateBResult :=
  if req.requirementId ∈ inp.satisfiedIds ∨ req.requirementId ∈ inp.blockedById then none
  else
    let cands := inp.candsOf req.requirementId
    if cands.isEmpty then none
    else if cands.all fun c => (inp.exceededMaximum c).isSome then
      some (inp.structuralFailure .requirementExceedsUsableMax
        [("requirement_id", .text req.requirementId), ("repo_id", .text req.repoId),
          ("peak_bytes", .number (peak (candPeak · inp.capacityMode) cands)),
          ("maxima", .maxima (sortBy toLex (cands.filterMap inp.exceededMaximum)))]
        ["add_larger_drive", "trim_selection", "change_hard_constraints"])
    else none

/-- The first structural failure in deterministic requirement order, or none. -/
def structural : Option GateBResult :=
  (inp.sortedReqs.findSome? inp.blockedFailure).or <|
    (inp.sortedReqs.findSome? inp.missingDependency).or <|
    inp.dependencyCycle.or <|
    (inp.sortedReqs.findSome? inp.failureDomain).or <|
    inp.sortedReqs.findSome? inp.exceedsUsableMax

end SolverInput

end Modelark.Placement
