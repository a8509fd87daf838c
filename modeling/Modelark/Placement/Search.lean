import Modelark.Library.DepthFirst
import Modelark.Placement.Partial

/-!
# The placement search

The static exploration order, the expansion of a node and the record of complete assignments make
up a depth-first search space; `search` runs it under a state limit and an emergency monitor.
-/

namespace Modelark.Placement

open Library Planning

abbrev OrderKey := Nat ×ₗ Int ×ₗ String

abbrev CandidateKey := Nat ×ₗ String ×ₗ Nat ×ₗ SourceKey ×ₗ String ×ₗ List String

/-- Deterministic candidate order. -/
def candidateSortKey (preference : Option SuccessorPreference) (c : Candidate) : CandidateKey :=
  let targetPreference := match preference with
    | none => 2
    | some pref =>
        if c.targetDrive = pref.successorDrive then 0
        else if pref.baseline[c.requirementId]? = some c.targetDrive then 1
        else 2
  toLex (targetPreference, toLex (c.targetDrive, toLex (c.movementCost.transferBytes,
    toLex (sourceKey c.source, toLex (c.taskKind.value,
      c.missingFiles.map ManifestFile.rfilename)))))

/-- What the search reads of the input, looked up once. -/
structure SearchContext where
  mode : String
  unsat : List String
  orderKey : String → OrderKey
  sortedCands : String → List Candidate
  candTargets : List String
  reqById : Dict String CopyRequirement
  driveMap : Dict String DriveFact
  satisfied : Dict String Unit
  preference : Option SuccessorPreference
  branch : Nat

/-- The first complete assignment, the best one so far and its score. -/
structure Found where
  first : Dict String Candidate
  best : Dict String Candidate
  bestScore : Score

inductive SearchKind where
  | found
  | boundExhausted
  | infeasible
  /-- The emergency monitor raised `EmergencyResourceLimit` out of the search. -/
  | emergency
  deriving Repr, DecidableEq

structure SearchResult where
  kind : SearchKind
  first : Option CanonicalAssignment
  visited : Nat
  best : Option CanonicalAssignment
  bestScore : Option Score

namespace SolverInput

variable (inp : SolverInput)

/-- Root static keys: constrainedness, peak, requirement id. -/
def staticOrderKey (free0 : Dict String Int) (rid : String) : OrderKey :=
  let cands := inp.candsOf rid
  let alone := (cands.filter fun c =>
    (candPeak c inp.capacityMode : Int) ≤ free0.getD c.targetDrive 0).length
  toLex (alone, toLex (-(peak (candPeak · inp.capacityMode) cands : Int), rid))

/-- Targets of the candidates of the open requirements. -/
def unsatCandidateTargets : List String :=
  sortedSet (inp.unsat.flatMap fun rid => (inp.candsOf rid).map Candidate.targetDrive)

def searchContext (free0 : Dict String Int) : SearchContext where
  mode := inp.capacityMode
  unsat := inp.unsat
  orderKey := inp.staticOrderKey free0
  sortedCands := fun rid => sortBy (candidateSortKey inp.preference) (inp.candsOf rid)
  candTargets := inp.unsatCandidateTargets
  reqById := inp.reqById
  driveMap := inp.driveMap
  satisfied := inp.satisfiedIds
  preference := inp.preference
  branch := total (fun item => item.2.length) inp.candidates.byRequirement

end SolverInput

namespace SearchContext

variable (ctx : SearchContext)

/-- The dependency of a requirement, if any, is assigned, or satisfied outside. -/
def dependencyMet (node : Partial) (rid : String) : Bool :=
  match (ctx.reqById[rid]?).bind CopyRequirement.independentOf with
  | none => true
  | some dep => dep ∈ node.assigned || dep ∈ ctx.satisfied

def ready (node : Partial) : List String :=
  ctx.unsat.filter fun rid => rid ∉ node.assigned && ctx.dependencyMet node rid

/-- A pending home must be assigned, or satisfied outside. -/
def pendingMet (node : Partial) (c : Candidate) : Bool :=
  match c.source with
  | some (.pendingHome home) => home ∈ node.assigned || home ∈ ctx.satisfied
  | _ => true

def admits (node : Partial) (c : Candidate) : Bool :=
  node.fits c ctx.mode && node.domainOk c ctx.driveMap ctx.reqById && ctx.pendingMet node c

/-- The candidates to try for the ready requirement with the least static key. -/
def expand (node : Partial) : List Candidate :=
  if node.assigned.size = ctx.unsat.dedup.length then []
  else
    match sortBy ctx.orderKey (ctx.ready node) with
    | [] => []
    | rid :: _ => (ctx.sortedCands rid).filter (ctx.admits node)

def complete (node : Partial) : Bool :=
  ctx.unsat.all fun rid => rid ∈ node.assigned

def recordComplete (found : Option Found) (node : Partial) : Option Found :=
  let sc := node.scorePartial ctx.mode ctx.candTargets ctx.preference
  let snap := node.assigned
  match found with
  | none => some ⟨snap, snap, sc⟩
  | some found =>
      if scoreKey sc < scoreKey found.bestScore then some ⟨found.first, snap, sc⟩
      else some found

/-- The search space over partial assignments. -/
def space (pyHash : KeyPart → HashValue) (free0 : Dict String Int) :
    DepthFirst.Space Partial Candidate HashValue (Option Found) where
  root := Partial.init free0
  push := fun node c => node.push pyHash ctx.mode c
  pop := Partial.pop
  key := Partial.stateHash
  expand := ctx.expand
  complete := ctx.complete
  record := ctx.recordComplete
  blank := none

/-- Install a snapshot into a fresh partial and read the assignment off. -/
def materialize (pyHash : KeyPart → HashValue) (free0 : Dict String Int)
    (snap : Dict String Candidate) : CanonicalAssignment :=
  let tmp := (snap.toList.map Prod.snd).foldl
    (fun node c => node.push pyHash ctx.mode c) (Partial.init free0)
  tmp.toAssignment ctx.mode

def walk (pyHash : KeyPart → HashValue) (free0 : Dict String Int) (policy : DepthFirst.Policy) :
    DepthFirst.Walk Partial Candidate HashValue (Option Found) :=
  DepthFirst.search (ctx.space pyHash free0) policy (policy.limit * (ctx.branch + 2))

/-- The result of a search over at least one open requirement. -/
def searchResult (pyHash : KeyPart → HashValue) (free0 : Dict String Int)
    (policy : DepthFirst.Policy) : SearchResult :=
  let walk := ctx.walk pyHash free0 policy
  let first := walk.record.map fun found => ctx.materialize pyHash free0 found.first
  let best := walk.record.map fun found => ctx.materialize pyHash free0 found.best
  let bestScore := walk.record.map Found.bestScore
  match walk.status with
  | .raised => ⟨.emergency, none, walk.visited, none, none⟩
  | .exhausted => ⟨.boundExhausted, first, walk.visited, best, bestScore⟩
  | _ =>
      match first with
      | some _ => ⟨.found, first, walk.visited, best, bestScore⟩
      | none => ⟨.infeasible, none, walk.visited, none, none⟩

end SearchContext

/-- The search from the input, with the trivial case of no open requirement. -/
def search (pyHash : KeyPart → HashValue) (inp : SolverInput) (free0 : Dict String Int)
    (policy : DepthFirst.Policy) : SearchResult :=
  if inp.unsat.isEmpty then
    let asn := (Partial.init free0).toAssignment inp.capacityMode
    ⟨.found, some asn, 1, some asn, some (score asn free0 free0.keys inp.preference)⟩
  else (inp.searchContext free0).searchResult pyHash free0 policy

end Modelark.Placement
