import Modelark.Placement.Guarantees

/-!
# Order independence

Gate B and improvement read their collections only through maps, sorted lists and counts. Hence a
permuted input gives the same verdict, assignment, score and number of visited states, also when a
state limit cuts the search short.
-/

namespace Modelark.Placement

open Library Planning DepthFirst

/-- The keys of every collection are unique, and so are candidates per target, source and kind. -/
structure UniqueKeys (inp : SolverInput) : Prop where
  requirements : (inp.graph.desired.map CopyRequirement.requirementId).Nodup
  groups : (inp.candidates.byRequirement.map Prod.fst).Nodup
  candidates : ∀ item ∈ inp.candidates.byRequirement, ∀ c ∈ item.2, ∀ c' ∈ item.2,
    c.targetDrive = c'.targetDrive → c.source = c'.source → c.taskKind = c'.taskKind → c = c'
  drives : (inp.drives.map DriveFact.driveLabel).Nodup
  satisfied : (inp.candidates.satisfied.map Satisfaction.requirementId).Nodup
  blocked : (inp.candidates.blocked.map BlockedRequirement.requirementId).Nodup
  budgets : (inp.executableBudget.map Prod.fst).Nodup
  maxima : (inp.maxUsableForEpoch.map Prod.fst).Nodup
  evidence : (inp.driveEvidence.map Prod.fst).Nodup

/-- The candidate groups in another order, with the candidates of each group in another order. -/
def Regrouped (groups groups' : List (String × List Candidate)) : Prop :=
  ∃ middle, groups.Perm middle ∧
    List.Forall₂ (fun item item' => item.1 = item'.1 ∧ item.2.Perm item'.2) middle groups'

/-- The same input with its collections in another order. -/
structure Shuffled (inp inp' : SolverInput) : Prop where
  requirements : inp.graph.desired.Perm inp'.graph.desired
  groups : Regrouped inp.candidates.byRequirement inp'.candidates.byRequirement
  drives : inp.drives.Perm inp'.drives
  satisfied : inp.candidates.satisfied.Perm inp'.candidates.satisfied
  blocked : inp.candidates.blocked.Perm inp'.candidates.blocked
  drift : inp.candidates.drift.Perm inp'.candidates.drift
  budgets : inp.executableBudget.Perm inp'.executableBudget
  maxima : inp.maxUsableForEpoch.Perm inp'.maxUsableForEpoch
  evidence : inp.driveEvidence.Perm inp'.driveEvidence
  mode : inp.capacityMode = inp'.capacityMode
  bounds : inp.bounds = inp'.bounds
  preference : inp.preference = inp'.preference

section Groups

variable {groups groups' : List (String × List Candidate)}

theorem Regrouped.keys (regrouped : Regrouped groups groups') :
    (groups.map Prod.fst).Perm (groups'.map Prod.fst) := by
  obtain ⟨middle, permuted, aligned⟩ := regrouped
  refine (permuted.map Prod.fst).trans ?_
  clear permuted
  induction aligned with
  | nil => exact .refl _
  | cons pair _ ih =>
      rw [List.map_cons, List.map_cons, pair.1]
      exact ih.cons _

theorem Regrouped.exists_perm (regrouped : Regrouped groups groups') {rid : String}
    {cands : List Candidate} (member : (rid, cands) ∈ groups) :
    ∃ cands', (rid, cands') ∈ groups' ∧ cands.Perm cands' := by
  obtain ⟨middle, permuted, aligned⟩ := regrouped
  have inMiddle := permuted.mem_iff.mp member
  clear permuted member
  induction aligned with
  | nil => exact absurd inMiddle List.not_mem_nil
  | @cons item item' _ _ pair _ ih =>
      rcases List.mem_cons.mp inMiddle with here | later
      · subst here
        obtain ⟨rid', cands'⟩ := item'
        obtain ⟨rfl, same⟩ := pair
        exact ⟨cands', List.mem_cons_self .., same⟩
      · obtain ⟨cands', listed, same⟩ := ih later
        exact ⟨cands', List.mem_cons_of_mem _ listed, same⟩

theorem Regrouped.total_length (regrouped : Regrouped groups groups') :
    total (fun item => item.2.length) groups = total (fun item => item.2.length) groups' := by
  obtain ⟨middle, permuted, aligned⟩ := regrouped
  rw [total_perm permuted]
  clear permuted
  induction aligned with
  | nil => rfl
  | cons pair _ ih => rw [total_cons, total_cons, pair.2.length_eq, ih]

end Groups

namespace Shuffled

variable {inp inp' : SolverInput} (shuffled : Shuffled inp inp') (unique : UniqueKeys inp)
include shuffled unique

theorem reqById_eq : inp.reqById = inp'.reqById := by
  refine Dict.ofPairs_perm (shuffled.requirements.map _) ?_
  rw [List.map_map]
  exact unique.requirements

theorem driveMap_eq : inp.driveMap = inp'.driveMap := by
  refine Dict.ofPairs_perm (shuffled.drives.map _) ?_
  rw [List.map_map]
  exact unique.drives

theorem evidenceMap_eq : inp.evidenceMap = inp'.evidenceMap :=
  Dict.ofPairs_perm shuffled.evidence unique.evidence

theorem maximum_eq : inp.maximum = inp'.maximum := by
  funext label
  have same : inp.maxima = inp'.maxima := Dict.ofPairs_perm shuffled.maxima unique.maxima
  rw [SolverInput.maximum, SolverInput.maximum, same]

theorem satisfiedIds_eq : inp.satisfiedIds = inp'.satisfiedIds := by
  refine Dict.ofPairs_perm (shuffled.satisfied.map _) ?_
  rw [List.map_map]
  exact unique.satisfied

theorem blockedById_eq : inp.blockedById = inp'.blockedById := by
  refine Dict.ofPairs_perm (shuffled.blocked.map _) ?_
  rw [List.map_map]
  exact unique.blocked

theorem freeMap_eq : inp.freeMap = inp'.freeMap := by
  rw [SolverInput.freeMap, SolverInput.freeMap, shuffled.evidenceMap_eq unique,
    Dict.ofPairs_perm shuffled.budgets unique.budgets]

/-- The candidates of a requirement are the same up to order. -/
theorem candsOf_perm (rid : String) : (inp.candsOf rid).Perm (inp'.candsOf rid) := by
  have unique' : (inp'.candidates.byRequirement.map Prod.fst).Nodup :=
    shuffled.groups.keys.nodup_iff.mp unique.groups
  rw [SolverInput.candsOf, SolverInput.candsOf, Dict.getD_eq, Dict.getD_eq]
  cases found : inp.candsByReq[rid]? with
  | some cands =>
      obtain ⟨cands', listed, same⟩ :=
        shuffled.groups.exists_perm (Dict.mem_of_lookup_ofPairs found)
      have found' : inp'.candsByReq[rid]? = some cands' := (Dict.lookup_ofPairs unique').mpr listed
      rw [found']
      exact same
  | none =>
      have absent : rid ∉ inp.candidates.byRequirement.map Prod.fst :=
        Dict.not_mem_ofPairs.mp (Dict.not_mem_iff_lookup.mpr found)
      have absent' : rid ∉ inp'.candidates.byRequirement.map Prod.fst :=
        fun member => absent (shuffled.groups.keys.mem_iff.mpr member)
      have found' : inp'.candsByReq[rid]? = none :=
        Dict.not_mem_iff_lookup.mp (Dict.not_mem_ofPairs.mpr absent')
      rw [found']

theorem isEmpty_candsOf (rid : String) :
    (inp.candsOf rid).isEmpty = (inp'.candsOf rid).isEmpty := by
  have same := (shuffled.candsOf_perm unique rid).length_eq
  cases left : inp.candsOf rid <;> cases right : inp'.candsOf rid <;> simp [left, right] at same ⊢

theorem unsat_eq : inp.unsat = inp'.unsat := by
  rw [SolverInput.unsat, SolverInput.unsat, shuffled.satisfiedIds_eq unique,
    shuffled.blockedById_eq unique]
  exact sortBy_id_eq_of_perm ((shuffled.requirements.map _).filter _)

theorem sortedReqs_eq : inp.sortedReqs = inp'.sortedReqs := by
  refine sortBy_eq_of_perm shuffled.requirements fun left member right member' same => ?_
  exact List.inj_on_of_nodup_map unique.requirements member member' same

theorem unsatCandidateTargets_eq : inp.unsatCandidateTargets = inp'.unsatCandidateTargets := by
  rw [SolverInput.unsatCandidateTargets, SolverInput.unsatCandidateTargets,
    shuffled.unsat_eq unique]
  refine sortedSet_congr fun lab => ?_
  simp only [List.mem_flatMap, List.mem_map, (shuffled.candsOf_perm unique _).mem_iff]

section Structural

theorem blockedFailure_eq : inp.blockedFailure = inp'.blockedFailure := by
  funext req
  have drives : ∀ p : DriftRow → Bool,
      sortedSet ((inp.candidates.drift.filter p).map DriftRow.driveLabel) =
        sortedSet ((inp'.candidates.drift.filter p).map DriftRow.driveLabel) :=
    fun p => sortedSet_congr fun lab => ((shuffled.drift.filter p).map _).mem_iff
  simp only [SolverInput.blockedFailure, SolverInput.structuralFailure,
    shuffled.blockedById_eq unique, drives, shuffled.mode, shuffled.bounds]

omit unique in
theorem graphFailure_eq : inp.graphFailure = inp'.graphFailure := by
  funext req invariant
  simp only [SolverInput.graphFailure, SolverInput.structuralFailure, shuffled.mode,
    shuffled.bounds]

theorem missingDependency_eq : inp.missingDependency = inp'.missingDependency := by
  funext req
  simp only [SolverInput.missingDependency, shuffled.reqById_eq unique,
    shuffled.graphFailure_eq]

theorem visit_eq (fuel : Nat) (rid : String) (state : VisitState) :
    inp.visit fuel rid state = inp'.visit fuel rid state := by
  induction fuel generalizing rid state with
  | zero => rfl
  | succ fuel ih =>
      have follows : inp.followedDependency rid = inp'.followedDependency rid := by
        rw [SolverInput.followedDependency, SolverInput.followedDependency,
          shuffled.reqById_eq unique]
      rw [SolverInput.visit, SolverInput.visit, follows]
      simp only [ih]

theorem firstCycle_eq (reqs : List CopyRequirement) (state : VisitState) :
    inp.firstCycle reqs state = inp'.firstCycle reqs state := by
  induction reqs generalizing state with
  | nil => rfl
  | cons req rest ih =>
      rw [SolverInput.firstCycle, SolverInput.firstCycle, shuffled.requirements.length_eq,
        shuffled.visit_eq unique]
      simp only [ih]

theorem dependencyCycle_eq : inp.dependencyCycle = inp'.dependencyCycle := by
  rw [SolverInput.dependencyCycle, SolverInput.dependencyCycle, shuffled.sortedReqs_eq unique,
    shuffled.firstCycle_eq unique, shuffled.graphFailure_eq]

theorem homeTargets_eq : inp.homeTargets = inp'.homeTargets := by
  funext homeId home
  have found : inp.candidates.satisfied.find? (·.requirementId == homeId) =
      inp'.candidates.satisfied.find? (·.requirementId == homeId) :=
    find?_key_perm shuffled.satisfied unique.satisfied homeId
  simp only [SolverInput.homeTargets, found]

theorem separatedPair_eq (homes : List String) (rid : String) :
    inp.separatedPair homes (inp.candsOf rid) = inp'.separatedPair homes (inp'.candsOf rid) := by
  simp only [SolverInput.separatedPair, shuffled.driveMap_eq unique]
  congr 1
  funext ht
  cases inp'.driveMap[ht]? with
  | none => rfl
  | some hd => exact (shuffled.candsOf_perm unique rid).any_eq

theorem domainBits_eq (homes : List String) (rid : String) :
    sortedSet (inp.domainBits homes (inp.candsOf rid)) =
      sortedSet (inp'.domainBits homes (inp'.candsOf rid)) := by
  refine sortedSet_congr fun bit => ?_
  simp only [SolverInput.domainBits, shuffled.driveMap_eq unique, List.mem_flatMap]
  refine exists_congr fun ht => and_congr_right fun _ => ?_
  cases inp'.driveMap[ht]? with
  | none => rfl
  | some hd => simp only [List.mem_flatMap, (shuffled.candsOf_perm unique rid).mem_iff]

theorem failureDomain_eq : inp.failureDomain = inp'.failureDomain := by
  funext req
  simp only [SolverInput.failureDomain, shuffled.satisfiedIds_eq unique,
    shuffled.blockedById_eq unique, shuffled.reqById_eq unique, shuffled.homeTargets_eq unique,
    shuffled.separatedPair_eq unique, shuffled.domainBits_eq unique,
    shuffled.isEmpty_candsOf unique, SolverInput.structuralFailure, shuffled.mode,
    shuffled.bounds]

theorem exceedsUsableMax_eq : inp.exceedsUsableMax = inp'.exceedsUsableMax := by
  funext req
  have exceeded : inp.exceededMaximum = inp'.exceededMaximum := by
    funext c
    rw [SolverInput.exceededMaximum, SolverInput.exceededMaximum, shuffled.maximum_eq unique,
      shuffled.mode]
  have cands := shuffled.candsOf_perm unique req.requirementId
  have sorted : sortBy toLex ((inp.candsOf req.requirementId).filterMap inp'.exceededMaximum) =
      sortBy toLex ((inp'.candsOf req.requirementId).filterMap inp'.exceededMaximum) :=
    sortBy_eq_of_perm (cands.filterMap _) fun _ _ _ _ same => toLex.injective same
  have peaks : peak (candPeak · inp'.capacityMode) (inp.candsOf req.requirementId) =
      peak (candPeak · inp'.capacityMode) (inp'.candsOf req.requirementId) := peak_perm cands
  have all : ((inp.candsOf req.requirementId).all fun c => (inp'.exceededMaximum c).isSome) =
      (inp'.candsOf req.requirementId).all fun c => (inp'.exceededMaximum c).isSome := cands.all_eq
  simp only [SolverInput.exceedsUsableMax, shuffled.satisfiedIds_eq unique,
    shuffled.blockedById_eq unique, shuffled.isEmpty_candsOf unique, exceeded, sorted, all,
    shuffled.mode, peaks, SolverInput.structuralFailure, shuffled.bounds]

theorem structural_eq : inp.structural = inp'.structural := by
  rw [SolverInput.structural, SolverInput.structural, shuffled.sortedReqs_eq unique,
    shuffled.blockedFailure_eq unique, shuffled.missingDependency_eq unique,
    shuffled.dependencyCycle_eq unique, shuffled.failureDomain_eq unique,
    shuffled.exceedsUsableMax_eq unique]

end Structural

section Search

/-- The candidate lists are explored in the same order. -/
theorem sortedCands_eq (rid : String) :
    sortBy (candidateSortKey inp.preference) (inp.candsOf rid) =
      sortBy (candidateSortKey inp'.preference) (inp'.candsOf rid) := by
  rw [shuffled.preference]
  refine sortBy_eq_of_perm (shuffled.candsOf_perm unique rid) fun c member c' member' same => ?_
  obtain ⟨item, listed, _, among, whole⟩ := SolverInput.mem_candsOf member
  have among' : c' ∈ item.2 := whole ▸ member'
  simp only [candidateSortKey, EmbeddingLike.apply_eq_iff_eq, Prod.mk.injEq] at same
  exact unique.candidates item listed c among c' among' same.2.1
    (sourceKey_injective same.2.2.2.1) (TaskKind.value_injective same.2.2.2.2.1)

theorem searchContext_eq (free0 : Dict String Int) :
    inp.searchContext free0 = inp'.searchContext free0 := by
  have order : inp.staticOrderKey free0 = inp'.staticOrderKey free0 := by
    funext rid
    have cands := shuffled.candsOf_perm unique rid
    rw [SolverInput.staticOrderKey, SolverInput.staticOrderKey, shuffled.mode, peak_perm cands,
      (cands.filter _).length_eq]
  have sorted := funext (shuffled.sortedCands_eq unique)
  rw [shuffled.preference] at sorted
  simp only [SolverInput.searchContext, shuffled.mode, shuffled.unsat_eq unique, order, sorted,
    shuffled.unsatCandidateTargets_eq unique, shuffled.reqById_eq unique,
    shuffled.driveMap_eq unique, shuffled.satisfiedIds_eq unique, shuffled.preference,
    shuffled.groups.total_length]

theorem search_eq (pyHash : KeyPart → HashValue) (free0 : Dict String Int) (policy : Policy) :
    search pyHash inp free0 policy = search pyHash inp' free0 policy := by
  rw [search, search, shuffled.unsat_eq unique, shuffled.mode, shuffled.preference,
    shuffled.searchContext_eq unique]

theorem relevantUnknowns_eq : inp.relevantUnknowns = inp'.relevantUnknowns := by
  rw [SolverInput.relevantUnknowns, SolverInput.relevantUnknowns,
    shuffled.unsatCandidateTargets_eq unique, shuffled.evidenceMap_eq unique]

theorem targetsWithUnknownMax_eq : inp.targetsWithUnknownMax = inp'.targetsWithUnknownMax := by
  rw [SolverInput.targetsWithUnknownMax, SolverInput.targetsWithUnknownMax,
    shuffled.unsatCandidateTargets_eq unique, shuffled.maximum_eq unique]

theorem optimisticFree_eq : inp.optimisticFree = inp'.optimisticFree := by
  have raised : inp.atMaximum = inp'.atMaximum := by
    funext free lab
    rw [SolverInput.atMaximum, SolverInput.atMaximum, shuffled.maximum_eq unique]
  rw [SolverInput.optimisticFree, SolverInput.optimisticFree, raised,
    shuffled.relevantUnknowns_eq unique, shuffled.freeMap_eq unique]

omit unique in
theorem feasibilityPolicy_eq : inp.feasibilityPolicy = inp'.feasibilityPolicy := by
  rw [SolverInput.feasibilityPolicy, SolverInput.feasibilityPolicy, shuffled.bounds]

omit unique in
theorem gateResult_eq : inp.gateResult = inp'.gateResult := by
  funext code assignment visited relevant diagnostics actions message
  rw [SolverInput.gateResult, SolverInput.gateResult, shuffled.mode, shuffled.bounds]

theorem unknownMayHelp_eq : inp.unknownMayHelp = inp'.unknownMayHelp := by
  funext visited drives
  rw [SolverInput.unknownMayHelp, SolverInput.unknownMayHelp, shuffled.gateResult_eq,
    shuffled.relevantUnknowns_eq unique]

end Search

end Shuffled

/-- Gate B and improvement do not depend on the order in which their input was written down. -/
theorem shuffled_results (pyHash : KeyPart → HashValue) (inp inp' : SolverInput)
    (shuffled : Shuffled inp inp') (unique : UniqueKeys inp) :
    gateB pyHash inp = gateB pyHash inp' ∧ ∀ first emergency,
      improve pyHash inp first emergency = improve pyHash inp' first emergency := by
  have optimistic : optimisticGate pyHash inp = optimisticGate pyHash inp' := by
    funext visited
    simp only [optimisticGate, shuffled.relevantUnknowns_eq unique, shuffled.search_eq unique,
      shuffled.optimisticFree_eq unique, shuffled.feasibilityPolicy_eq,
      shuffled.unknownMayHelp_eq unique, shuffled.gateResult_eq]
  have knownInfeasible : knownInfeasibleGate pyHash inp = knownInfeasibleGate pyHash inp' := by
    funext visited
    simp only [knownInfeasibleGate, shuffled.relevantUnknowns_eq unique,
      shuffled.targetsWithUnknownMax_eq unique, shuffled.gateResult_eq,
      shuffled.unknownMayHelp_eq unique, optimistic]
  refine ⟨?_, fun first emergency => ?_⟩
  · simp only [gateB, shuffled.structural_eq unique, shuffled.search_eq unique,
      shuffled.freeMap_eq unique, shuffled.feasibilityPolicy_eq,
      shuffled.gateResult_eq, shuffled.relevantUnknowns_eq unique, knownInfeasible]
  · have targets : inp.scoreTargets = inp'.scoreTargets := by
      rw [SolverInput.scoreTargets, SolverInput.scoreTargets,
        shuffled.unsatCandidateTargets_eq unique, shuffled.freeMap_eq unique]
    have policy : inp.optimizationPolicy emergency = inp'.optimizationPolicy emergency := by
      rw [SolverInput.optimizationPolicy, SolverInput.optimizationPolicy, shuffled.bounds]
    simp only [improve, shuffled.freeMap_eq unique, targets, shuffled.preference,
      shuffled.search_eq unique, policy, shuffled.mode, shuffled.bounds]

/-- `pairInput` with its collections written backwards. -/
def mirroredPair : SolverInput :=
  { pairInput with
    graph := ⟨pairInput.graph.desired.reverse⟩
    candidates :=
      { pairInput.candidates with byRequirement := pairInput.candidates.byRequirement.reverse }
    drives := pairInput.drives.reverse
    executableBudget := pairInput.executableBudget.reverse }

theorem shuffled_mirroredPair : Shuffled pairInput mirroredPair where
  requirements := (List.reverse_perm _).symm
  groups := ⟨_, (List.reverse_perm _).symm, List.forall₂_same.mpr fun _ _ => ⟨rfl, .refl _⟩⟩
  drives := (List.reverse_perm _).symm
  satisfied := .refl _
  blocked := .refl _
  drift := .refl _
  budgets := (List.reverse_perm _).symm
  maxima := .refl _
  evidence := .refl _
  mode := rfl
  bounds := rfl
  preference := rfl

theorem uniqueKeys_pairInput : UniqueKeys pairInput where
  requirements := by decide
  groups := by decide
  candidates := by decide
  drives := by decide
  satisfied := by decide
  blocked := by decide
  budgets := by decide
  maxima := by decide
  evidence := by decide

theorem shuffled_results_pair :
    gateB pairHash pairInput = gateB pairHash mirroredPair ∧ ∀ first emergency,
      improve pairHash pairInput first emergency = improve pairHash mirroredPair first emergency :=
  shuffled_results pairHash pairInput mirroredPair shuffled_mirroredPair uniqueKeys_pairInput

end Modelark.Placement
