import Modelark.Placement.Soundness

/-!
# What a feasible verdict guarantees

The outcome of Gate B by the kinds of its searches, and the guarantees of the assignments that
Gate B and improvement return.
-/

namespace Modelark.Placement

open Library Planning DepthFirst

namespace SolverInput

variable {inp : SolverInput} {failure : GateBResult}

/-- The codes of the structural ladder. -/
def structuralCodes : List GateBCode :=
  [.targetTierMissing, .unprovenProvenance, .graphDependencyInvariant,
    .failureDomainUnsatisfiable, .requirementExceedsUsableMax]

theorem blockedFailure_code {req : CopyRequirement} (failed : inp.blockedFailure req = some failure) :
    failure.code ∈ structuralCodes := by
  rw [blockedFailure] at failed
  split at failed
  · cases failed
  · split_ifs at failed
    · obtain rfl := Option.some.inj failed
      exact List.mem_of_elem_eq_true rfl
    · obtain rfl := Option.some.inj failed
      exact List.mem_of_elem_eq_true rfl

theorem missingDependency_code {req : CopyRequirement}
    (failed : inp.missingDependency req = some failure) : failure.code ∈ structuralCodes := by
  rw [missingDependency] at failed
  split at failed
  · cases failed
  · split_ifs at failed
    obtain rfl := Option.some.inj failed
    exact List.mem_of_elem_eq_true rfl

theorem dependencyCycle_code (failed : inp.dependencyCycle = some failure) :
    failure.code ∈ structuralCodes := by
  obtain ⟨req, _, rfl⟩ := Option.map_eq_some_iff.mp failed
  exact List.mem_of_elem_eq_true rfl

theorem failureDomain_code {req : CopyRequirement} (failed : inp.failureDomain req = some failure) :
    failure.code ∈ structuralCodes := by
  rw [failureDomain] at failed
  split_ifs at failed
  split at failed
  · cases failed
  · split at failed
    · cases failed
    · dsimp only at failed
      split_ifs at failed <;>
        (obtain rfl := Option.some.inj failed; exact List.mem_of_elem_eq_true rfl)

theorem exceedsUsableMax_code {req : CopyRequirement}
    (failed : inp.exceedsUsableMax req = some failure) : failure.code ∈ structuralCodes := by
  rw [exceedsUsableMax] at failed
  dsimp only at failed
  split_ifs at failed
  obtain rfl := Option.some.inj failed
  exact List.mem_of_elem_eq_true rfl

/-- A structural failure carries a code of the structural ladder. -/
theorem structural_code (failed : inp.structural = some failure) :
    failure.code ∈ structuralCodes := by
  simp only [structural, Option.or_eq_some_iff] at failed
  rcases failed with first | ⟨_, second | ⟨_, third | ⟨_, fourth | ⟨_, fifth⟩⟩⟩⟩
  · obtain ⟨req, _, failed⟩ := List.exists_of_findSome?_eq_some first
    exact blockedFailure_code failed
  · obtain ⟨req, _, failed⟩ := List.exists_of_findSome?_eq_some second
    exact missingDependency_code failed
  · exact dependencyCycle_code third
  · obtain ⟨req, _, failed⟩ := List.exists_of_findSome?_eq_some fourth
    exact failureDomain_code failed
  · obtain ⟨req, _, failed⟩ := List.exists_of_findSome?_eq_some fifth
    exact exceedsUsableMax_code failed

end SolverInput

section Verdict

variable {inp : SolverInput} {pyHash : KeyPart → HashValue}

theorem optimisticGate_code (visited : Nat) :
    (optimisticGate pyHash inp visited).code =
      match (search pyHash inp inp.optimisticFree inp.feasibilityPolicy).kind with
      | .found => .capacityEvidenceUnknown
      | .boundExhausted => .packingInconclusive
      | _ => .infeasibleWithUnknownAtUsableMax := by
  rw [optimisticGate]
  cases (search pyHash inp inp.optimisticFree inp.feasibilityPolicy).kind <;> rfl

theorem knownInfeasibleGate_code (visited : Nat) :
    (knownInfeasibleGate pyHash inp visited).code =
      if inp.targetsWithUnknownMax ≠ [] then .capacityEvidenceUnknown
      else if inp.relevantUnknowns = [] then .infeasibleUnderAdmissionBudget
      else (optimisticGate pyHash inp visited).code := by
  rw [knownInfeasibleGate]
  cases inp.targetsWithUnknownMax <;> cases inp.relevantUnknowns <;> rfl

/-- The verdict of Gate B on an input that passes the structural checks. -/
theorem gateB_code (passes : inp.structural = none) :
    (gateB pyHash inp).code =
      match (search pyHash inp inp.freeMap inp.feasibilityPolicy).kind with
      | .found => .feasible
      | .boundExhausted => .packingInconclusive
      | _ => (knownInfeasibleGate pyHash inp
          (search pyHash inp inp.freeMap inp.feasibilityPolicy).visited).code := by
  rw [gateB, passes]
  dsimp only
  cases (search pyHash inp inp.freeMap inp.feasibilityPolicy).kind <;> rfl

/-- A feasible verdict comes from the first search, and hands its first assignment over. -/
theorem gateB_feasible (feasible : (gateB pyHash inp).code = .feasible) :
    inp.structural = none ∧
      (search pyHash inp inp.freeMap inp.feasibilityPolicy).kind = .found ∧
      (gateB pyHash inp).assignment =
        (search pyHash inp inp.freeMap inp.feasibilityPolicy).first := by
  cases ladder : inp.structural with
  | some failure =>
      have code := SolverInput.structural_code ladder
      rw [gateB, ladder] at feasible
      dsimp only at feasible
      rw [feasible] at code
      exact absurd code (by decide)
  | none =>
      rw [gateB_code ladder, knownInfeasibleGate_code, optimisticGate_code] at feasible
      cases kind : (search pyHash inp inp.freeMap inp.feasibilityPolicy).kind with
      | found =>
          refine ⟨rfl, rfl, ?_⟩
          rw [gateB, ladder]
          dsimp only
          rw [kind]
          rfl
      | boundExhausted => rw [kind] at feasible; cases feasible
      | infeasible | emergency =>
          rw [kind] at feasible
          dsimp only at feasible
          split_ifs at feasible
          split at feasible <;> cases feasible

theorem search_first_of_found {free0 : Dict String Int} {policy : Policy}
    (found : (search pyHash inp free0 policy).kind = .found) :
    ∃ asn, (search pyHash inp free0 policy).first = some asn := by
  rw [search] at found ⊢
  split_ifs at found ⊢
  · exact ⟨_, rfl⟩
  · rw [SearchContext.searchResult] at found ⊢
    split at found
    · cases found
    · cases found
    · split at found
      · rename_i asn same
        exact ⟨asn, same⟩
      · cases found

/-- What a returned assignment guarantees: it is valid under the executable budgets, and every
    drive, used or not, keeps within its budget. -/
structure Guaranteed (inp : SolverInput) (asn : CanonicalAssignment) : Prop where
  valid : ValidAssignment inp inp.executableFree asn.tasks
  withinBudget : ∀ lab,
    ((durableOn asn.tasks lab + workspaceOn asn.tasks lab : Nat) : Int) ≤ inp.executableFree lab

theorem executableFree_nonneg (nonneg : ∀ item ∈ inp.executableBudget, 0 ≤ item.2) (lab : String) :
    0 ≤ inp.executableFree lab := by
  rw [SolverInput.executableFree]
  split
  · exact le_refl _
  · cases found : (Dict.ofPairs inp.executableBudget)[lab]? with
    | none => exact le_refl _
    | some free => exact nonneg _ (Dict.mem_of_lookup_ofPairs found)

theorem guaranteed_of_valid (nonneg : ∀ item ∈ inp.executableBudget, 0 ≤ item.2)
    {asn : CanonicalAssignment} (valid : ValidAssignment inp (inp.freeMap.getD · 0) asn.tasks) :
    Guaranteed inp asn := by
  have budgets : (fun lab => inp.freeMap.getD lab 0) = inp.executableFree :=
    funext inp.freeMap_getD
  rw [budgets] at valid
  refine ⟨valid, fun lab => ?_⟩
  by_cases used : ∃ t ∈ asn.tasks, t.targetDrive = lab
  · obtain ⟨t, member, rfl⟩ := used
    exact valid.capacity t member
  · have none : asn.tasks.filter (·.targetDrive == lab) = [] := by
      rw [List.filter_eq_nil_iff]
      intro t member here
      exact used ⟨t, member, beq_iff_eq.mp here⟩
    rw [durableOn, workspaceOn, none]
    exact executableFree_nonneg nonneg lab

theorem improve_valid (filed : inp.Filed)
    (unique : (inp.graph.desired.map CopyRequirement.requirementId).Nodup)
    {first : CanonicalAssignment} (emergency : Nat → Bool)
    (valid : ValidAssignment inp (inp.freeMap.getD · 0) first.tasks) :
    ValidAssignment inp (inp.freeMap.getD · 0) (improve pyHash inp first emergency).assignment.tasks := by
  have best : ValidAssignment inp (inp.freeMap.getD · 0)
      ((search pyHash inp inp.freeMap (inp.optimizationPolicy emergency)).best.getD first).tasks := by
    cases found : (search pyHash inp inp.freeMap (inp.optimizationPolicy emergency)).best with
    | none => exact valid
    | some asn => exact search_valid filed unique (.inr found)
  rw [improve]
  split
  · exact valid
  · exact best
  · exact best

/-- If Gate B returns FEASIBLE, its assignment, and whatever improvement makes of it under any
    monitor, has the guarantees of a valid assignment. -/
theorem feasible_guaranteed (pyHash : KeyPart → HashValue) (inp : SolverInput) (filed : inp.Filed)
    (unique : (inp.graph.desired.map CopyRequirement.requirementId).Nodup)
    (nonneg : ∀ item ∈ inp.executableBudget, 0 ≤ item.2)
    (feasible : (gateB pyHash inp).code = .feasible) :
    ∃ asn, (gateB pyHash inp).assignment = some asn ∧ Guaranteed inp asn ∧
      ∀ emergency, Guaranteed inp (improve pyHash inp asn emergency).assignment := by
  obtain ⟨_, found, handed⟩ := gateB_feasible feasible
  obtain ⟨asn, first⟩ := search_first_of_found found
  have valid : ValidAssignment inp (inp.freeMap.getD · 0) asn.tasks :=
    search_valid filed unique (.inl first)
  refine ⟨asn, handed.trans first, guaranteed_of_valid nonneg valid, fun emergency => ?_⟩
  exact guaranteed_of_valid nonneg (improve_valid filed unique emergency valid)

end Verdict

section Pair

/-- A protected home on one drive and its replica on another, with the home still pending. -/
def pairInput : SolverInput where
  graph := ⟨[
    ⟨"protected_home:m", "m", .protectedHome, ["alpha"], none⟩,
    ⟨"protected_replica:m", "m", .protectedReplica, ["beta"], some "protected_home:m"⟩]⟩
  candidates :=
    { satisfied := []
      byRequirement := [
        ("protected_home:m", [
          ⟨"protected_home:m", .fetch, "alpha", none, none, [], [], ⟨6, 4, 2, 3, []⟩, ⟨6⟩⟩]),
        ("protected_replica:m", [
          ⟨"protected_replica:m", .replicate, "beta", some (.pendingHome "protected_home:m"),
            some "protected_home:m", [], [], ⟨4, 4, 4, 4, []⟩, ⟨4⟩⟩])]
      drift := []
      blocked := [] }
  drives := [
    ⟨"alpha", "primary", true, 20, some "fs-a", none, none, "active", "enabled"⟩,
    ⟨"beta", "replica", false, 20, some "fs-b", none, none, "active", "enabled"⟩]
  executableBudget := [("alpha", 10), ("beta", 9)]
  maxUsableForEpoch := [("alpha", some 20), ("beta", some 20)]
  driveEvidence := [("alpha", ⟨true⟩), ("beta", ⟨true⟩)]
  capacityMode := "guaranteed"
  bounds := ⟨16, 16⟩
  preference := none

/-- Gives the parts of `pairInput` different bits. -/
def pairHash (part : KeyPart) : HashValue :=
  if part.requirementId = "protected_home:m" then 1
  else if part.source = [("pending" : String), ("protected_home:m" : String)] then 2
  else 4

theorem pairInput_wellFormed : pairInput.WellFormed where
  keyed := by decide
  pending := by
    intro item listed c among home pending
    simp only [pairInput, List.mem_cons, List.not_mem_nil, or_false] at listed
    rcases listed with rfl | rfl <;> obtain rfl := List.mem_singleton.mp among
    · cases pending
    · obtain rfl := Source.pendingHome.inj (Option.some.inj pending)
      exact ⟨by decide, _, rfl, rfl⟩
  uniqueIds := by decide
  distinct := by decide
  unmixed := by
    intro item listed c among c' among' home pending
    simp only [pairInput, List.mem_cons, List.not_mem_nil, or_false] at listed
    rcases listed with rfl | rfl <;> obtain rfl := List.mem_singleton.mp among <;>
      obtain rfl := List.mem_singleton.mp among' <;> exact pending
  namedDependency := by decide

theorem feasible_guaranteed_pair :
    ∃ asn, (gateB pairHash pairInput).assignment = some asn ∧ Guaranteed pairInput asn ∧
      ∀ emergency, Guaranteed pairInput (improve pairHash pairInput asn emergency).assignment :=
  feasible_guaranteed pairHash pairInput pairInput_wellFormed.toFiled (by decide) (by decide)
    (by decide)

/-- The home of `pairInput` is satisfied, and yet its replica waits for it. -/
def settledInput : SolverInput :=
  { pairInput with
    candidates := { pairInput.candidates with satisfied := [⟨"protected_home:m", []⟩] } }

/-- The source of the replica's task is never resolved, for there is no task of the home. -/
theorem feasible_unresolved : ¬∀ (pyHash : KeyPart → HashValue) (inp : SolverInput),
    (inp.graph.desired.map CopyRequirement.requirementId).Nodup →
    (∀ item ∈ inp.executableBudget, 0 ≤ item.2) → (gateB pyHash inp).code = .feasible →
      ∃ asn, (gateB pyHash inp).assignment = some asn ∧ Guaranteed inp asn := by
  intro claimed
  obtain ⟨asn, returned, guaranteed⟩ := claimed pairHash settledInput (by decide) (by decide) (by decide +kernel)
  have only : asn.tasks.map (fun t => (t.requirementId, t.source)) = [("protected_replica:m", none)] := by
    have found : (gateB pairHash settledInput).assignment.map
        (fun asn => asn.tasks.map fun t => (t.requirementId, t.source)) =
          some [("protected_replica:m", none)] := by decide +kernel
    rw [returned] at found
    exact Option.some.inj found
  obtain ⟨t, tasks⟩ := List.length_eq_one_iff.mp (by simpa using congrArg List.length only)
  rw [tasks] at only
  obtain ⟨named, _⟩ := Prod.mk.inj (List.cons.inj only).1
  obtain ⟨c, listed, _, resolves⟩ := guaranteed.valid.candidate t (by rw [tasks]; exact List.mem_singleton_self _)
  rw [named] at listed
  obtain rfl := List.mem_singleton.mp (show c ∈ [_] from listed)
  obtain ⟨home, among, owner, _⟩ := resolves
  rw [tasks] at among
  rw [List.mem_singleton.mp among, named] at owner
  exact absurd owner (by decide)

end Pair

end Modelark.Placement
