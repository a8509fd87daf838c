import Modelark.Planning.Candidates
import Modelark.Placement.Validity

/-!
# Constructed inputs

What candidate construction promises: the desired copies have distinct identifiers, every candidate
comes from a drive where the requirement can be finished, and the solver input built from them is
well formed.
-/

open Modelark.Archive

namespace Modelark.Planning.PlannerInput

open Library

variable {inp : PlannerInput} {u : Unicode}

theorem mem_desired {req : CopyRequirement} : req ∈ inp.requirements.desired ↔
    ∃ repo ∈ inp.manifests.map Prod.fst, req ∈ inp.desiredOf repo := by
  simp only [requirements, mem_sortBy, List.mem_flatMap, List.mem_map, exists_exists_and_eq_and]

theorem repoId_of_desired {req : CopyRequirement} {repo : String} (member : req ∈ inp.desiredOf repo) :
    req.repoId = repo := by
  unfold desiredOf at member
  dsimp only at member
  split_ifs at member <;> simp only [List.mem_cons, List.not_mem_nil, or_false] at member
  · rw [member]
  · rcases member with rfl | rfl <;> rfl

/-- The identifiers of one repository's desired copies tell the repository. -/
theorem id_of_desired {req : CopyRequirement} {repo : String} (member : req ∈ inp.desiredOf repo) :
    req.requirementId ∈
      [("primary:" ++ repo : String), "protected_home:" ++ repo, "protected_replica:" ++ repo] := by
  unfold desiredOf at member
  dsimp only at member
  split_ifs at member <;> simp only [List.mem_cons, List.not_mem_nil, or_false] at member
  · simp [member]
  · rcases member with rfl | rfl <;> simp

theorem nodup_desiredOf (repo : String) :
    ((inp.desiredOf repo).map CopyRequirement.requirementId).Nodup := by
  unfold desiredOf
  dsimp only
  split_ifs
  · exact List.nodup_singleton _
  · simp only [List.map_cons, List.map_nil, List.nodup_cons, List.mem_singleton,
      List.not_mem_nil, not_false_eq_true, List.nodup_nil, and_true]
    intro same
    have chars := congrArg String.toList same
    simp [String.toList_append] at chars

theorem ids_disjoint {repo repo' : String} (apart : repo ≠ repo') :
    List.Disjoint ((inp.desiredOf repo).map CopyRequirement.requirementId)
      ((inp.desiredOf repo').map CopyRequirement.requirementId) := by
  rintro rid left right
  obtain ⟨req, member, rfl⟩ := List.mem_map.mp left
  obtain ⟨req', member', same⟩ := List.mem_map.mp right
  have id := id_of_desired member
  have id' := id_of_desired member'
  rw [same] at id'
  simp only [List.mem_cons, List.not_mem_nil, or_false] at id id'
  apply apart
  rcases id with id | id | id <;> rcases id' with id' | id' | id' <;>
    (have chars := congrArg String.toList (id.symm.trans id')
     simp [String.toList_append] at chars)
  all_goals exact String.toList_injective chars

/-- Repositories listed once give requirements with distinct identifiers. -/
theorem nodup_requirements :
    (inp.requirements.desired.map CopyRequirement.requirementId).Nodup := by
  have sorted := (sortBy_perm CopyRequirement.requirementId
    (inp.manifests.flatMap fun entry => inp.desiredOf entry.1)).map CopyRequirement.requirementId
  rw [requirements, sorted.nodup_iff, List.map_flatMap, List.nodup_flatMap]
  refine ⟨fun entry _ => nodup_desiredOf entry.1, ?_⟩
  exact (List.pairwise_map.mp inp.uniqueRepos).imp fun apart => ids_disjoint apart

theorem replica_of_desired {req : CopyRequirement} {repo : String}
    (member : req ∈ inp.desiredOf repo) (replica : req.kind = .protectedReplica) :
    req.independentOf = some ("protected_home:" ++ repo) ∧
      ∃ home ∈ inp.desiredOf repo, home.requirementId = "protected_home:" ++ repo := by
  unfold desiredOf at member ⊢
  dsimp only at member ⊢
  split_ifs at member ⊢ with single
  · simp only [List.mem_cons, List.not_mem_nil, or_false] at member
    subst member
    cases replica
  · simp only [List.mem_cons, List.not_mem_nil, or_false] at member
    rcases member with rfl | rfl
    · cases replica
    · exact ⟨rfl, _, List.mem_cons_self .., rfl⟩

theorem independentOf_of_desired {req : CopyRequirement} {repo dep : String}
    (member : req ∈ inp.desiredOf repo) (depends : req.independentOf = some dep) :
    req.kind = .protectedReplica ∧ dep = "protected_home:" ++ repo := by
  unfold desiredOf at member
  dsimp only at member
  split_ifs at member <;> simp only [List.mem_cons, List.not_mem_nil, or_false] at member
  · subst member
    cases depends
  · rcases member with rfl | rfl
    · cases depends
    · exact ⟨rfl, (Option.some.inj depends).symm⟩

theorem id_of_dependent {req : CopyRequirement} {repo dep : String}
    (member : req ∈ inp.desiredOf repo) (depends : req.independentOf = some dep) :
    req.requirementId = "protected_replica:" ++ repo := by
  unfold desiredOf at member
  dsimp only at member
  split_ifs at member <;> simp only [List.mem_cons, List.not_mem_nil, or_false] at member
  · subst member
    cases depends
  · rcases member with rfl | rfl
    · cases depends
    · rfl

section Candidates

variable {graph : RequirementGraph} {req : CopyRequirement}

/-- Every candidate finishes a drive that holds part of the manifest or nothing of it. -/
theorem mem_candidatesOf {c : Candidate} : c ∈ inp.candidatesOf u graph req ↔
    ∃ held ∈ inp.finishable u req,
      (req.kind ≠ .protectedReplica ∧ c = inp.fetchCandidate req held) ∨
      (req.kind = .protectedReplica ∧ ∃ source ∈ inp.replicaSources u graph req,
        c = inp.replicaCandidate req held source) := by
  simp only [candidatesOf, List.mem_flatMap]
  refine exists_congr fun held => and_congr_right fun _ => ?_
  cases req.kind <;> simp [eq_comm]

theorem requirementId_of_candidate {c : Candidate} (member : c ∈ inp.candidatesOf u graph req) :
    c.requirementId = req.requirementId := by
  obtain ⟨held, _, ⟨_, rfl⟩ | ⟨_, source, _, rfl⟩⟩ := mem_candidatesOf.mp member <;> rfl

theorem mem_finishable {held : Holding} : held ∈ inp.finishable u req ↔
    ∃ label ∈ inp.acceptedCompletePool req, held = inp.holding u req label ∧
      held.unproven = [] ∧ held.missing ≠ [] ∧ label ∈ req.eligibleDrives := by
  simp only [finishable, holdings, List.mem_filter, List.mem_map, Bool.and_eq_true,
    List.isEmpty_iff, Bool.not_eq_eq_eq_not, Bool.not_true, List.isEmpty_eq_false_iff,
    List.contains_iff_mem]
  constructor
  · rintro ⟨⟨label, pooled, rfl⟩, ⟨unproven, missing⟩, eligible⟩
    exact ⟨label, pooled, rfl, unproven, missing, eligible⟩
  · rintro ⟨label, pooled, rfl, unproven, missing, eligible⟩
    exact ⟨⟨label, pooled, rfl⟩, ⟨unproven, missing⟩, eligible⟩

theorem mem_complete {held : Holding} : held ∈ inp.complete u req ↔
    ∃ label ∈ inp.acceptedCompletePool req, held = inp.holding u req label ∧
      held.unproven = [] ∧ held.missing = [] := by
  simp only [complete, holdings, List.mem_filter, List.mem_map, Bool.and_eq_true,
    List.isEmpty_iff]
  constructor
  · rintro ⟨⟨label, pooled, rfl⟩, unproven, missing⟩
    exact ⟨label, pooled, rfl, unproven, missing⟩
  · rintro ⟨label, pooled, rfl, unproven, missing⟩
    exact ⟨⟨label, pooled, rfl⟩, unproven, missing⟩

/-- On a complete drive every file of the manifest is proven. -/
theorem proven_of_complete {label : String} (unproven : (inp.holding u req label).unproven = [])
    (missing : (inp.holding u req label).missing = []) {mf : ManifestFile}
    (listed : mf ∈ inp.manifestOf req.repoId) : inp.verdict u req.repoId label mf = .proven := by
  cases found : inp.verdict u req.repoId label mf with
  | proven => rfl
  | missing =>
      have absent : mf ∈ (inp.holding u req label).missing := by simp [holding, listed, found]
      rw [missing] at absent
      cases absent
  | unproven =>
      have bad : mf ∈ (inp.holding u req label).unproven := by simp [holding, listed, found]
      rw [unproven] at bad
      cases bad

theorem provenCopy_of_complete {label : String} {mf : ManifestFile}
    (listed : mf ∈ inp.manifestOf req.repoId)
    (all : ∀ mf ∈ inp.manifestOf req.repoId, inp.verdict u req.repoId label mf = .proven) :
    inp.provenCopy u req.repoId label (inp.manifestOf req.repoId) = true := by
  have held : inp.rowsOn req.repoId label ≠ [] := by
    intro none
    have proven := all mf listed
    simp [verdict, rowOf, none, proof] at proven
  simp only [provenCopy, Bool.and_eq_true, Bool.not_eq_eq_eq_not, Bool.not_true,
    List.isEmpty_eq_false_iff, List.all_eq_true, beq_iff_eq]
  exact ⟨held, all⟩

theorem missing_listed {label : String} {mf : ManifestFile}
    (member : mf ∈ (inp.holding u req label).missing) : mf ∈ inp.manifestOf req.repoId := by
  simp only [holding, mem_sortBy, List.mem_filter] at member
  exact member.1

theorem replicaSources_of_pending {home : String}
    (pending : Source.pendingHome home ∈ inp.replicaSources u graph req) :
    inp.homeSources u graph req = [] ∧ home = req.independentOf.getD "" ∧
      inp.replicaSources u graph req = [.pendingHome home] := by
  cases sources : inp.homeSources u graph req with
  | nil =>
      rw [replicaSources, sources] at pending ⊢
      obtain rfl := Source.pendingHome.inj (List.mem_singleton.mp pending)
      exact ⟨rfl, rfl, rfl⟩
  | cons source rest =>
      rw [replicaSources, sources] at pending
      simp at pending

theorem mem_byRequirement {item : String × List Candidate}
    (listed : item ∈ (inp.candidates u graph).byRequirement) :
    ∃ req ∈ graph.desired, inp.complete u req = [] ∧ item.1 = req.requirementId ∧
      item.2 = sortBy candidateKey (inp.candidatesOf u graph req) := by
  simp only [candidates, mem_sortBy, List.mem_map, List.mem_filter, Bool.and_eq_true,
    List.isEmpty_iff] at listed
  obtain ⟨req, ⟨desired, open', _⟩, rfl⟩ := listed
  exact ⟨req, desired, open', rfl, rfl⟩

theorem mem_satisfied {rid : String} :
    rid ∈ (inp.candidates u graph).satisfied.map Satisfaction.requirementId ↔
      ∃ req ∈ graph.desired, inp.complete u req ≠ [] ∧ req.requirementId = rid := by
  simp only [candidates, List.mem_map, mem_sortBy, List.mem_filter, Bool.not_eq_eq_eq_not,
    Bool.not_true, List.isEmpty_eq_false_iff]
  constructor
  · rintro ⟨_, ⟨req, ⟨desired, done⟩, rfl⟩, rfl⟩
    exact ⟨req, desired, done, rfl⟩
  · rintro ⟨req, desired, done, rfl⟩
    exact ⟨_, ⟨req, ⟨desired, done⟩, rfl⟩, rfl⟩

end Candidates

end Modelark.Planning.PlannerInput

namespace Modelark.Placement

open Library Planning PlannerInput

/-- A solver input whose requirements and candidates were constructed from a planner input. -/
structure Constructed (u : Unicode) (inp : PlannerInput) (solver : SolverInput) : Prop where
  graph : solver.graph = inp.requirements
  candidates : solver.candidates = inp.candidates u inp.requirements

namespace Constructed

variable {u : Unicode} {inp : PlannerInput} {solver : SolverInput}
  (built : Constructed u inp solver)
include built

theorem uniqueIds : (solver.graph.desired.map CopyRequirement.requirementId).Nodup := by
  rw [built.graph]
  exact nodup_requirements

theorem reqById {req : CopyRequirement} (desired : req ∈ inp.requirements.desired) :
    solver.reqById[req.requirementId]? = some req := by
  have distinct := built.uniqueIds
  rw [SolverInput.reqById, Dict.lookup_ofPairs (by rwa [List.map_map]), List.mem_map]
  exact ⟨req, built.graph ▸ desired, rfl⟩

/-- A listed candidate belongs to the open requirement it is filed under. -/
theorem exists_requirement {item : String × List Candidate}
    (listed : item ∈ solver.candidates.byRequirement) :
    ∃ req ∈ inp.requirements.desired, inp.complete u req = [] ∧ item.1 = req.requirementId ∧
      ∀ c, c ∈ item.2 ↔ c ∈ inp.candidatesOf u inp.requirements req := by
  rw [built.candidates] at listed
  obtain ⟨req, desired, pending, id, cands⟩ := mem_byRequirement listed
  exact ⟨req, desired, pending, id, fun c => by rw [cands, mem_sortBy]⟩

/-- A satisfied requirement has a complete copy. -/
theorem complete_of_satisfied {req : CopyRequirement}
    (desired : req ∈ inp.requirements.desired) (satisfied : req.requirementId ∈ solver.satisfiedIds) :
    inp.complete u req ≠ [] := by
  obtain ⟨_, paired⟩ := Dict.mem_ofPairs.mp satisfied
  obtain ⟨item, listed, same⟩ := List.mem_map.mp paired
  rw [built.candidates] at listed
  obtain ⟨other, otherDesired, done, id⟩ := mem_satisfied.mp (List.mem_map_of_mem listed)
  obtain rfl : other = req := List.inj_on_of_nodup_map nodup_requirements otherDesired desired
    (id.trans (congrArg Prod.fst same))
  exact done

/-- A pending home is only named while no complete home exists. -/
theorem pending_open {req : CopyRequirement} (desired : req ∈ inp.requirements.desired)
    {c : Candidate} (member : c ∈ inp.candidatesOf u inp.requirements req) {home : String}
    (pending : c.source = some (.pendingHome home)) :
    home ∉ solver.satisfiedIds ∧ req.independentOf = some home := by
  obtain ⟨held, finish, ⟨_, rfl⟩ | ⟨replica, source, among, rfl⟩⟩ := mem_candidatesOf.mp member
  · cases pending
  obtain rfl : source = .pendingHome home := Option.some.inj pending
  obtain ⟨noSource, named, _⟩ := replicaSources_of_pending among
  obtain ⟨repo, listed, ofRepo⟩ := mem_desired.mp desired
  obtain ⟨depends, homeReq, ofRepo', homeId⟩ := replica_of_desired ofRepo replica
  have home_eq : home = "protected_home:" ++ repo := by rw [named, depends, Option.getD_some]
  refine ⟨fun satisfied => ?_, by rw [depends, home_eq]⟩
  -- A satisfied home has a complete copy, which would be a source of the replica.
  obtain ⟨_, _, heldHere, _, missing, _⟩ := mem_finishable.mp finish
  obtain ⟨mf, absent⟩ := List.exists_mem_of_ne_nil _ missing
  have listedFile : mf ∈ inp.manifestOf req.repoId := missing_listed (heldHere ▸ absent)
  have homeDesired : homeReq ∈ inp.requirements.desired := mem_desired.mpr ⟨repo, listed, ofRepo'⟩
  have complete : inp.complete u homeReq ≠ [] :=
    built.complete_of_satisfied homeDesired (homeId ▸ home_eq ▸ satisfied)
  obtain ⟨copy, isComplete⟩ := List.exists_mem_of_ne_nil _ complete
  obtain ⟨label, pooled, rfl, unproven, nothingMissing⟩ := mem_complete.mp isComplete
  have sameRepo : homeReq.repoId = req.repoId := by
    rw [repoId_of_desired ofRepo, repoId_of_desired ofRepo']
  have proven : inp.provenCopy u req.repoId label (inp.manifestOf req.repoId) = true :=
    sameRepo ▸ provenCopy_of_complete (sameRepo ▸ listedFile) fun _ =>
      proven_of_complete unproven nothingMissing
  have found : (Dict.ofPairs (inp.requirements.desired.map fun item => (item.requirementId, item)))[
      ("protected_home:" ++ repo : String)]? = some homeReq := by
    rw [Dict.lookup_ofPairs (by simpa [Function.comp_def] using inp.nodup_requirements)]
    exact List.mem_map.mpr ⟨homeReq, homeDesired, by rw [homeId]⟩
  simp only [homeSources, depends, Option.bind_some, found, List.map_eq_nil_iff,
    List.filter_eq_nil_iff] at noSource
  exact noSource label pooled proven

theorem filed : solver.Filed where
  keyed := by
    intro item listed c among
    obtain ⟨req, _, _, id, same⟩ := built.exists_requirement listed
    rw [id, requirementId_of_candidate ((same c).mp among)]
  pending := by
    intro item listed c among home pending
    obtain ⟨req, desired, _, _, same⟩ := built.exists_requirement listed
    obtain ⟨fresh, depends⟩ := built.pending_open desired ((same c).mp among) pending
    refine ⟨fresh, req, ?_, depends⟩
    rw [requirementId_of_candidate ((same c).mp among)]
    exact built.reqById desired

omit built in
/-- Candidates of a requirement are determined by their target and source. -/
theorem eq_of_target_source {graph : RequirementGraph} {req : CopyRequirement} {c c' : Candidate}
    (member : c ∈ inp.candidatesOf u graph req) (member' : c' ∈ inp.candidatesOf u graph req)
    (target : c.targetDrive = c'.targetDrive) (source : c.source = c'.source) : c = c' := by
  obtain ⟨held, finish, fetched⟩ := mem_candidatesOf.mp member
  obtain ⟨held', finish', fetched'⟩ := mem_candidatesOf.mp member'
  obtain ⟨label, _, here, _⟩ := mem_finishable.mp finish
  obtain ⟨label', _, here', _⟩ := mem_finishable.mp finish'
  have targets : c.targetDrive = held.driveLabel ∧ c'.targetDrive = held'.driveLabel := by
    constructor
    · rcases fetched with ⟨_, rfl⟩ | ⟨_, _, _, rfl⟩ <;> rfl
    · rcases fetched' with ⟨_, rfl⟩ | ⟨_, _, _, rfl⟩ <;> rfl
  have sameHeld : held = held' := by
    have labels : label = label' := by
      have drives : held.driveLabel = held'.driveLabel := by
        rw [← targets.1, ← targets.2, target]
      rw [here, here'] at drives
      exact drives
    rw [here, here', labels]
  subst sameHeld
  rcases fetched with ⟨home, rfl⟩ | ⟨replica, from_, _, rfl⟩ <;>
    rcases fetched' with ⟨home', rfl⟩ | ⟨replica', from', _, rfl⟩
  · rfl
  · exact absurd replica' home
  · exact absurd replica home'
  · rw [Option.some.inj source]

theorem wellFormed : solver.WellFormed where
  toFiled := built.filed
  uniqueIds := built.uniqueIds
  distinct := by
    intro item listed c among c' among' target source _
    obtain ⟨req, _, _, _, same⟩ := built.exists_requirement listed
    exact eq_of_target_source ((same c).mp among) ((same c').mp among') target source
  unmixed := by
    intro item listed c among c' among' home pending
    obtain ⟨req, _, _, _, same⟩ := built.exists_requirement listed
    obtain ⟨held, _, ⟨_, rfl⟩ | ⟨replica, source, from_, rfl⟩⟩ :=
      mem_candidatesOf.mp ((same c).mp among)
    · cases pending
    obtain rfl : source = .pendingHome home := Option.some.inj pending
    obtain ⟨held', _, ⟨notReplica, rfl⟩ | ⟨_, source', from', rfl⟩⟩ :=
      mem_candidatesOf.mp ((same c').mp among')
    · exact absurd replica notReplica
    · rw [(replicaSources_of_pending from_).2.2] at from'
      rw [List.mem_singleton.mp from']
      rfl
  namedDependency := by
    intro req desired empty
    rw [built.graph] at desired
    obtain ⟨repo, _, ofRepo⟩ := mem_desired.mp desired
    obtain ⟨_, named⟩ := independentOf_of_desired ofRepo empty
    have chars := congrArg String.toList named
    simp [String.toList_append] at chars

end Constructed

end Modelark.Placement
