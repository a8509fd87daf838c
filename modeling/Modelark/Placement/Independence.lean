import Modelark.Placement.Guarantees
import Modelark.Planning.Deposits

/-!
# Independence of home and replica

The failure-domain rule looks at a replica when it is assigned. Once the assigned copies are in the
archive, a protected repository that received one of them has an independent pair of copies, unless its
home was placed beside a replica that was there already.
-/

namespace Modelark.Placement

open Modelark.Archive Library Planning PlannerInput DepthFirst

/-- The solver input of a planner input, under any budgets and bounds. -/
structure SolverOf (u : Unicode) (inp : PlannerInput) (solver : SolverInput) : Prop
    extends Constructed u inp solver where
  drives : solver.drives = inp.drives

/-- A protected repository's two requirements. -/
structure Protected (inp : PlannerInput) (home replica : CopyRequirement) : Prop where
  homeDesired : home ∈ inp.requirements.desired
  replicaDesired : replica ∈ inp.requirements.desired
  independent : replica.independentOf = some home.requirementId

/-- Two known drives in different failure domains. -/
def Apart (inp : PlannerInput) (left right : String) : Prop :=
  ∃ a b, inp.byLabel[left]? = some a ∧ inp.byLabel[right]? = some b ∧ sameFailureDomain a b = false

/-- The drives that satisfy a requirement once the assigned copies are there. -/
def copiesAfter (u : Unicode) (inp : PlannerInput) (tasks : List AssignmentTask)
    (req : CopyRequirement) : List String :=
  (inp.complete u req).map Holding.driveLabel ++
    (tasks.filter (·.requirementId == req.requirementId)).map AssignmentTask.targetDrive

/-- Every protected repository that received a copy ends with an independent pair. -/
def PairsApart (u : Unicode) (inp : PlannerInput) (tasks : List AssignmentTask) : Prop :=
  ∀ home replica, Protected inp home replica →
    (home.requirementId ∈ tasks.map AssignmentTask.requirementId ∨
      replica.requirementId ∈ tasks.map AssignmentTask.requirementId) →
    ∃ h ∈ copiesAfter u inp tasks home, ∃ r ∈ copiesAfter u inp tasks replica, Apart inp h r

/-- A place for a home beside all the replicas that its repository already has. The failure-domain rule does not
    look at it: it is consulted for a replica alone. -/
def Beside (u : Unicode) (inp : PlannerInput) (requirementId label : String) : Prop :=
  ∃ home replica, Protected inp home replica ∧ home.requirementId = requirementId ∧
    inp.complete u replica ≠ [] ∧ ∀ held ∈ inp.complete u replica, ¬Apart inp label held.driveLabel

/-- No open home can be placed beside all the replicas that its repository already has. -/
def HomesApart (u : Unicode) (inp : PlannerInput) : Prop :=
  ∀ home replica, Protected inp home replica → inp.complete u home = [] →
    inp.complete u replica ≠ [] → ∀ c ∈ inp.candidatesOf u inp.requirements home,
      ∃ held ∈ inp.complete u replica, Apart inp c.targetDrive held.driveLabel

section Pools

variable {inp : PlannerInput} {u : Unicode} {req : CopyRequirement}

theorem Protected.kind {home replica : CopyRequirement} (pair : Protected inp home replica) :
    replica.kind = .protectedReplica ∧ home.repoId = replica.repoId := by
  obtain ⟨repo, listed, ofRepo⟩ := mem_desired.mp pair.replicaDesired
  obtain ⟨kind, id⟩ := independentOf_of_desired ofRepo pair.independent
  obtain ⟨_, homeReq, ofRepo', homeId⟩ := replica_of_desired ofRepo kind
  obtain rfl : homeReq = home := List.inj_on_of_nodup_map nodup_requirements
    (mem_desired.mpr ⟨repo, listed, ofRepo'⟩) pair.homeDesired (homeId.trans id.symm)
  exact ⟨kind, by rw [repoId_of_desired ofRepo, repoId_of_desired ofRepo']⟩

/-- The drives of an accepted pool are of the requirement's tier. -/
theorem tier_of_pool (desired : req ∈ inp.requirements.desired) {label : String}
    (pooled : label ∈ inp.acceptedCompletePool req) :
    ∃ drive, inp.byLabel[label]? = some drive ∧ servesTier req.kind drive = true := by
  obtain ⟨repo, _, ofRepo⟩ := mem_desired.mp desired
  rcases List.mem_append.mp (mem_sortedSet.mp pooled) with satisfying | eligible
  · unfold satisfactionPool at satisfying
    cases kind : req.kind <;> simp only [kind] at satisfying
    · obtain ⟨drive, found, tier⟩ := mem_labelsWhere.mp satisfying
      exact ⟨drive, found, by simp_all [servesTier]⟩
    · obtain ⟨drive, found, tier⟩ := mem_labelsWhere.mp (mem_homes satisfying)
      exact ⟨drive, found, by simp_all [servesTier]⟩
    · obtain ⟨drive, found, tier⟩ := mem_labelsWhere.mp satisfying
      exact ⟨drive, found, by simp_all [servesTier]⟩
  · obtain ⟨drive, found, tier, _⟩ := eligible_of_desired ofRepo eligible
    exact ⟨drive, found, tier⟩

/-- A proven source of a replica is a complete copy of its home. -/
theorem complete_of_homeSource {home replica : CopyRequirement} (pair : Protected inp home replica)
    {source : SourceIdentity} (listed : source ∈ inp.homeSources u inp.requirements replica) :
    ∃ held ∈ inp.complete u home, held.driveLabel = source.driveLabel := by
  obtain ⟨_, sameRepo⟩ := pair.kind
  have found : (Dict.ofPairs (inp.requirements.desired.map fun item =>
      (item.requirementId, item)))[home.requirementId]? = some home := by
    rw [Dict.lookup_ofPairs (by simpa [Function.comp_def] using inp.nodup_requirements)]
    exact List.mem_map.mpr ⟨home, pair.homeDesired, rfl⟩
  simp only [homeSources, pair.independent, Option.bind_some, found, List.mem_map,
    List.mem_filter] at listed
  obtain ⟨label, ⟨pooled, proven⟩, made⟩ := listed
  have here : source.driveLabel = label := by
    rw [← made]
    split <;> rfl
  simp only [provenCopy, Bool.and_eq_true, List.all_eq_true, beq_iff_eq] at proven
  refine ⟨inp.holding u home label, mem_complete.mpr ⟨label, pooled, rfl, ?_, ?_⟩, here.symm⟩
  · simp only [holding, List.filter_eq_nil_iff, decide_eq_true_eq, sameRepo]
    exact fun mf among bad => by rw [proven.2 mf among] at bad; cases bad
  · simp only [holding, sortBy_eq_nil, List.filter_eq_nil_iff, decide_eq_true_eq, sameRepo]
    exact fun mf among bad => by rw [proven.2 mf among] at bad; cases bad

end Pools

section Assigned

variable {u : Unicode} {inp : PlannerInput} {solver : SolverInput} {budget : String → Int}
  {tasks : List AssignmentTask} (of : SolverOf u inp solver)
  (valid : ValidAssignment solver budget tasks)
include of valid

/-- A task was made from a candidate of the requirement it is filed under, which was open. -/
theorem candidate_of_task {t : AssignmentTask} (member : t ∈ tasks) :
    ∃ req ∈ inp.requirements.desired, req.requirementId = t.requirementId ∧
      inp.complete u req = [] ∧ ∃ c ∈ inp.candidatesOf u inp.requirements req,
        c.targetDrive = t.targetDrive ∧ Resolves tasks c.source t.source := by
  obtain ⟨c, listed, made, resolved⟩ := valid.candidate t member
  obtain ⟨item, inSet, id, among, _⟩ := SolverInput.mem_candsOf listed
  obtain ⟨req, desired, open', filed, same⟩ := of.exists_requirement inSet
  refine ⟨req, desired, filed.symm.trans id, open', c, (same c).mp among, ?_, resolved⟩
  rw [made]
  rfl

/-- An assigned replica is apart from the home it copies from. -/
theorem apart_of_replica {home replica : CopyRequirement} (pair : Protected inp home replica)
    (assigned : replica.requirementId ∈ tasks.map AssignmentTask.requirementId) :
    ∃ h ∈ copiesAfter u inp tasks home, ∃ r ∈ copiesAfter u inp tasks replica, Apart inp h r := by
  obtain ⟨t, member, id⟩ := List.mem_map.mp assigned
  obtain ⟨req, desired, filed, _, c, listed, target, resolved⟩ := candidate_of_task of valid member
  obtain rfl : req = replica :=
    List.inj_on_of_nodup_map nodup_requirements desired pair.replicaDesired (filed.trans id)
  obtain ⟨held, finish, ⟨fetched, _⟩ | ⟨replicaKind, source, among, rfl⟩⟩ := mem_candidatesOf.mp listed
  · exact absurd pair.kind.1 fetched
  -- The home it copies from, and that home's drive.
  obtain ⟨from_, copied, hsource⟩ : ∃ from_, t.source = some from_ ∧
      from_.driveLabel ∈ copiesAfter u inp tasks home := by
    cases source with
    | identity named =>
        have proven : named ∈ inp.homeSources u inp.requirements req := by
          unfold replicaSources at among
          split at among
          · simp at among
          · simpa using among
        obtain ⟨copy, complete, here⟩ := complete_of_homeSource pair proven
        exact ⟨named, resolved, List.mem_append_left _ (here ▸ List.mem_map_of_mem complete)⟩
    | pendingHome dep =>
        obtain ⟨_, named, _⟩ := replicaSources_of_pending among
        rw [pair.independent, Option.getD_some] at named
        obtain ⟨h, assignedHome, homeId, from_⟩ := resolved
        refine ⟨_, from_, List.mem_append_right _ ?_⟩
        refine List.mem_map.mpr ⟨h, List.mem_filter.mpr ⟨assignedHome, ?_⟩, rfl⟩
        rw [beq_iff_eq, homeId, named]
  refine ⟨_, hsource, t.targetDrive, List.mem_append_right _ ?_, ?_⟩
  · exact List.mem_map.mpr ⟨t, List.mem_filter.mpr ⟨member, beq_iff_eq.mpr id⟩, rfl⟩
  · have known : ∃ hd, inp.byLabel[from_.driveLabel]? = some hd := by
      rcases List.mem_append.mp hsource with before | now
      · obtain ⟨copy, complete, here⟩ := List.mem_map.mp before
        obtain ⟨label, pooled, rfl, _⟩ := mem_complete.mp complete
        obtain ⟨hd, found, _⟩ := tier_of_pool pair.homeDesired pooled
        exact ⟨hd, here ▸ found⟩
      · obtain ⟨h, kept, here⟩ := List.mem_map.mp now
        obtain ⟨homeReq, homeDesired, _, _, d, homeListed, homeTarget, _⟩ :=
          candidate_of_task of valid (List.mem_filter.mp kept).1
        obtain ⟨hd, found, _⟩ := (soundCandidate homeDesired homeListed).placeable
        exact ⟨hd, by rw [← here, ← homeTarget, found]⟩
    obtain ⟨hd, foundHome⟩ := known
    obtain ⟨rd, foundReplica, _⟩ := (soundCandidate desired listed).placeable
    rw [target] at foundReplica
    have lookup : solver.reqById[t.requirementId]? = some req := by
      rw [← filed]
      exact of.reqById desired
    refine ⟨hd, rd, foundHome, foundReplica, ?_⟩
    refine valid.domain t member req from_ hd rd lookup replicaKind copied ?_ ?_
    · rw [SolverInput.driveMap, of.drives]
      exact foundHome
    · rw [SolverInput.driveMap, of.drives]
      exact foundReplica

end Assigned

section Archive

variable {u : Unicode} {inp : PlannerInput}

/-- The copies that the tasks of an assignment make. -/
def assignedCopies (inp : PlannerInput) (tasks : List AssignmentTask) : List FileCopy :=
  tasks.flatMap fun t =>
    (inp.requirements.desired.filter (·.requirementId == t.requirementId)).flatMap fun req =>
      ((inp.manifestOf req.repoId).filter (·.rfilename ∈ t.missingFiles)).map
        (⟨req.repoId, t.targetDrive, ·⟩)

/-- Two desired copies of a repository ask for drives of different roles. -/
theorem eq_of_tier {req other : CopyRequirement} (desired : req ∈ inp.requirements.desired)
    (desired' : other ∈ inp.requirements.desired) (sameRepo : req.repoId = other.repoId)
    {drive : DriveFact} (tier : servesTier req.kind drive = true)
    (tier' : servesTier other.kind drive = true) : req = other := by
  obtain ⟨repo, _, ofRepo⟩ := mem_desired.mp desired
  obtain ⟨repo', _, ofRepo'⟩ := mem_desired.mp desired'
  obtain rfl : repo = repo' := by
    rw [← repoId_of_desired ofRepo, sameRepo, repoId_of_desired ofRepo']
  unfold desiredOf at ofRepo ofRepo'
  dsimp only at ofRepo ofRepo'
  have roles : ¬(isPrimary drive = true ∧ isReplica drive = true) := by
    rintro ⟨primary, replica⟩
    simp only [isPrimary, isReplica, beq_iff_eq] at primary replica
    rw [primary] at replica
    exact absurd replica (by decide)
  split_ifs at ofRepo ofRepo' <;>
    simp only [List.mem_cons, List.not_mem_nil, or_false] at ofRepo ofRepo'
  · rw [ofRepo, ofRepo']
  · rcases ofRepo with rfl | rfl <;> rcases ofRepo' with rfl | rfl
    · rfl
    · exact absurd ⟨tier, tier'⟩ roles
    · exact absurd ⟨tier', tier⟩ roles
    · rfl

section Deposited

variable {solver : SolverInput} {budget : String → Int} {tasks : List AssignmentTask}
  (of : SolverOf u inp solver) (valid : ValidAssignment solver budget tasks)
include of valid

/-- What a task copies is what its target misses of its requirement's manifest. -/
theorem mem_assignedCopies {copy : FileCopy} : copy ∈ assignedCopies inp tasks ↔
    ∃ t ∈ tasks, ∃ req ∈ inp.requirements.desired, req.requirementId = t.requirementId ∧
      ∃ mf ∈ (inp.holding u req t.targetDrive).missing, copy = ⟨req.repoId, t.targetDrive, mf⟩ := by
  have listed : ∀ t ∈ tasks, ∀ req ∈ inp.requirements.desired, req.requirementId = t.requirementId →
      ∀ mf, (mf ∈ inp.manifestOf req.repoId ∧ mf.rfilename ∈ t.missingFiles) ↔
        mf ∈ (inp.holding u req t.targetDrive).missing := by
    intro t member req desired filed mf
    obtain ⟨c, among, made, _⟩ := valid.candidate t member
    obtain ⟨item, inSet, id, grouped, _⟩ := SolverInput.mem_candsOf among
    obtain ⟨req', desired', _, filed', same⟩ := of.exists_requirement inSet
    obtain rfl : req' = req := List.inj_on_of_nodup_map nodup_requirements desired' desired
      (filed'.symm.trans (id.trans filed.symm))
    obtain ⟨held, finish, candidate⟩ := mem_candidatesOf.mp ((same c).mp grouped)
    obtain ⟨label, _, rfl, _⟩ := mem_finishable.mp finish
    have fields : c.targetDrive = label ∧ c.missingFiles = (inp.holding u req' label).missing := by
      rcases candidate with ⟨_, rfl⟩ | ⟨_, _, _, rfl⟩ <;> exact ⟨rfl, rfl⟩
    have names : t.missingFiles = c.missingFiles.map ManifestFile.rfilename := by rw [made]; rfl
    have target : t.targetDrive = label := by rw [made]; exact fields.1
    rw [names, fields.2, target]
    constructor
    · rintro ⟨inManifest, named⟩
      obtain ⟨other, absent, sameName⟩ := List.mem_map.mp named
      have missing : inp.verdict u req'.repoId label mf = .missing := by
        rw [verdict_missing, ← sameName]
        exact verdict_missing.mp (verdict_of_missing absent)
      simp [holding, inManifest, missing]
    · intro absent
      exact ⟨missing_listed absent, List.mem_map_of_mem absent⟩
  simp only [assignedCopies, List.mem_flatMap, List.mem_filter, List.mem_map, beq_iff_eq,
    decide_eq_true_eq]
  constructor
  · rintro ⟨t, member, req, ⟨desired, filed⟩, mf, kept, rfl⟩
    exact ⟨t, member, req, desired, filed, mf, (listed t member req desired filed mf).mp kept, rfl⟩
  · rintro ⟨t, member, req, desired, filed, mf, absent, rfl⟩
    exact ⟨t, member, req, ⟨desired, filed⟩, mf, (listed t member req desired filed mf).mpr absent, rfl⟩

/-- The complete copies of a requirement in an archive to which the assigned copies were added. -/
theorem complete_after {rows : List ArchivedFileFact}
    (deposit : Deposit u (assignedCopies inp tasks) rows) {req : CopyRequirement}
    (desired : req ∈ inp.requirements.desired) {label : String} :
    label ∈ ((inp.extend rows).complete u req).map Holding.driveLabel ↔
      label ∈ copiesAfter u inp tasks req := by
  have copied : ∀ {copy}, copy ∈ assignedCopies inp tasks ↔ _ := mem_assignedCopies of valid
  have absent : ∀ copy ∈ assignedCopies inp tasks,
      inp.rowOf copy.repoId copy.driveLabel copy.file.rfilename = none := by
    intro copy listed
    obtain ⟨t, _, other, _, _, mf, missing, rfl⟩ := copied.mp listed
    exact verdict_missing.mp (verdict_of_missing missing)
  have untouched : (∀ copy ∈ assignedCopies inp tasks,
      ¬(copy.repoId = req.repoId ∧ copy.driveLabel = label)) →
      (inp.extend rows).holding u req label = inp.holding u req label :=
    holding_undeposited deposit
  have labels : ∀ {after : PlannerInput}, label ∈ (after.complete u req).map Holding.driveLabel ↔
      label ∈ after.acceptedCompletePool req ∧ (after.holding u req label).unproven = [] ∧
        (after.holding u req label).missing = [] := by
    intro after
    simp only [List.mem_map, mem_complete]
    constructor
    · rintro ⟨_, ⟨other, pooled, rfl, done⟩, rfl⟩
      exact ⟨pooled, done⟩
    · rintro ⟨pooled, done⟩
      exact ⟨_, ⟨label, pooled, rfl, done⟩, rfl⟩
  rw [copiesAfter, List.mem_append, labels, labels, extend_acceptedCompletePool]
  constructor
  · rintro ⟨pooled, now⟩
    by_cases touched : ∃ copy ∈ assignedCopies inp tasks,
        copy.repoId = req.repoId ∧ copy.driveLabel = label
    · -- Another requirement of the repository cannot have written here: its drives have another role.
      right
      obtain ⟨copy, listed, inRepo, onDrive⟩ := touched
      obtain ⟨t, member, other, otherDesired, filed, mf, _, rfl⟩ := copied.mp listed
      obtain ⟨drive, found, tier⟩ := tier_of_pool desired pooled
      obtain ⟨req', desired', filed', _, c, candidate, target, _⟩ := candidate_of_task of valid member
      obtain rfl : req' = other := List.inj_on_of_nodup_map nodup_requirements desired' otherDesired
        (filed'.trans filed.symm)
      obtain ⟨drive', found', tier', _⟩ := (soundCandidate otherDesired candidate).placeable
      obtain rfl : drive' = drive := by
        rw [target, show t.targetDrive = label from onDrive, found] at found'
        exact (Option.some.inj found').symm
      obtain rfl : req = req' := eq_of_tier desired otherDesired inRepo.symm tier tier'
      exact List.mem_map.mpr ⟨t, List.mem_filter.mpr ⟨member, beq_iff_eq.mpr filed.symm⟩, onDrive⟩
    · left
      rw [untouched fun copy listed here => touched ⟨copy, listed, here⟩] at now
      exact ⟨pooled, now⟩
  · rintro (⟨pooled, unproven, missing⟩ | assigned)
    · refine ⟨pooled, ?_⟩
      rw [untouched]
      · exact ⟨unproven, missing⟩
      · rintro copy listed ⟨inRepo, onDrive⟩
        obtain ⟨t, _, other, _, _, mf, lacks, rfl⟩ := copied.mp listed
        have same : inp.holding u other t.targetDrive = inp.holding u req label := by
          rw [show t.targetDrive = label from onDrive]
          simp only [holding, show other.repoId = req.repoId from inRepo]
        rw [same, missing] at lacks
        cases lacks
    · obtain ⟨t, kept, rfl⟩ := List.mem_map.mp assigned
      obtain ⟨member, named⟩ := List.mem_filter.mp kept
      have filed : req.requirementId = t.requirementId := (beq_iff_eq.mp named).symm
      obtain ⟨req', desired', filed', _, c, candidate, target, _⟩ := candidate_of_task of valid member
      obtain rfl : req' = req := List.inj_on_of_nodup_map nodup_requirements desired' desired
        (filed'.trans filed.symm)
      obtain ⟨held, finish, made⟩ := mem_candidatesOf.mp candidate
      obtain ⟨label, pooled, rfl, unproven, _⟩ := mem_finishable.mp finish
      obtain rfl : label = t.targetDrive := by
        rw [← target]
        rcases made with ⟨_, rfl⟩ | ⟨_, _, _, rfl⟩ <;> rfl
      refine ⟨pooled, holding_deposited deposit unproven (fun mf lacks => ?_) absent⟩
      exact copied.mpr ⟨t, member, req', desired, filed, mf, lacks, rfl⟩

end Deposited

end Archive

section Verdict

variable {u : Unicode} {inp : PlannerInput} {solver : SolverInput} (of : SolverOf u inp solver)
include of

theorem complete_of_satisfiedIds {req : CopyRequirement} (desired : req ∈ inp.requirements.desired)
    (satisfied : req.requirementId ∈ solver.satisfiedIds) : inp.complete u req ≠ [] :=
  of.complete_of_satisfied desired satisfied

/-- An input that passes the structural checks has no blocked requirement. -/
theorem not_blocked (passes : solver.structural = none) {req : CopyRequirement}
    (desired : req ∈ inp.requirements.desired) : req.requirementId ∉ solver.blockedById := by
  intro blocked
  obtain ⟨item, found⟩ := Dict.exists_lookup_of_mem blocked
  obtain ⟨listed, paired, same⟩ := List.mem_map.mp (Dict.mem_of_lookup_ofPairs found)
  rw [of.candidates] at paired
  obtain ⟨_, _, _, _, reason⟩ := mem_blocked paired
  obtain rfl : listed = item := congrArg Prod.snd same
  have reasons : listed.reason = "no_eligible_tier" ∨ listed.reason = "all_targets_unproven" := by
    rw [reason, blockedReason]
    split <;> simp
  have passed := (Option.or_eq_none_iff.mp passes).1
  have clear := List.findSome?_eq_none_iff.mp passed req
    (mem_sortBy.mpr (of.graph ▸ desired))
  rw [SolverInput.blockedFailure, found] at clear
  rcases reasons with tier | unproven
  · simp [tier] at clear
  · simp [unproven] at clear

/-- The only copy of an open home is the one that is assigned. -/
theorem home_of_copiesAfter {budget : String → Int} {tasks : List AssignmentTask}
    (valid : ValidAssignment solver budget tasks) {home : CopyRequirement}
    (desired : home ∈ inp.requirements.desired) {t : AssignmentTask} (member : t ∈ tasks)
    (named : t.requirementId = home.requirementId) {label : String}
    (copy : label ∈ copiesAfter u inp tasks home) : label = t.targetDrive := by
  obtain ⟨req, desired', filed, open', _⟩ := candidate_of_task of valid member
  obtain rfl : req = home :=
    List.inj_on_of_nodup_map nodup_requirements desired' desired (filed.trans named)
  rw [copiesAfter, open', List.map_nil, List.nil_append] at copy
  obtain ⟨other, kept, rfl⟩ := List.mem_map.mp copy
  obtain ⟨among, same⟩ := List.mem_filter.mp kept
  have distinct : (tasks.map AssignmentTask.requirementId).Nodup :=
    valid.ids ▸ SolverInput.nodup_unsat of.uniqueIds
  rw [List.inj_on_of_nodup_map distinct among member ((beq_iff_eq.mp same).trans named.symm)]

/-- A requirement that is satisfied is assigned no copy. -/
theorem copiesAfter_of_complete {budget : String → Int} {tasks : List AssignmentTask}
    (valid : ValidAssignment solver budget tasks) {replica : CopyRequirement}
    (desired : replica ∈ inp.requirements.desired) (satisfied : inp.complete u replica ≠ []) {label : String}
    (copy : label ∈ copiesAfter u inp tasks replica) :
    ∃ held ∈ inp.complete u replica, held.driveLabel = label := by
  rcases List.mem_append.mp copy with before | now
  · exact List.mem_map.mp before
  · obtain ⟨t, kept, _⟩ := List.mem_map.mp now
    obtain ⟨member, named⟩ := List.mem_filter.mp kept
    obtain ⟨req, desired', filed, open', _⟩ := candidate_of_task of valid member
    obtain rfl : req = replica :=
      List.inj_on_of_nodup_map nodup_requirements desired' desired (filed.trans (beq_iff_eq.mp named))
    exact absurd open' satisfied

/-- Valid assignments that keep clear of the case that the rule does not look at leave independent pairs, and
    only those. -/
theorem pairsApart_iff_beside {budget : String → Int} {tasks : List AssignmentTask}
    (valid : ValidAssignment solver budget tasks) (passes : solver.structural = none) :
    PairsApart u inp tasks ↔ ∀ t ∈ tasks, ¬Beside u inp t.requirementId t.targetDrive := by
  constructor
  · rintro apart t member ⟨home, replica, pair, named, satisfied, beside⟩
    obtain ⟨h, homeCopy, r, replicaCopy, separate⟩ :=
      apart home replica pair (.inl (named ▸ List.mem_map_of_mem member))
    obtain rfl := home_of_copiesAfter of valid pair.homeDesired member named.symm homeCopy
    obtain ⟨held, complete, rfl⟩ :=
      copiesAfter_of_complete of valid pair.replicaDesired satisfied replicaCopy
    exact beside held complete separate
  · rintro clear home replica pair (homeAssigned | replicaAssigned)
    · by_cases replicaAssigned : replica.requirementId ∈ tasks.map AssignmentTask.requirementId
      · exact apart_of_replica of valid pair replicaAssigned
      · -- The replica was there before; the home was placed without looking at it.
        obtain ⟨t, member, id⟩ := List.mem_map.mp homeAssigned
        have satisfied : replica.requirementId ∈ solver.satisfiedIds := by
          rw [valid.ids, SolverInput.mem_unsat] at replicaAssigned
          by_contra unsatisfied
          exact replicaAssigned ⟨⟨replica, of.graph ▸ pair.replicaDesired, rfl⟩, unsatisfied,
            not_blocked of passes pair.replicaDesired⟩
        have complete := complete_of_satisfiedIds of pair.replicaDesired satisfied
        by_contra none'
        refine clear t member ⟨home, replica, pair, id.symm, complete, fun held among separate => none' ?_⟩
        refine ⟨t.targetDrive, List.mem_append_right _ ?_, held.driveLabel,
          List.mem_append_left _ (List.mem_map_of_mem among), separate⟩
        exact List.mem_map.mpr ⟨t, List.mem_filter.mpr ⟨member, beq_iff_eq.mpr id⟩, rfl⟩
    · exact apart_of_replica of valid pair replicaAssigned

end Verdict

section Beside

/-- The only primary shares its serial with the replica drive that holds the repository. -/
def besideInput : PlannerInput where
  selection := ["m"]
  manifests := [("m", [⟨"weights.gguf", 10, some "aa", .raw⟩])]
  uniqueRepos := by decide
  numcopies := [("m", 2)]
  drives := [⟨"alpha", "primary", false, 200, none, none, some "disk", "active", "enabled"⟩,
    ⟨"omega", "replica", false, 200, none, none, some "disk", "active", "enabled"⟩]
  archived := [⟨"m", "omega", "weights.gguf", some "aa", some 10, some 10, none, false⟩]
  budget := ⟨⟨fun _ => true, true, true⟩, ManifestFile.sizeBytes⟩

def besideSolver : SolverInput where
  graph := besideInput.requirements
  candidates := besideInput.candidates asciiUnicode besideInput.requirements
  drives := besideInput.drives
  executableBudget := [("alpha", 100), ("omega", 100)]
  maxUsableForEpoch := [("alpha", some 100), ("omega", some 100)]
  driveEvidence := [("alpha", ⟨true⟩), ("omega", ⟨true⟩)]
  capacityMode := "guaranteed"
  bounds := ⟨100, 100⟩
  preference := none

def besideHome : CopyRequirement :=
  ⟨"protected_home:m", "m", .protectedHome, ["alpha"], none⟩

def besideReplica : CopyRequirement :=
  ⟨"protected_replica:m", "m", .protectedReplica, ["omega"], some "protected_home:m"⟩

/-- The same two drives on disks of their own. -/
def asideInput : PlannerInput :=
  { besideInput with
    drives := [⟨"alpha", "primary", false, 200, none, none, some "disk-a", "active", "enabled"⟩,
      ⟨"omega", "replica", false, 200, none, none, some "disk-b", "active", "enabled"⟩] }

def asideSolver : SolverInput :=
  { besideSolver with
    graph := asideInput.requirements
    candidates := asideInput.candidates asciiUnicode asideInput.requirements
    drives := asideInput.drives }

theorem asideSolver_of : SolverOf asciiUnicode asideInput asideSolver where
  graph := rfl
  candidates := rfl
  drives := rfl

theorem asideInput_homesApart : HomesApart asciiUnicode asideInput := by
  rintro home replica ⟨homeDesired, replicaDesired, independent⟩ open' held c listed
  obtain ⟨rfl, rfl⟩ := (by decide +kernel : ∀ home ∈ asideInput.requirements.desired,
    ∀ replica ∈ asideInput.requirements.desired,
      replica.independentOf = some home.requirementId → home = besideHome ∧ replica = besideReplica)
    home homeDesired replica replicaDesired independent
  have target : c.targetDrive = "alpha" := by
    clear open' held
    revert c
    decide +kernel
  have copy : asideInput.holding asciiUnicode besideReplica "omega" ∈
      asideInput.complete asciiUnicode besideReplica :=
    mem_complete.mpr ⟨"omega", by decide +kernel, rfl, by decide +kernel, by decide +kernel⟩
  refine ⟨_, copy, ⟨"alpha", "primary", false, 200, none, none, some "disk-a", "active", "enabled"⟩,
    ⟨"omega", "replica", false, 200, none, none, some "disk-b", "active", "enabled"⟩,
    target ▸ (by decide +kernel : asideInput.byLabel["alpha"]? = some
      ⟨"alpha", "primary", false, 200, none, none, some "disk-a", "active", "enabled"⟩),
    (by decide +kernel : asideInput.byLabel["omega"]? = some
      ⟨"omega", "replica", false, 200, none, none, some "disk-b", "active", "enabled"⟩),
    by decide +kernel⟩

/-- A spare primary on a disk of its own, which is tried first. -/
def spareInput : PlannerInput :=
  { besideInput with
    drives := [⟨"aleph", "primary", false, 200, none, none, some "disk-c", "active", "enabled"⟩] ++
      besideInput.drives }

def spareSolver : SolverInput :=
  { besideSolver with
    graph := spareInput.requirements
    candidates := spareInput.candidates asciiUnicode spareInput.requirements
    drives := spareInput.drives
    executableBudget := [("aleph", 100), ("alpha", 100), ("omega", 100)]
    maxUsableForEpoch := [("aleph", some 100), ("alpha", some 100), ("omega", some 100)]
    driveEvidence := [("aleph", ⟨true⟩), ("alpha", ⟨true⟩), ("omega", ⟨true⟩)] }

theorem spareSolver_of : SolverOf asciiUnicode spareInput spareSolver where
  graph := rfl
  candidates := rfl
  drives := rfl

theorem spareInput_clear (requirementId : String) : ¬Beside asciiUnicode spareInput requirementId "aleph" := by
  rintro ⟨home, replica, ⟨homeDesired, replicaDesired, independent⟩, _, _, beside⟩
  obtain rfl := (by decide +kernel : ∀ home ∈ spareInput.requirements.desired,
    ∀ replica ∈ spareInput.requirements.desired,
      replica.independentOf = some home.requirementId → replica = besideReplica)
    home homeDesired replica replicaDesired independent
  have copy : spareInput.holding asciiUnicode besideReplica "omega" ∈
      spareInput.complete asciiUnicode besideReplica :=
    mem_complete.mpr ⟨"omega", by decide +kernel, rfl, by decide +kernel, by decide +kernel⟩
  refine beside _ copy ⟨⟨"aleph", "primary", false, 200, none, none, some "disk-c", "active", "enabled"⟩,
    ⟨"omega", "replica", false, 200, none, none, some "disk", "active", "enabled"⟩, ?_, ?_, by decide +kernel⟩
  · decide +kernel
  · decide +kernel

end Beside

end Modelark.Placement
