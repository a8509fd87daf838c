import Modelark.Fill.Catalog
import Modelark.Fill.Completion

/-!
# Rows and copies

Every row of an approved proposal stands for one desired copy. An executable row finishes an open copy
on a drive that holds the rest of the manifest, from a complete home or from the home that is placed
with it; a baseline row is a complete copy.
-/

namespace Modelark.Fill

open Modelark.Archive Library Planning PlannerInput Placement Proposal

section Plan

variable {u : Unicode} {pyHash : KeyPart → HashValue} {input : PreviewInput}

/-- A task of a plan finishes an open copy. -/
structure Planned (u : Unicode) (inp : PlannerInput) (tasks : List AssignedTask) (t : AssignedTask)
    (req : CopyRequirement) : Prop where
  desired : req ∈ inp.requirements.desired
  named : t.requirementId = req.requirementId
  repo : t.repoId = req.repoId
  pending : inp.complete u req = []
  finishable : inp.holding u req t.targetDrive ∈ inp.finishable u req
  missing : t.budget.missingFiles =
    (inp.holding u req t.targetDrive).missing.map ManifestFile.rfilename
  sourced : ∀ source, rowSource tasks t = some source → ∃ home, Protected inp home req ∧
    (source ∈ (inp.complete u home).map Holding.driveLabel ∨
      ∃ h ∈ tasks, h.requirementId = home.requirementId ∧ h.targetDrive = source)

/-- A projected task names the source it was resolved to. -/
theorem sourceDrive_projectTask {cset : CandidateSet} {tasks : List AssignmentTask}
    {t : AssignmentTask} {c : Candidate} (found : matchCandidate cset t = some c)
    (resolved : Resolves tasks c.source t.source) :
    (Placement.projectTask cset t).sourceDrive = t.source.map SourceIdentity.driveLabel := by
  unfold Placement.projectTask
  rw [found]
  cases source : t.source with
  | some from_ => rfl
  | none =>
      rw [source] at resolved
      cases named : c.source with
      | none => simp [taskBudget, named]
      | some kind =>
          cases kind with
          | pendingHome => simp [named]
          | identity drive =>
              rw [named] at resolved
              cases resolved

theorem missingFiles_projectTask {cset : CandidateSet} {t : AssignmentTask} {c : Candidate}
    (found : matchCandidate cset t = some c) :
    (Placement.projectTask cset t).budget.missingFiles =
      c.missingFiles.map ManifestFile.rfilename := by
  unfold Placement.projectTask
  rw [found]
  dsimp only
  split <;> rfl

/-- The pair of a replica and its home. -/
theorem exists_home {inp : PlannerInput} {req : CopyRequirement}
    (desired : req ∈ inp.requirements.desired) (replica : req.kind = .protectedReplica) :
    ∃ home, Protected inp home req := by
  obtain ⟨repo, listed, ofRepo⟩ := mem_desired.mp desired
  obtain ⟨independent, home, ofRepo', id⟩ := replica_of_desired ofRepo replica
  exact ⟨home, mem_desired.mpr ⟨repo, listed, ofRepo'⟩, desired, by rw [independent, id]⟩

variable (feasible : (preview u pyHash input).capacity.feasible = true)
include feasible

theorem planned_of_task {t : AssignedTask} (member : t ∈ (preview u pyHash input).capacity.tasks) :
    ∃ req, Planned u input.planner (preview u pyHash input).capacity.tasks t req := by
  obtain ⟨_, asn, same, valid⟩ := preview_feasible feasible
  have ofTask := repoId_of_task member
  have projected := member
  rw [same, projectAssignedTasks, mem_sortBy, List.mem_map] at projected
  obtain ⟨a, among, rfl⟩ := projected
  obtain ⟨c, listed, found, made, resolved⟩ := constructed_solver.matchCandidate_eq valid among
  obtain ⟨item, inSet, id, grouped, _⟩ := SolverInput.mem_candsOf listed
  obtain ⟨req, desired, pending, filed, cands⟩ := constructed_solver.exists_requirement inSet
  obtain ⟨held, finish, made'⟩ := mem_candidatesOf.mp ((cands c).mp grouped)
  have target : a.targetDrive = held.driveLabel := by
    rw [made]
    rcases made' with ⟨_, rfl⟩ | ⟨_, _, _, rfl⟩ <;> rfl
  have missing : c.missingFiles = held.missing := by
    rcases made' with ⟨_, rfl⟩ | ⟨_, _, _, rfl⟩ <;> rfl
  have here : held = input.planner.holding u req a.targetDrive := by
    obtain ⟨label, _, rfl, _⟩ := mem_finishable.mp finish
    rw [target]
    rfl
  have named : a.requirementId = req.requirementId := id.symm.trans filed
  refine ⟨req, desired, named, ?_, pending, here ▸ finish, ?_, ?_⟩
  · rw [ofTask, ← repoOf_desired desired]
    exact congrArg repoOf named
  · rw [missingFiles_projectTask found, missing, here]
    rfl
  · intro source sourced
    rw [rowSource, sourceDrive_projectTask found resolved] at sourced
    rcases made' with ⟨_, rfl⟩ | ⟨replica, kind, among', rfl⟩
    · -- A fetched home has neither a source nor a dependency.
      have none' : a.source = none := resolved
      have free : a.dependsOnRequirement = none := by rw [made]; rfl
      rw [none'] at sourced
      simp [Placement.projectTask, free] at sourced
    · obtain ⟨home, pair⟩ := exists_home desired replica
      refine ⟨home, pair, ?_⟩
      cases kind with
      | identity identity =>
          rw [show a.source = some identity from resolved] at sourced
          cases sourced
          have proven : identity ∈ input.planner.homeSources u input.planner.requirements req := by
            unfold replicaSources at among'
            split at among'
            · simp at among'
            · simpa using among'
          obtain ⟨copy, complete, here⟩ := complete_of_homeSource pair proven
          exact .inl (here ▸ List.mem_map_of_mem complete)
      | pendingHome dep =>
          obtain ⟨h, inTasks, homeId, from_⟩ := resolved
          obtain ⟨_, depends, _⟩ := replicaSources_of_pending among'
          rw [pair.independent, Option.getD_some] at depends
          rw [from_] at sourced
          cases sourced
          refine .inr ⟨Placement.projectTask (input.solver u).candidates h, ?_,
            homeId.trans depends, rfl⟩
          rw [same, projectAssignedTasks, mem_sortBy]
          exact List.mem_map_of_mem inTasks

/-- The plan has one task for every open requirement. -/
theorem ids_planned : ((preview u pyHash input).capacity.tasks.map AssignedTask.requirementId).Perm
    (input.solver u).unsat := by
  obtain ⟨_, asn, same, valid⟩ := preview_feasible feasible
  rw [same, ← valid.ids, projectAssignedTasks]
  apply ((sortBy_perm _ _).map AssignedTask.requirementId).trans
  rw [List.map_map]
  exact .refl _

theorem nodup_planned :
    ((preview u pyHash input).capacity.tasks.map AssignedTask.requirementId).Nodup :=
  (ids_planned feasible).nodup_iff.mpr
    (SolverInput.nodup_unsat (@constructed_solver u input).uniqueIds)

theorem blocking_of_feasible : (preview u pyHash input).graph.blocking = [] := by
  have diagnostics : (preview u pyHash input).capacity.blockingDiagnostics = [] := by
    simp only [CapacityPlan.feasible, Bool.and_eq_true, List.isEmpty_iff] at feasible
    exact feasible.1.2
  rw [← diagnostics]
  simp only [preview, planCapacity]
  split_ifs
  · rfl
  · split <;> rfl

/-- Every desired copy is complete or planned. -/
theorem planned_of_open {req : CopyRequirement} (desired : req ∈ input.planner.requirements.desired)
    (pending : input.planner.complete u req = []) :
    req.requirementId ∈ (preview u pyHash input).capacity.tasks.map AssignedTask.requirementId := by
  have clear := blocking_of_feasible feasible
  have unblocked : (input.planner.candidates u input.planner.requirements).blocked = [] := by
    simp only [preview, reconcile, blockingOf, List.append_eq_nil_iff, List.map_eq_nil_iff] at clear
    exact clear.2
  rw [(ids_planned feasible).mem_iff, SolverInput.mem_unsat]
  refine ⟨⟨req, desired, rfl⟩, ?_, ?_⟩
  · intro satisfied
    exact constructed_solver.complete_of_satisfied desired satisfied pending
  · intro blocked
    obtain ⟨_, paired⟩ := Dict.mem_ofPairs.mp blocked
    rw [constructed_solver.candidates, unblocked] at paired
    cases paired

end Plan

section Names

variable {inp : PlannerInput} {req other : CopyRequirement}

/-- The proposal's name of a desired copy tells it apart from every other. -/
theorem eq_of_proposalId (desired : req ∈ inp.requirements.desired)
    (desired' : other ∈ inp.requirements.desired)
    (same : proposalRequirementId req.requirementId = proposalRequirementId other.requirementId) :
    req = other := by
  have repos : req.repoId = other.repoId := by
    rw [← repoOf_desired desired, ← repoOf_desired desired', ← repoOf_proposalRequirementId, same,
      repoOf_proposalRequirementId]
  obtain ⟨repo, _, ofRepo⟩ := mem_desired.mp desired
  obtain ⟨repo', _, ofRepo'⟩ := mem_desired.mp desired'
  obtain rfl : repo = repo' := by
    rw [← repoId_of_desired ofRepo, repos, repoId_of_desired ofRepo']
  -- A home and a replica of one repository have names with different first letters.
  have apart : ∀ rest, proposalRequirementId ("protected_home:" ++ rest) ≠
      proposalRequirementId ("protected_replica:" ++ rest) := by
    intro rest same
    have chars := congrArg String.toList same
    simp [proposalRequirementId, String.toList_append] at chars
  unfold desiredOf at ofRepo ofRepo'
  dsimp only at ofRepo ofRepo'
  split_ifs at ofRepo ofRepo' <;>
    simp only [List.mem_cons, List.not_mem_nil, or_false] at ofRepo ofRepo'
  · rw [ofRepo, ofRepo']
  · rcases ofRepo with rfl | rfl <;> rcases ofRepo' with rfl | rfl
    · rfl
    · exact absurd same (apart repo)
    · exact absurd same.symm (apart repo)
    · rfl

theorem proposalRequirementId_home (repo : String) :
    proposalRequirementId ("protected_home:" ++ repo) = "primary:" ++ repo := by
  have named := @repoOf_append "protected_home" (by decide) repo
  have prefixed : "protected_home:".toList.isPrefixOf ("protected_home:" ++ repo).toList = true := by
    rw [String.toList_append, List.isPrefixOf_iff_prefix]
    exact List.prefix_append _ _
  rw [proposalRequirementId, if_pos prefixed]
  exact congrArg ("primary:" ++ ·) named

/-- A protected home is the primary of its repository. -/
theorem primary_of_home {home replica : CopyRequirement} (pair : Protected inp home replica) :
    proposalRequirementId home.requirementId = "primary:" ++ replica.repoId := by
  obtain ⟨repo, _, ofRepo⟩ := mem_desired.mp pair.replicaDesired
  obtain ⟨_, id⟩ := independentOf_of_desired ofRepo pair.independent
  rw [id, proposalRequirementId_home, repoId_of_desired ofRepo]

end Names

/-- An executable row finishes an open copy on its target. -/
structure Finishes (u : Unicode) (facts : PreviewFacts) (proposal : Loaded) (task : TaskRow)
    (req : CopyRequirement) (target : String) : Prop where
  desired : req ∈ facts.input.planner.requirements.desired
  named : task.requirementId = proposalRequirementId req.requirementId
  repo : task.repoId = req.repoId
  placed : task.targetDrive = some target
  unmatched : task.satisfyingDrive = none
  pending : facts.input.planner.complete u req = []
  finishable : facts.input.planner.holding u req target ∈ facts.input.planner.finishable u req
  files : ∀ file, file ∈ fileGroup proposal task.requirementId ↔
    ∃ mf ∈ (facts.input.planner.holding u req target).missing,
      file = fileRow facts.toProposalFacts task.requirementId task.repoId mf
  durable : ∃ bytes, task.guaranteedDurable = some bytes
  sourced : ∀ source, task.sourceDrive = some source →
    ∃ home, Protected facts.input.planner home req ∧
      (source ∈ (facts.input.planner.complete u home).map Holding.driveLabel ∨
        ∃ row ∈ proposal.tasks, row.rowKind = .executable ∧
          row.requirementId = proposalRequirementId home.requirementId ∧
          row.targetDrive = some source)

/-- A baseline row is a complete copy, with the certificate of its evidence. -/
structure Matches (u : Unicode) (sha : Digester) (facts : PreviewFacts) (task : TaskRow)
    (req : CopyRequirement) (label : String) : Prop where
  desired : req ∈ facts.input.planner.requirements.desired
  named : task.requirementId = proposalRequirementId req.requirementId
  repo : task.repoId = req.repoId
  placed : task.targetDrive = some label
  satisfying : task.satisfyingDrive = some label
  unsourced : task.sourceDrive = none
  complete : label ∈ (facts.input.planner.complete u req).map Holding.driveLabel
  certificate : task.baselineCertificate = some (baselineCertificate sha task.requirementId
    task.fullManifestHash label (facts.identity label)
    (baselineFileEvidence facts.archived task.repoId label))

section Rows

variable {u : Unicode} {pyHash : KeyPart → HashValue} {sha : Digester} {facts : PreviewFacts}
  {proposal : Loaded}

theorem missing_nonempty {inp : PlannerInput} {req : CopyRequirement} {label : String}
    (finish : inp.holding u req label ∈ inp.finishable u req) :
    label ∈ inp.acceptedCompletePool req ∧ label ∈ req.eligibleDrives ∧
      (inp.holding u req label).unproven = [] ∧ (inp.holding u req label).missing ≠ [] := by
  obtain ⟨other, pooled, same, unproven, missing, eligible⟩ := mem_finishable.mp finish
  obtain rfl : label = other := congrArg Holding.driveLabel same
  exact ⟨pooled, eligible, unproven, missing⟩

/-- The matched copies are desired and complete. -/
theorem mem_matchesOf {inp : PlannerInput} {entry : String × String} (listed : entry ∈ matchesOf u inp) :
    ∃ req ∈ inp.requirements.desired, entry.1 = req.requirementId ∧
      entry.2 ∈ (inp.complete u req).map Holding.driveLabel := by
  obtain ⟨req, desired, ranked⟩ := List.mem_filterMap.mp listed
  obtain ⟨drive, first, rfl⟩ := Option.map_eq_some_iff.mp ranked
  obtain ⟨held, complete, found⟩ := List.mem_filterMap.mp (mem_sortBy.mp (List.mem_of_head? first))
  obtain ⟨other, _, same⟩ := List.mem_map.mp (Dict.mem_of_lookup_ofPairs found)
  refine ⟨req, desired, rfl, List.mem_map.mpr ⟨held, complete, ?_⟩⟩
  simp only [Prod.mk.injEq] at same
  rw [← same.1, same.2]

/-- Every complete copy is matched. -/
theorem matched_of_complete {inp : PlannerInput} {req : CopyRequirement}
    (desired : req ∈ inp.requirements.desired) (complete : inp.complete u req ≠ []) :
    ∃ label, (req.requirementId, label) ∈ matchesOf u inp := by
  obtain ⟨held, done⟩ := List.exists_mem_of_ne_nil _ complete
  obtain ⟨label, pooled, rfl, _⟩ := mem_complete.mp done
  obtain ⟨drive, found, _⟩ := tier_of_pool desired pooled
  have listed : drive ∈ sortBy (rankSatisfyingDrive req.kind)
      ((inp.complete u req).filterMap fun held => inp.byLabel[held.driveLabel]?) :=
    mem_sortBy.mpr (List.mem_filterMap.mpr ⟨_, done, found⟩)
  obtain ⟨first, rest, ranked⟩ := List.exists_cons_of_ne_nil (List.ne_nil_of_mem listed)
  exact ⟨first.driveLabel, List.mem_filterMap.mpr ⟨req, desired, by simp [ranked]⟩⟩

variable (approved : ApprovedFrom u pyHash sha facts proposal)
include approved

/-- The executable row of a task. -/
theorem row_of_planned {t : AssignedTask} (member : t ∈ (facts.planned u pyHash).capacity.tasks) :
    ∃ row ∈ proposal.tasks, row.rowKind = .executable ∧
      row.requirementId = proposalRequirementId t.requirementId ∧
      row.repoId = t.repoId ∧ row.targetDrive = some t.targetDrive := by
  obtain ⟨order, listed⟩ : ∃ order, (t, order) ∈
      (inExecutionOrder (facts.planned u pyHash).graph (facts.planned u pyHash).capacity.tasks).zipIdx
        (1 + (facts.planned u pyHash).graph.matched.length) := by
    have among : t ∈ (((inExecutionOrder (facts.planned u pyHash).graph
        (facts.planned u pyHash).capacity.tasks).zipIdx
          (1 + (facts.planned u pyHash).graph.matched.length)).map Prod.fst) := by
      rw [List.zipIdx_map_fst]
      exact mem_sortBy.mpr member
    obtain ⟨entry, listed, rfl⟩ := List.mem_map.mp among
    exact ⟨entry.2, listed⟩
  refine ⟨taskRow sha facts.toProposalFacts (facts.planned u pyHash).graph
    (executableRow (facts.planned u pyHash).capacity.tasks t order), ?_, rfl, rfl, rfl, rfl⟩
  rw [approved.previewed.tasks.mem_iff]
  exact List.mem_map_of_mem (List.mem_append_right _ (List.mem_map.mpr ⟨_, listed, rfl⟩))

/-- The approved files of a planned task are what its target lacks. -/
theorem files_of_planned {t : AssignedTask} (member : t ∈ (facts.planned u pyHash).capacity.tasks)
    {req : CopyRequirement}
    (planned : Planned u facts.input.planner (facts.planned u pyHash).capacity.tasks t req)
    {file : FileRow} : file ∈ fileGroup proposal (proposalRequirementId t.requirementId) ↔
      ∃ mf ∈ (facts.input.planner.holding u req t.targetDrive).missing,
        file = fileRow facts.toProposalFacts (proposalRequirementId t.requirementId) t.repoId mf := by
  simp only [fileGroup, List.mem_filter, approved.previewed.files.mem_iff, mem_fileRows, beq_iff_eq]
  have listed : ∀ mf, (mf ∈ facts.input.planner.manifestOf req.repoId ∧
      mf.rfilename ∈ t.budget.missingFiles) ↔
        mf ∈ (facts.input.planner.holding u req t.targetDrive).missing := by
    intro mf
    rw [planned.missing]
    constructor
    · rintro ⟨inManifest, named⟩
      obtain ⟨other, absent, sameName⟩ := List.mem_map.mp named
      have missing : facts.input.planner.verdict u req.repoId t.targetDrive mf = .missing := by
        rw [verdict_missing, ← sameName]
        exact verdict_missing.mp (verdict_of_missing absent)
      simp [holding, inManifest, missing]
    · intro absent
      exact ⟨missing_listed absent, List.mem_map_of_mem absent⟩
  constructor
  · rintro ⟨⟨t', member', mf, inManifest, missing, rfl⟩, same⟩
    obtain ⟨req', planned'⟩ := planned_of_task approved.plan member'
    have sameReq : req' = req := by
      apply eq_of_proposalId planned'.desired planned.desired
      rw [← planned'.named, ← planned.named]
      exact same
    obtain rfl : t' = t := List.inj_on_of_nodup_map (nodup_planned approved.plan) member' member
      (planned'.named.trans (sameReq ▸ planned.named.symm))
    refine ⟨mf, (listed mf).mp ⟨?_, missing⟩, rfl⟩
    rw [← planned.repo]
    exact inManifest
  · rintro ⟨mf, absent, rfl⟩
    obtain ⟨inManifest, missing⟩ := (listed mf).mpr absent
    refine ⟨⟨t, member, mf, ?_, missing, rfl⟩, rfl⟩
    rw [planned.repo]
    exact inManifest

/-- Every row stands for a desired copy. -/
theorem row_cases {task : TaskRow} (member : task ∈ proposal.tasks) :
    task.fullManifestHash =
        repoManifestHash sha facts.toProposalFacts (facts.planned u pyHash).graph task.repoId ∧
      ((task.rowKind = .executable ∧ ∃ req target, Finishes u facts proposal task req target ∧
          task.identityEpoch = some (facts.identity target).epoch) ∨
        (task.rowKind = .baselineSatisfied ∧ ∃ req label, Matches u sha facts task req label ∧
          task.identityEpoch = some (facts.identity label).epoch)) := by
  obtain ⟨row, listed, rfl⟩ := List.mem_map.mp (approved.previewed.tasks.mem_iff.mp member)
  refine ⟨rfl, ?_⟩
  simp only [buildAssignment, List.mem_append, List.mem_map] at listed
  rcases listed with ⟨entry, among, rfl⟩ | ⟨entry, among, rfl⟩
  · right
    obtain ⟨req, desired, id, complete⟩ :=
      mem_matchesOf (mem_sortBy.mp (List.fst_mem_of_mem_zipIdx among))
    refine ⟨rfl, req, entry.1.2, ⟨desired, congrArg proposalRequirementId id, ?_, rfl, rfl, rfl,
      complete, rfl⟩, rfl⟩
    exact (congrArg repoOf id).trans (repoOf_desired desired)
  · left
    have planned' := mem_sortBy.mp (List.fst_mem_of_mem_zipIdx among)
    obtain ⟨req, planned⟩ := planned_of_task approved.plan planned'
    refine ⟨rfl, req, entry.1.targetDrive, ⟨planned.desired, congrArg proposalRequirementId planned.named,
      planned.repo, rfl, rfl, planned.pending, planned.finishable, fun file => ?_, ⟨_, rfl⟩, ?_⟩, rfl⟩
    · exact files_of_planned approved planned' planned
    · intro source sourced
      obtain ⟨home, pair, from_⟩ := planned.sourced source sourced
      refine ⟨home, pair, from_.imp_right ?_⟩
      rintro ⟨h, inTasks, id, rfl⟩
      obtain ⟨row, listed, executable, named, _, target⟩ := row_of_planned approved inTasks
      exact ⟨row, listed, executable, named.trans (congrArg proposalRequirementId id), target⟩

/-- The rows of a proposal are told apart by their requirements. -/
theorem nodup_rows : (proposal.tasks.map TaskRow.requirementId).Nodup := by
  have ids : (taskRows sha facts.toProposalFacts (facts.planned u pyHash).graph
      (facts.planned u pyHash).capacity).map TaskRow.requirementId =
        ((facts.planned u pyHash).graph.matched.map Prod.fst ++
          (inExecutionOrder (facts.planned u pyHash).graph (facts.planned u pyHash).capacity.tasks).map
            AssignedTask.requirementId).map proposalRequirementId := by
    rw [← List.zipIdx_map_fst 1 (facts.planned u pyHash).graph.matched,
      ← List.zipIdx_map_fst (1 + (facts.planned u pyHash).graph.matched.length)
        (inExecutionOrder _ _)]
    simp only [taskRows, buildAssignment, List.map_append, List.map_map]
    rfl
  have matchedIds : ((facts.planned u pyHash).graph.matched.map Prod.fst).Nodup := by
    apply ((sortBy_perm toLex (matchesOf u facts.input.planner)).map Prod.fst).nodup_iff.mpr
    apply nodup_keys_filterMap _ (@nodup_requirements facts.input.planner)
    intro req entry ranked
    obtain ⟨_, _, rfl⟩ := Option.map_eq_some_iff.mp ranked
    rfl
  have plannedIds : ((inExecutionOrder (facts.planned u pyHash).graph
      (facts.planned u pyHash).capacity.tasks).map AssignedTask.requirementId).Nodup :=
    ((sortBy_perm _ _).map _).nodup_iff.mpr (nodup_planned approved.plan)
  have known : ∀ id, id ∈ (facts.planned u pyHash).graph.matched.map Prod.fst ∨
      id ∈ (inExecutionOrder (facts.planned u pyHash).graph
        (facts.planned u pyHash).capacity.tasks).map AssignedTask.requirementId →
      ∃ req ∈ facts.input.planner.requirements.desired, req.requirementId = id ∧
        (id ∈ (facts.planned u pyHash).graph.matched.map Prod.fst →
          facts.input.planner.complete u req ≠ []) := by
    rintro id (matched | planned)
    · obtain ⟨entry, listed, rfl⟩ := List.mem_map.mp matched
      obtain ⟨req, desired, named, complete⟩ := mem_matchesOf (mem_sortBy.mp listed)
      exact ⟨req, desired, named.symm, fun _ none => by simp [none] at complete⟩
    · obtain ⟨t, listed, rfl⟩ := List.mem_map.mp planned
      obtain ⟨req, of⟩ := planned_of_task approved.plan (mem_sortBy.mp listed)
      refine ⟨req, of.desired, of.named.symm, fun matched => ?_⟩
      obtain ⟨entry, listed', same⟩ := List.mem_map.mp matched
      obtain ⟨req', desired', named', complete⟩ := mem_matchesOf (mem_sortBy.mp listed')
      obtain rfl : req' = req := List.inj_on_of_nodup_map nodup_requirements desired' of.desired
        (named'.symm.trans (same.trans of.named))
      exact fun none => by simp [none] at complete
  rw [(approved.previewed.tasks.map TaskRow.requirementId).nodup_iff, ids]
  apply List.Nodup.map_on
  · intro id listed other listed' same
    obtain ⟨req, desired, rfl, _⟩ := known id (List.mem_append.mp listed)
    obtain ⟨req', desired', rfl, _⟩ := known other (List.mem_append.mp listed')
    rw [eq_of_proposalId desired desired' same]
  · refine List.nodup_append'.mpr ⟨matchedIds, plannedIds, ?_⟩
    intro id matched planned
    obtain ⟨req, desired, named, complete⟩ := known id (.inl matched)
    obtain ⟨t, listed, same⟩ := List.mem_map.mp planned
    obtain ⟨req', of⟩ := planned_of_task approved.plan (mem_sortBy.mp listed)
    obtain rfl : req' = req := List.inj_on_of_nodup_map nodup_requirements of.desired desired
      (of.named.symm.trans (same.trans named.symm))
    exact complete matched of.pending

/-- Every repository with a manifest has a row. -/
theorem row_of_repo {repo : String} (listed : repo ∈ facts.input.planner.manifests.map Prod.fst) :
    ∃ row ∈ proposal.tasks, row.repoId = repo := by
  obtain ⟨req, ofRepo⟩ : ∃ req, req ∈ facts.input.planner.desiredOf repo := by
    unfold desiredOf
    dsimp only
    split_ifs
    · exact ⟨_, List.mem_cons_self⟩
    · exact ⟨_, List.mem_cons_self⟩
  have desired : req ∈ facts.input.planner.requirements.desired := mem_desired.mpr ⟨repo, listed, ofRepo⟩
  by_cases pending : facts.input.planner.complete u req = []
  · obtain ⟨t, member, id⟩ := List.mem_map.mp (planned_of_open approved.plan desired pending)
    obtain ⟨row, among, _, _, repoId, _⟩ := row_of_planned approved member
    refine ⟨row, among, ?_⟩
    rw [repoId, repoId_of_task member, id, repoOf_desired desired, repoId_of_desired ofRepo]
  · obtain ⟨label, matched⟩ := matched_of_complete desired pending
    have among : (req.requirementId, label) ∈ (facts.planned u pyHash).graph.matched :=
      mem_sortBy.mpr matched
    rw [← List.zipIdx_map_fst 1 (facts.planned u pyHash).graph.matched] at among
    obtain ⟨entry, numbered, same⟩ := List.mem_map.mp among
    refine ⟨taskRow sha facts.toProposalFacts (facts.planned u pyHash).graph
      (baselineRow (facts.planned u pyHash).graph entry.1 entry.2), ?_, ?_⟩
    · rw [approved.previewed.tasks.mem_iff]
      exact List.mem_map_of_mem (List.mem_append_left _ (List.mem_map.mpr ⟨entry, numbered, rfl⟩))
    · calc repoOf entry.1.1 = repoOf req.requirementId := by rw [same]
        _ = repo := by rw [repoOf_desired desired, repoId_of_desired ofRepo]

end Rows

end Modelark.Fill
