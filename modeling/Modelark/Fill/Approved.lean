import Modelark.Fill.Projection
import Modelark.Placement.Ledger
import Modelark.Proposal.Hashing

/-!
# Approved rows

What the rows of a proposal say that was previewed from one catalog snapshot: every executable row
belongs to a task of the plan, and its files are files of its repository's manifest.
-/

namespace Modelark.Fill

open Modelark.Archive Library Planning Placement Proposal

section Names

/-- The repository stands behind the first colon. -/
theorem repoOf_append {head : String} (plain : ':' ∉ head.toList) (repo : String) :
    repoOf (head ++ (":" ++ repo)) = repo := by
  have kept : ∀ c ∈ head.toList, (!decide (c = ':')) = true := by
    intro c member
    simpa using ne_of_mem_of_not_mem member plain
  simp [repoOf, String.toList_append, List.dropWhile_append_of_pos kept]

theorem repoOf_proposalRequirementId (rid : String) :
    repoOf (proposalRequirementId rid) = repoOf rid := by
  unfold proposalRequirementId
  split_ifs
  · exact @repoOf_append "primary" (by decide) (repoOf rid)
  · exact @repoOf_append "replica" (by decide) (repoOf rid)
  · rfl

/-- A desired requirement carries the repository of its name. -/
theorem repoOf_desired {inp : PlannerInput} {req : CopyRequirement}
    (desired : req ∈ inp.requirements.desired) : repoOf req.requirementId = req.repoId := by
  obtain ⟨repo, _, ofRepo⟩ := PlannerInput.mem_desired.mp desired
  unfold PlannerInput.desiredOf at ofRepo
  dsimp only at ofRepo
  split_ifs at ofRepo <;> simp only [List.mem_cons, List.not_mem_nil, or_false] at ofRepo
  · subst ofRepo
    exact @repoOf_append "primary" (by decide) repo
  · rcases ofRepo with rfl | rfl
    · exact @repoOf_append "protected_home" (by decide) repo
    · exact @repoOf_append "protected_replica" (by decide) repo

end Names

section Plan

variable {u : Unicode} {pyHash : KeyPart → HashValue} {input : PreviewInput}

theorem mem_of_matchCandidate {cset : CandidateSet} {t : AssignmentTask} {c : Candidate}
    (found : matchCandidate cset t = some c) :
    ∃ item ∈ cset.byRequirement, item.1 = t.requirementId ∧ c ∈ item.2 := by
  unfold matchCandidate at found
  cases group : cset.byRequirement.find? (·.1 == t.requirementId) with
  | none =>
      rw [group] at found
      cases found
  | some item =>
      refine ⟨item, List.mem_of_find?_eq_some group, by simpa using List.find?_some group, ?_⟩
      rw [group] at found
      apply List.mem_of_mem_filter
      rcases kept : item.2.filter (·.targetDrive == t.targetDrive) with _ | ⟨first, _ | ⟨second, rest⟩⟩
      · simp [kept] at found
      · simp only [kept, Option.some.injEq] at found
        exact List.mem_singleton.mpr found.symm
      · simp only [kept] at found
        cases chosen : (first :: second :: rest).find? (agreesWith t) with
        | none =>
            rw [chosen] at found
            cases found
            exact List.mem_cons_self
        | some other =>
            rw [chosen] at found
            cases found
            exact List.mem_of_find?_eq_some chosen

/-- The repository of a planned task is the one in the name of its requirement. -/
theorem repoId_of_task {task : AssignedTask} (member : task ∈ (preview u pyHash input).capacity.tasks) :
    task.repoId = repoOf task.requirementId := by
  have projected : ∃ t, task = Placement.projectTask (input.solver u).candidates t := by
    simp only [preview, planCapacity] at member
    split_ifs at member
    · cases member
    · split at member
      · rw [projectAssignedTasks, mem_sortBy, List.mem_map] at member
        obtain ⟨t, _, rfl⟩ := member
        exact ⟨t, rfl⟩
      · cases member
  obtain ⟨t, rfl⟩ := projected
  unfold Placement.projectTask
  cases found : matchCandidate (input.solver u).candidates t with
  | none => rfl
  | some c =>
      obtain ⟨item, listed, id, among⟩ := mem_of_matchCandidate found
      have filed : c.requirementId = item.1 := constructed_solver.filed.keyed item listed c among
      have named : repoOf c.requirementId = repoOf t.requirementId := by rw [filed, id]
      dsimp only
      split <;> exact named

theorem stale_of_infeasible (stale : (preview u pyHash input).capacity.staleTargets ≠ []) :
    (preview u pyHash input).capacity.gateBCode ≠ .feasible := by
  simp only [preview, planCapacity] at stale ⊢
  split_ifs at stale ⊢ with empty
  · exact fun same => by cases same
  · split at stale <;> simp_all

/-- The verdict on a proposal is feasible only when the whole plan is. -/
theorem feasible_of_gate (gate : proposalGateCode (preview u pyHash input) = "FEASIBLE") :
    (preview u pyHash input).capacity.feasible = true := by
  have codes : ∀ code ∈ (preview u pyHash input).graph.blocking, code ≠ "FEASIBLE" := by
    intro code member
    simp only [preview, reconcile, blockingOf, List.mem_append, List.mem_map] at member
    rcases member with ⟨_, _, rfl⟩ | ⟨item, _, rfl⟩
    · decide
    · split <;> decide
  have diagnostics : (preview u pyHash input).capacity.blockingDiagnostics =
      (preview u pyHash input).graph.blocking := by
    simp only [preview, planCapacity]
    split_ifs
    · rfl
    · split <;> rfl
  unfold proposalGateCode at gate
  split_ifs at gate with policy verdict
  · exact absurd gate (by decide)
  · exfalso
    apply verdict
    generalize (preview u pyHash input).capacity.gateBCode = code at gate
    cases code <;> first | rfl | exact absurd gate (by decide)
  · have accepted : (preview u pyHash input).capacity.gateBCode = .feasible := not_not.mp verdict
    have clear : (preview u pyHash input).graph.blocking = [] := by
      cases first : (sortedSet (preview u pyHash input).graph.blocking).head? with
      | none => exact sortedSet_eq_nil.mp (List.head?_eq_none_iff.mp first)
      | some code =>
          rw [first, Option.getD_some] at gate
          exact absurd gate (codes code (mem_sortedSet.mp (List.mem_of_head? first)))
    have fresh : (preview u pyHash input).capacity.staleTargets = [] :=
      not_not.mp fun stale => stale_of_infeasible stale accepted
    simp [CapacityPlan.feasible, accepted, diagnostics, clear, fresh]

end Plan

section Rows

variable {sha : Digester} {facts : ProposalFacts} {result : ReconcileResult} {plan : CapacityPlan}

/-- The executable rows of a plan are the rows of its tasks. -/
theorem mem_executable {task : TaskRow} (member : task ∈ taskRows sha facts result plan)
    (executable : task.rowKind = .executable) : ∃ t ∈ plan.tasks, ∃ order,
      task = taskRow sha facts result (executableRow plan.tasks t order) := by
  obtain ⟨row, listed, rfl⟩ := List.mem_map.mp member
  simp only [buildAssignment, List.mem_append, List.mem_map] at listed
  rcases listed with ⟨entry, _, rfl⟩ | ⟨entry, among, rfl⟩
  · cases executable
  · exact ⟨entry.1, mem_sortBy.mp (List.fst_mem_of_mem_zipIdx among), entry.2, rfl⟩

theorem mem_fileRows {file : FileRow} : file ∈ fileRows facts result plan ↔
    ∃ t ∈ plan.tasks, ∃ mf ∈ ReconcileResult.manifest result t.repoId,
      mf.rfilename ∈ t.budget.missingFiles ∧
        file = fileRow facts (proposalRequirementId t.requirementId) t.repoId mf := by
  simp only [fileRows, missingRows, inExecutionOrder, List.mem_flatMap, mem_sortBy, List.mem_map,
    List.mem_filter, decide_eq_true_eq]
  constructor
  · rintro ⟨t, member, mf, ⟨listed, missing⟩, rfl⟩
    exact ⟨t, member, mf, listed, missing, rfl⟩
  · rintro ⟨t, member, mf, listed, missing, rfl⟩
    exact ⟨t, member, mf, ⟨listed, missing⟩, rfl⟩

end Rows

/-- A stored proposal holds the rows that were previewed from one catalog snapshot. -/
def PreviewedFrom (u : Unicode) (pyHash : KeyPart → HashValue) (sha : Digester) (facts : PreviewFacts)
    (proposal : Loaded) : Prop :=
  ∃ payload, previewPure u pyHash sha facts = some payload ∧ proposal.header = payload.header ∧
    proposal.tasks.Perm payload.tasks ∧ proposal.files.Perm payload.files

/-- A proposal that could be approved: any other verdict is refused. -/
structure ApprovedFrom (u : Unicode) (pyHash : KeyPart → HashValue) (sha : Digester)
    (facts : PreviewFacts) (proposal : Loaded) : Prop where
  previewed : PreviewedFrom u pyHash sha facts proposal
  feasible : proposal.header.gateBCode = "FEASIBLE"

section Previewed

variable {u : Unicode} {pyHash : KeyPart → HashValue} {sha : Digester} {facts : PreviewFacts}
  {proposal : Loaded}

variable (approved : PreviewedFrom u pyHash sha facts proposal)
include approved

theorem PreviewedFrom.tasks : proposal.tasks.Perm (taskRows sha facts.toProposalFacts
    (facts.planned u pyHash).graph (facts.planned u pyHash).capacity) := by
  obtain ⟨payload, previewed, _, tasks, _⟩ := approved
  unfold previewPure at previewed
  split_ifs at previewed
  cases previewed
  exact tasks

theorem PreviewedFrom.files : proposal.files.Perm (fileRows facts.toProposalFacts
    (facts.planned u pyHash).graph (facts.planned u pyHash).capacity) := by
  obtain ⟨payload, previewed, _, _, files⟩ := approved
  unfold previewPure at previewed
  split_ifs at previewed
  cases previewed
  exact files

theorem PreviewedFrom.task {task : TaskRow} (member : task ∈ proposal.tasks)
    (executable : task.rowKind = .executable) :
    ∃ t ∈ (facts.planned u pyHash).capacity.tasks,
      task.requirementId = proposalRequirementId t.requirementId ∧ task.repoId = t.repoId ∧
        task.targetDrive = some t.targetDrive := by
  obtain ⟨t, among, order, rfl⟩ := mem_executable (approved.tasks.mem_iff.mp member) executable
  exact ⟨t, among, rfl, rfl, rfl⟩

/-- The approved files of a task are the files of its manifest under their names. -/
theorem PreviewedFrom.file {task : TaskRow} (member : task ∈ proposal.tasks)
    (executable : task.rowKind = .executable) {file : FileRow}
    (grouped : file ∈ fileGroup proposal task.requirementId) :
    (∃ mf ∈ facts.input.planner.manifestOf task.repoId,
      file.rfilename = mf.rfilename ∧ file.origSha256 = mf.sha256) ∧
    ∀ mf ∈ facts.input.planner.manifestOf task.repoId, mf.rfilename = file.rfilename →
      ∃ other ∈ fileGroup proposal task.requirementId,
        other.rfilename = mf.rfilename ∧ other.origSha256 = mf.sha256 := by
  obtain ⟨listed, same⟩ := List.mem_filter.mp grouped
  obtain ⟨t, among, mf, inManifest, missing, rfl⟩ :=
    mem_fileRows.mp (approved.files.mem_iff.mp listed)
  obtain ⟨t', among', rid, repo, _⟩ := approved.task member executable
  have names : proposalRequirementId t.requirementId = task.requirementId := beq_iff_eq.mp same
  have sameRepo : t.repoId = task.repoId := by
    rw [repo, repoId_of_task among, repoId_of_task among', ← repoOf_proposalRequirementId, names, rid,
      repoOf_proposalRequirementId]
  refine ⟨⟨mf, sameRepo ▸ inManifest, rfl, rfl⟩, ?_⟩
  intro other inManifest' sameName
  have row : fileRow facts.toProposalFacts (proposalRequirementId t.requirementId) t.repoId other ∈
      proposal.files := by
    rw [approved.files.mem_iff]
    exact mem_fileRows.mpr ⟨t, among, other, sameRepo.symm ▸ inManifest', by rwa [sameName], rfl⟩
  exact ⟨_, List.mem_filter.mpr ⟨row, beq_iff_eq.mpr names⟩, rfl, rfl⟩

omit approved in
theorem ApprovedFrom.plan (approved : ApprovedFrom u pyHash sha facts proposal) :
    (facts.planned u pyHash).capacity.feasible = true := by
  obtain ⟨⟨payload, previewed, header, _, _⟩, feasible⟩ := approved
  unfold previewPure at previewed
  split_ifs at previewed
  cases previewed
  rw [header] at feasible
  exact feasible_of_gate feasible

end Previewed

end Modelark.Fill
