import Modelark.Fill.Approved
import Modelark.Placement.Independence
import Modelark.Planning.Convergence

/-!
# Completion against satisfaction

The projection drops a task on the digests of its approved files; candidate construction asks for the
size of every file of the manifest as well, on a drive of the right tier. What is satisfied for the
planner is complete for the projection, and the difference in the other direction is exactly that.
-/

namespace Modelark.Fill

open Modelark.Archive Library Planning PlannerInput Placement Proposal

/-- One catalog as the projection and the planner read it. -/
structure SameFacts (facts : PreviewFacts) (input : ProjectionInput) (now : PlannerInput) : Prop where
  archived : now.archived = input.archived
  manifests : now.manifests = facts.input.planner.manifests
  /-- The catalog refuses blank labels. -/
  labelled : ∀ drive ∈ now.drives, drive.driveLabel ≠ ""

/-- Candidate construction lists a drive among the copies of a satisfied requirement. -/
def ReportsCopy (u : Unicode) (now : PlannerInput) (requirementId drive : String) : Prop :=
  ∃ item ∈ (now.candidates u now.requirements).satisfied, item.requirementId = requirementId ∧
    drive ∈ item.copies.map SatisfiedCopy.driveLabel

/-- What the projection does not look at: the tier of the target, the recorded sizes, and the files
    that were there before the plan. -/
structure Unchecked (u : Unicode) (now : PlannerInput) (req : CopyRequirement) (target : String)
    (approved : List FileRow) : Prop where
  pooled : target ∈ now.acceptedCompletePool req
  sized : ∀ mf ∈ now.manifestOf req.repoId, mf.rfilename ∈ approved.map FileRow.rfilename →
    ∃ row, now.rowOf req.repoId target mf.rfilename = some row ∧ row.origBytes = some mf.sizeBytes
  reused : ∀ mf ∈ now.manifestOf req.repoId, mf.rfilename ∉ approved.map FileRow.rfilename →
    now.verdict u req.repoId target mf = .proven

section Projected

variable {u : Unicode} {proposal : Loaded} {input : ProjectionInput} {parked : List String}
  {sha : Digester} {graph : ProjectionGraph} {result : ExecutionProjection}

/-- A projection that succeeds has passed every task. -/
theorem projectPure_eq_ok (projected : projectPure u proposal input parked sha graph = .ok result) :
    (∀ task ∈ proposal.tasks, ∃ kept, projectTask u proposal input parked task = .ok kept) ∧
      result.tasks = sortBy executionKey (proposal.tasks.filterMap fun task =>
        (projectTask u proposal input parked task).toOption.join) := by
  unfold projectPure at projected
  split at projected
  · cases projected
  · split at projected
    · cases projected
    · rename_i remaining collected
      obtain ⟨all, rfl⟩ := collect_eq_ok.mp collected
      cases projected
      exact ⟨all, rfl⟩

/-- What the projection of one task says when it succeeds. -/
theorem projectTask_eq_ok {task : TaskRow} (executable : task.rowKind = .executable)
    {kept : Option ProjectedTask} (passed : projectTask u proposal input parked task = .ok kept) :
    let usable := usableFiles (fileGroup proposal task.requirementId)
    usable ≠ [] ∧
      if allFilesContentSatisfied u input.archived task.repoId usable task.targetDrive then
        kept = none
      else ∃ state, kept = some ⟨task, state⟩ := by
  unfold projectTask at passed
  rw [if_neg (by simp [executable])] at passed
  dsimp only at passed ⊢
  by_cases missing : fileGroup proposal task.requirementId = []
  · rw [if_pos missing] at passed
    cases passed
  by_cases empty : usableFiles (fileGroup proposal task.requirementId) = []
  · rw [if_neg missing, if_pos empty] at passed
    cases passed
  rw [if_neg missing, if_neg empty] at passed
  refine ⟨empty, ?_⟩
  cases durable : task.guaranteedDurable with
  | none =>
      rw [durable] at passed
      cases passed
  | some bytes =>
      simp only [durable] at passed
      cases budget : checkBudget input task bytes
          (usableFiles (fileGroup proposal task.requirementId)) with
      | some refused =>
          rw [budget] at passed
          cases passed
      | none =>
          simp only [budget] at passed
          split at passed
          · rename_i complete
            cases passed
            rw [if_pos complete]
          · rename_i incomplete
            rw [if_neg incomplete]
            split at passed
            · cases passed
            · cases passed
            · cases passed
              exact ⟨_, rfl⟩

/-- An executable task is returned unless all its approved files are there. -/
theorem returned_iff (projected : projectPure u proposal input parked sha graph = .ok result)
    {task : TaskRow} (member : task ∈ proposal.tasks) (executable : task.rowKind = .executable) :
    task ∈ result.tasks.map ProjectedTask.row ↔
      allFilesContentSatisfied u input.archived task.repoId
        (usableFiles (fileGroup proposal task.requirementId)) task.targetDrive = false := by
  obtain ⟨all, listed⟩ := projectPure_eq_ok projected
  obtain ⟨kept, passed⟩ := all task member
  obtain ⟨_, outcome⟩ := projectTask_eq_ok executable passed
  have mem : ∀ {row : TaskRow}, row ∈ result.tasks.map ProjectedTask.row ↔
      ∃ other ∈ proposal.tasks, ∃ p, projectTask u proposal input parked other = .ok (some p) ∧
        p.row = row := by
    intro row
    simp only [listed, List.mem_map, mem_sortBy, List.mem_filterMap]
    constructor
    · rintro ⟨p, ⟨other, among, same⟩, rfl⟩
      obtain ⟨kept', passed'⟩ := all other among
      rw [passed'] at same
      cases kept' <;> cases same
      exact ⟨other, among, p, passed', rfl⟩
    · rintro ⟨other, among, p, passed', rfl⟩
      exact ⟨p, ⟨other, among, by rw [passed']; rfl⟩, rfl⟩
  have own : ∀ {other p}, projectTask u proposal input parked other = .ok (some p) →
      p.row = other := by
    intro other p passed'
    have open' : other.rowKind = .executable := by
      by_contra closed
      rw [projectTask, if_pos closed] at passed'
      cases passed'
    obtain ⟨_, outcome'⟩ := projectTask_eq_ok open' passed'
    split_ifs at outcome'
    obtain ⟨state, same⟩ := outcome'
    cases same
    rfl
  rw [mem]
  constructor
  · rintro ⟨other, _, p, passed', rfl⟩
    have same := own passed'
    subst same
    rw [passed] at passed'
    cases passed'
    split_ifs at outcome with complete
    exact Bool.eq_false_iff.mpr complete
  · intro incomplete
    rw [incomplete] at outcome
    obtain ⟨state, rfl⟩ := outcome
    exact ⟨task, member, _, passed, rfl⟩

end Projected

section Copies

variable {u : Unicode} {now : PlannerInput} {req : CopyRequirement}

/-- A complete copy is a pooled drive on which the whole manifest is proven. -/
theorem holds_copy {label : String} : label ∈ (now.complete u req).map Holding.driveLabel ↔
    label ∈ now.acceptedCompletePool req ∧
      ∀ mf ∈ now.manifestOf req.repoId, now.verdict u req.repoId label mf = .proven := by
  constructor
  · intro copy
    obtain ⟨held, complete, rfl⟩ := List.mem_map.mp copy
    obtain ⟨label, pooled, rfl, unproven, missing⟩ := mem_complete.mp complete
    exact ⟨pooled, fun mf listed => proven_of_complete unproven missing listed⟩
  · rintro ⟨pooled, proven⟩
    refine List.mem_map.mpr ⟨now.holding u req label, mem_complete.mpr ⟨label, pooled, rfl, ?_, ?_⟩,
      rfl⟩
    · simp only [holding, List.filter_eq_nil_iff, decide_eq_true_eq]
      exact fun mf listed bad => by simp [proven mf listed] at bad
    · simp only [holding, sortBy_eq_nil, List.filter_eq_nil_iff, decide_eq_true_eq]
      exact fun mf listed bad => by simp [proven mf listed] at bad

theorem reportsCopy_iff (desired : req ∈ now.requirements.desired) {label : String} :
    ReportsCopy u now req.requirementId label ↔
      label ∈ (now.complete u req).map Holding.driveLabel := by
  constructor
  · rintro ⟨item, listed, id, copy⟩
    simp only [candidates, mem_sortBy, List.mem_map, List.mem_filter] at listed
    obtain ⟨other, ⟨desired', _⟩, rfl⟩ := listed
    obtain rfl : other = req := List.inj_on_of_nodup_map nodup_requirements desired' desired id
    simpa only [satisfaction, List.map_map, List.mem_map, mem_sortBy, Function.comp_apply] using copy
  · intro copy
    obtain ⟨held, complete, rfl⟩ := List.mem_map.mp copy
    exact satisfied_of_complete desired complete

/-- The projection looks up the same row as the planner. -/
theorem archivedRow_eq (repo rfilename drive : String) :
    archivedRow now.archived repo rfilename drive = now.rowOf repo drive rfilename := by
  simp only [archivedRow, rowOf, rowsOn, ← List.filter_reverse, List.find?_filter,
    Bool.decide_and, Bool.decide_eq_true]

theorem labelled_of_ne {label : String} (named : label ≠ "") : labelled (some label) = some label := by
  simp [labelled, named]

end Copies

section Agreement

variable {u : Unicode} {pyHash : KeyPart → HashValue} {sha : Digester} {facts : PreviewFacts}
  {proposal : Loaded} {input : ProjectionInput} {now : PlannerInput} {parked : List String}
  {graph : ProjectionGraph} {result : ExecutionProjection}

section Task

variable (approved : ApprovedFrom u pyHash sha facts proposal) (same : SameFacts facts input now)
  {task : TaskRow} (member : task ∈ proposal.tasks) (executable : task.rowKind = .executable)

include approved member executable in
/-- The requirement of a task is about the task's repository. -/
theorem repoId_of_named {req : CopyRequirement} (desired : req ∈ now.requirements.desired)
    (named : proposalRequirementId req.requirementId = task.requirementId) :
    req.repoId = task.repoId := by
  obtain ⟨t, among, rid, repo, _⟩ := approved.previewed.task member executable
  calc req.repoId = repoOf req.requirementId := (repoOf_desired desired).symm
    _ = repoOf (proposalRequirementId t.requirementId) := by
        rw [← rid, ← named, repoOf_proposalRequirementId]
    _ = repoOf t.requirementId := repoOf_proposalRequirementId _
    _ = task.repoId := by rw [repo, repoId_of_task among]

include approved member executable in
/-- A planned target has a label. -/
theorem target_ne {target : String} (placed : task.targetDrive = some target) : target ≠ "" := by
  obtain ⟨t, among, _, _, target'⟩ := approved.previewed.task member executable
  obtain rfl : target = t.targetDrive := Option.some.inj (placed.symm.trans target')
  exact (requiredPeak_le approved.plan among).1

include same in
theorem content_iff {repo target : String} {file : FileRow} :
    fileContentSatisfied u input.archived repo target file = true ↔
      ∃ row, now.rowOf repo target file.rfilename = some row ∧
        satisfiedBy u file.origSha256 row = true := by
  rw [fileContentSatisfied, ← same.archived, archivedRow_eq, Option.any_eq_true]
  rfl

end Task

/-- A task is dropped exactly when the digests of its approved files are on its target. What the planner
    reports satisfied there is dropped, and what is dropped is reported satisfied exactly when the
    unchecked facts hold as well. -/
theorem completion_agrees (approved : ApprovedFrom u pyHash sha facts proposal)
    (same : SameFacts facts input now)
    (projected : projectPure u proposal input parked sha graph = .ok result)
    {task : TaskRow} (member : task ∈ proposal.tasks) (executable : task.rowKind = .executable)
    {target : String} (placed : task.targetDrive = some target) {req : CopyRequirement}
    (desired : req ∈ now.requirements.desired)
    (named : proposalRequirementId req.requirementId = task.requirementId) :
    (task ∉ result.tasks.map ProjectedTask.row ↔
      ∀ file ∈ usableFiles (fileGroup proposal task.requirementId),
        fileContentSatisfied u input.archived task.repoId target file = true) ∧
    (task ∉ result.tasks.map ProjectedTask.row →
      (ReportsCopy u now req.requirementId target ↔
        Unchecked u now req target (usableFiles (fileGroup proposal task.requirementId)))) ∧
    (ReportsCopy u now req.requirementId target → task ∉ result.tasks.map ProjectedTask.row) := by
  have sameRepo : req.repoId = task.repoId := repoId_of_named approved member executable desired named
  have manifest : now.manifestOf req.repoId = facts.input.planner.manifestOf task.repoId := by
    rw [manifestOf, manifestOf, same.manifests, sameRepo]
  have label : labelled task.targetDrive = some target := by
    rw [placed, labelled_of_ne (target_ne approved member executable placed)]
  obtain ⟨kept, passed⟩ := (projectPure_eq_ok projected).1 task member
  have usable := (projectTask_eq_ok executable passed).1
  have dropped : task ∉ result.tasks.map ProjectedTask.row ↔
      ∀ file ∈ usableFiles (fileGroup proposal task.requirementId),
        fileContentSatisfied u input.archived task.repoId target file = true := by
    rw [returned_iff projected member executable, Bool.not_eq_false, allFilesContentSatisfied, label]
    simp [usable]
  have grouped : ∀ {file}, file ∈ usableFiles (fileGroup proposal task.requirementId) →
      file ∈ fileGroup proposal task.requirementId := List.mem_of_mem_filter
  refine ⟨dropped, ?_, ?_⟩
  · intro gone
    rw [reportsCopy_iff desired, holds_copy]
    constructor
    · rintro ⟨pooled, proven⟩
      refine ⟨pooled, fun mf listed _ => ?_, fun mf listed _ => proven mf listed⟩
      obtain ⟨row, found, size, _⟩ := verdict_proven.mp (proven mf listed)
      exact ⟨row, found, size⟩
    · rintro ⟨pooled, sized, reused⟩
      refine ⟨pooled, fun mf listed => ?_⟩
      by_cases name : mf.rfilename ∈ (usableFiles (fileGroup proposal task.requirementId)).map
          FileRow.rfilename
      · -- An approved file: its digest is there, and its size is recorded.
        obtain ⟨file, among, sameName⟩ := List.mem_map.mp name
        obtain ⟨other, inGroup, otherName, sha256⟩ := (approved.previewed.file member executable
          (grouped among)).2 mf (manifest ▸ listed) sameName.symm
        have otherUsable : other ∈ usableFiles (fileGroup proposal task.requirementId) := by
          refine List.mem_filter.mpr ⟨inGroup, ?_⟩
          rw [otherName, ← sameName]
          exact (List.mem_filter.mp among).2
        obtain ⟨row, found, size⟩ := sized mf listed name
        obtain ⟨row', found', satisfied⟩ := (content_iff same).mp (dropped.mp gone other otherUsable)
        rw [otherName, ← sameRepo, found] at found'
        cases found'
        exact verdict_proven.mpr ⟨row, found, size, sha256 ▸ satisfied⟩
      · exact reused mf listed name
  · intro reported
    obtain ⟨_, proven⟩ := holds_copy.mp ((reportsCopy_iff desired).mp reported)
    rw [dropped]
    intro file among
    obtain ⟨mf, listed, sameName, sha256⟩ :=
      (approved.previewed.file member executable (grouped among)).1
    obtain ⟨row, found, _, satisfied⟩ := verdict_proven.mp (proven mf (manifest ▸ listed))
    rw [content_iff same, sameName, sha256, ← sameRepo]
    exact ⟨row, found, satisfied⟩

end Agreement

section Sample

/-- The drive has room for the missing file and its workspace. -/
def roomyInput : PreviewInput :=
  { partialInput with evidenceByDrive := [("alpha", ⟨true, 150, some 180⟩)] }

def roomyFacts : PreviewFacts :=
  { partialFacts with input := roomyInput }

def roomyProposal : Loaded where
  proposalId := "p"
  lifecycle := .approved
  canonicalHash := ""
  createdAt := "then"
  approvedAt := some "now"
  supersededAt := none
  header := headerFromFacts marked roomyFacts (roomyFacts.planned asciiUnicode pairHash)
    (taskRows marked roomyFacts.toProposalFacts (roomyFacts.planned asciiUnicode pairHash).graph
      (roomyFacts.planned asciiUnicode pairHash).capacity)
  tasks := taskRows marked roomyFacts.toProposalFacts (roomyFacts.planned asciiUnicode pairHash).graph
    (roomyFacts.planned asciiUnicode pairHash).capacity
  files := fileRows roomyFacts.toProposalFacts (roomyFacts.planned asciiUnicode pairHash).graph
    (roomyFacts.planned asciiUnicode pairHash).capacity

/-- The text file was fetched, with a recorded size. -/
def fetchedPlanner (size : Nat) : PlannerInput :=
  { roomyInput.planner with
    archived := roomyInput.planner.archived ++
      [⟨"m", "alpha", "note.txt", some "bb", some size, some size, none, false⟩] }

def fetchedInput (size : Nat) : ProjectionInput where
  manifests := []
  drives := [("alpha", ⟨"active", some 1, false⟩)]
  archived := (fetchedPlanner size).archived
  evidence := [("alpha", ⟨true, some "observed", none⟩)]
  observedRatio := []
  executionInvariants := none
  certificates := []

def roomyRequirement : CopyRequirement := ⟨"primary:m", "m", .primary, ["alpha"], none⟩

theorem roomyProposal_approved :
    ApprovedFrom asciiUnicode pairHash marked roomyFacts roomyProposal where
  previewed := ⟨_, if_pos rfl, rfl, .refl _, .refl _⟩
  feasible := by decide +kernel

theorem fetched_sameFacts (size : Nat) :
    SameFacts roomyFacts (fetchedInput size) (fetchedPlanner size) where
  archived := rfl
  manifests := rfl
  labelled := (by decide : ∀ drive ∈ roomyInput.planner.drives, drive.driveLabel ≠ "")

theorem roomyProposal_tasks :
    roomyProposal.tasks.map (fun task => (task.requirementId, task.rowKind, task.targetDrive)) =
      [("primary:m", .executable, some "alpha")] := by
  decide +kernel

/-- The projection drops the only task, whatever size was recorded. -/
theorem projected_fetched (size : Nat) (small : size = 5 ∨ size = 6) :
    ∃ result, projectPure asciiUnicode roomyProposal (fetchedInput size) [] marked ⟨[], none⟩ =
      .ok result ∧ result.tasks = [] := by
  have empty : (projectPure asciiUnicode roomyProposal (fetchedInput size) [] marked
      ⟨[], none⟩).toOption.map ExecutionProjection.tasks = some [] := by
    rcases small with rfl | rfl <;> decide +kernel
  cases projected : projectPure asciiUnicode roomyProposal (fetchedInput size) [] marked ⟨[], none⟩ with
  | error refused =>
      rw [projected] at empty
      cases empty
  | ok result =>
      rw [projected] at empty
      exact ⟨result, rfl, Option.some.inj empty⟩

/-- The text file has five bytes; a row of six satisfies the projection and not the planner. -/
theorem dropped_unsatisfied :
    ApprovedFrom asciiUnicode pairHash marked roomyFacts roomyProposal ∧
      SameFacts roomyFacts (fetchedInput 6) (fetchedPlanner 6) ∧
      roomyRequirement ∈ (fetchedPlanner 6).requirements.desired ∧
      ∃ result, projectPure asciiUnicode roomyProposal (fetchedInput 6) [] marked ⟨[], none⟩ =
          .ok result ∧
        ∃ task ∈ roomyProposal.tasks, task.rowKind = .executable ∧ task.targetDrive = some "alpha" ∧
          proposalRequirementId roomyRequirement.requirementId = task.requirementId ∧
          task ∉ result.tasks.map ProjectedTask.row ∧
          ¬ReportsCopy asciiUnicode (fetchedPlanner 6) roomyRequirement.requirementId "alpha" := by
  obtain ⟨result, projected, empty⟩ := projected_fetched 6 (.inr rfl)
  obtain ⟨task, only⟩ := List.length_eq_one_iff.mp
    (by simpa using congrArg List.length roomyProposal_tasks : roomyProposal.tasks.length = 1)
  have columns := roomyProposal_tasks
  simp only [only, List.map_cons, List.map_nil, List.cons.injEq, Prod.mk.injEq, and_true] at columns
  obtain ⟨rid, executable, target⟩ := columns
  refine ⟨roomyProposal_approved, fetched_sameFacts 6, by decide +kernel, result, projected, task,
    by simp [only], executable, target, rid.symm ▸ by decide +kernel, by simp [empty], ?_⟩
  rintro ⟨item, listed, _⟩
  have none : ((fetchedPlanner 6).candidates asciiUnicode (fetchedPlanner 6).requirements).satisfied =
      [] := by decide +kernel
  rw [none] at listed
  cases listed

/-- With the size of the manifest both agree. -/
theorem completion_agrees_roomy : ∃ result,
    projectPure asciiUnicode roomyProposal (fetchedInput 5) [] marked ⟨[], none⟩ = .ok result ∧
      ∀ task ∈ roomyProposal.tasks, task ∉ result.tasks.map ProjectedTask.row ∧
        ReportsCopy asciiUnicode (fetchedPlanner 5) roomyRequirement.requirementId "alpha" := by
  obtain ⟨result, projected, _⟩ := projected_fetched 5 (.inl rfl)
  refine ⟨result, projected, fun task member => ?_⟩
  have columns := List.mem_map_of_mem (f := fun task : TaskRow =>
    (task.requirementId, task.rowKind, task.targetDrive)) member
  rw [roomyProposal_tasks, List.mem_singleton] at columns
  simp only [Prod.mk.injEq] at columns
  obtain ⟨rid, executable, target⟩ := columns
  obtain ⟨_, _, reported⟩ := completion_agrees roomyProposal_approved (fetched_sameFacts 5) projected
    member executable target (by decide +kernel : roomyRequirement ∈ _) (rid ▸ by decide +kernel)
  have listed : ReportsCopy asciiUnicode (fetchedPlanner 5) roomyRequirement.requirementId "alpha" := by
    have copy : "alpha" ∈ ((fetchedPlanner 5).complete asciiUnicode roomyRequirement).map
        Holding.driveLabel := by decide +kernel
    exact (reportsCopy_iff (by decide +kernel)).mpr copy
  exact ⟨reported listed, listed⟩

end Sample

end Modelark.Fill
