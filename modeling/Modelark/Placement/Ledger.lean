import Modelark.Capacity.Evidence
import Modelark.Placement.Projection

/-!
# The published plan refines the solved one

Every task that a feasible plan publishes is the solver's task for its requirement, and the ledger of
every drive asks for no more than the free bytes shown beside it.
-/

namespace Modelark.Placement

open Modelark.Archive Library Planning Modelark.Capacity

/-- What planning reads of the evidence of a drive. -/
def planningEvidence (ev : CapacityEvidence) : Evidence :=
  ⟨ev.executable, ev.admissibleFree, ev.optimisticUsableMax⟩

/-- `CapacityDrive.usable_now`. -/
def usableNow (input : PreviewInput) (drive : PlanDrive) : Int :=
  (evidenceFor input.evidenceByDrive drive.label).admissibleFree

/-- A published task says what the solver's task says, in the figures of one capacity mode. -/
structure PublishedAs (mode : CapacityMode) (t : AssignmentTask) (task : AssignedTask) : Prop where
  requirementId : task.requirementId = t.requirementId
  kind : task.kind = t.taskKind
  target : task.targetDrive = t.targetDrive ∧ task.budget.targetDrive = t.targetDrive
  source : task.sourceDrive = t.source.map SourceIdentity.driveLabel ∧
    task.budget.sourceDrive = t.source.map SourceIdentity.driveLabel
  dependsOn : task.dependsOnRequirement = t.dependsOnRequirement
  missing : task.budget.missingFiles = t.missingFiles
  durable : task.budget.durableFor mode = t.durable
  workspace : task.budget.workspaceFor mode = t.workspace

section Task

variable {u : Unicode} {input : PreviewInput} {tasks : List AssignmentTask}
  (valid : ValidAssignment (input.solver u) (input.solver u).executableFree tasks)
include valid

theorem publishedAs_projectTask {t : AssignmentTask} (member : t ∈ tasks) :
    PublishedAs input.capacityMode t (projectTask (input.solver u).candidates t) := by
  obtain ⟨c, _, found, made, resolved⟩ := constructed_solver.matchCandidate_eq valid member
  have figures := projectTask_figures input.capacityMode found made
  have fields : c.targetDrive = t.targetDrive ∧
      c.missingFiles.map ManifestFile.rfilename = t.missingFiles := by
    rw [made]
    exact ⟨rfl, rfl⟩
  -- The candidate's own source is only shown when the task has none.
  have shown : ∀ source, t.source = none → c.source ≠ some (.identity source) := by
    intro source unresolved named
    rw [named, unresolved] at resolved
    cases resolved
  have budget : (projectTask (input.solver u).candidates t).budget.sourceDrive =
      t.source.map SourceIdentity.driveLabel ∧
      (projectTask (input.solver u).candidates t).budget.missingFiles =
        c.missingFiles.map ManifestFile.rfilename ∧
      (projectTask (input.solver u).candidates t).budget.targetDrive = c.targetDrive := by
    rw [projectTask, found]
    dsimp only
    cases source : t.source with
    | some named => exact ⟨rfl, rfl, rfl⟩
    | none =>
        cases from_ : c.source with
        | none => exact ⟨by simp [taskBudget, from_], rfl, rfl⟩
        | some kind =>
            cases kind with
            | identity named => exact absurd from_ (shown named source)
            | pendingHome home => exact ⟨rfl, rfl, rfl⟩
  exact
    { requirementId := rfl
      kind := rfl
      target := ⟨rfl, budget.2.2.trans fields.1⟩
      source := ⟨budget.1, budget.1⟩
      dependsOn := rfl
      missing := budget.2.1.trans fields.2
      durable := figures.1
      workspace := figures.2 }

end Task

section Ledger

variable {u : Unicode} {pyHash : KeyPart → HashValue} {input : PreviewInput}

/-- Evidence that was derived admits no negative figure, and nothing unless it is executable. -/
theorem admissibleOn_eq (derived : ∀ item ∈ input.evidenceByDrive, ∃ facts : EvidenceFacts,
    item.2 = planningEvidence facts.derive) (drive : PlanDrive) :
    admissibleOn input.evidenceByDrive drive.label = usableNow input drive ∧
      0 ≤ usableNow input drive := by
  have sound : ∃ ev : Evidence, evidenceFor input.evidenceByDrive drive.label = ev ∧
      0 ≤ ev.admissibleFree ∧ (ev.executable = false → ev.admissibleFree = 0) := by
    refine ⟨_, rfl, ?_⟩
    rw [evidenceFor, Dict.getD_eq]
    cases found : (Dict.ofPairs input.evidenceByDrive)[drive.label]? with
    | none => exact ⟨le_refl _, fun _ => rfl⟩
    | some ev =>
        obtain ⟨facts, same⟩ := derived _ (Dict.mem_of_lookup_ofPairs found)
        obtain rfl : ev = planningEvidence facts.derive := same
        exact facts.derive_admissible
  obtain ⟨ev, found, nonneg, unknown⟩ := sound
  simp only [admissibleOn, usableNow, found]
  refine ⟨?_, nonneg⟩
  cases executable : ev.executable with
  | true => rfl
  | false => simp [unknown executable]

/-- A drive without tasks is asked for nothing. -/
theorem requiredPeak_idle {mode : CapacityMode} {tasks : List AssignedTask} {label : String}
    (idle : ∀ task ∈ tasks, task.targetDrive ≠ label) : requiredPeak mode tasks label = 0 := by
  have none : tasks.filter (·.targetDrive == label) = [] :=
    List.filter_eq_nil_iff.mpr fun task member here => idle task member (beq_iff_eq.mp here)
  simp [requiredPeak, none, total, peak]

/-- A feasible plan publishes the tasks of the improved assignment, one for one, and no drive's ledger
    exceeds its usable bytes. -/
theorem plan_refines_solver (u : Unicode) (pyHash : KeyPart → HashValue) (input : PreviewInput)
    (derived : ∀ item ∈ input.evidenceByDrive, ∃ facts : EvidenceFacts,
      item.2 = planningEvidence facts.derive)
    (feasible : (preview u pyHash input).capacity.feasible = true) :
    ∃ first, (gateB pyHash (input.solver u)).assignment = some first ∧
      ((preview u pyHash input).capacity.tasks.map AssignedTask.requirementId).Perm
        ((improve pyHash (input.solver u) first fun _ => false).assignment.tasks.map
          AssignmentTask.requirementId) ∧
      ((preview u pyHash input).capacity.tasks.map AssignedTask.requirementId).Nodup ∧
      (∀ task ∈ (preview u pyHash input).capacity.tasks,
        ∀ t ∈ (improve pyHash (input.solver u) first fun _ => false).assignment.tasks,
          t.requirementId = task.requirementId → PublishedAs input.capacityMode t task) ∧
      ∀ drive ∈ input.drives,
        (requiredPeak input.capacityMode (preview u pyHash input).capacity.tasks drive.label : Int) ≤
          usableNow input drive := by
  obtain ⟨fresh, first, handed, tasks, valid⟩ := preview_improved feasible
  have distinct : ((improve pyHash (input.solver u) first fun _ => false).assignment.tasks.map
      AssignmentTask.requirementId).Nodup := by
    rw [valid.ids]
    exact SolverInput.nodup_unsat constructed_solver.uniqueIds
  have ids : ((preview u pyHash input).capacity.tasks.map AssignedTask.requirementId).Perm
      ((improve pyHash (input.solver u) first fun _ => false).assignment.tasks.map
        AssignmentTask.requirementId) := by
    rw [tasks, projectAssignedTasks]
    refine ((sortBy_perm _ _).map _).trans ?_
    rw [List.map_map]
    rfl
  refine ⟨first, handed, ids, ids.nodup_iff.mpr distinct, ?_, ?_⟩
  · intro task listed t member same
    rw [tasks, projectAssignedTasks, mem_sortBy, List.mem_map] at listed
    obtain ⟨t', member', rfl⟩ := listed
    obtain rfl : t' = t := List.inj_on_of_nodup_map distinct member' member same.symm
    exact publishedAs_projectTask valid member
  · intro drive listed
    obtain ⟨admits, nonneg⟩ := admissibleOn_eq derived drive
    by_cases used : ∃ task ∈ (preview u pyHash input).capacity.tasks,
        task.targetDrive = drive.label
    · obtain ⟨task, member, here⟩ := used
      have fits := (requiredPeak_le feasible member).2
      rwa [here, admits] at fits
    · rw [requiredPeak_idle fun task member here => used ⟨task, member, here⟩]
      exact nonneg

end Ledger

section Sample

/-- A mounted drive with these free bytes, of which twenty are its floor. -/
def mountedFacts (free : Nat) : EvidenceFacts :=
  ⟨true, true, true, "dedicated_local", some 1, some 400, some "fp", some free, false, none, none, none,
    none, 20⟩

/-- A drive of its own serial. -/
def ledgerDrive (label role serial : String) : DriveFact :=
  ⟨label, role, false, 200, none, none, some serial, "active", "enabled"⟩

/-- A protected repository whose home is finished in place, with its replica, and another repository. -/
def finishInput : PreviewInput where
  planner :=
    { selection := ["m", "n"]
      manifests := [("m", [⟨"big.safetensors", 100, some "aa", .compress⟩, ⟨"note.txt", 5, none, .raw⟩]),
        ("n", [⟨"weights.gguf", 7, some "bb", .raw⟩])]
      uniqueRepos := by decide
      numcopies := [("m", 2)]
      drives := [ledgerDrive "alpha" "primary" "a", ledgerDrive "omega" "replica" "o"]
      archived := [⟨"m", "alpha", "big.safetensors", some "aa", some 100, some 60, none, true⟩]
      budget := ⟨⟨fun _ => true, true, true⟩, ManifestFile.sizeBytes⟩ }
  policyErrors := []
  drives := [⟨ledgerDrive "alpha" "primary" "a", 200, 20, by decide⟩,
    ⟨ledgerDrive "omega" "replica" "o", 200, 20, by decide⟩]
  capacityMode := .guaranteed
  evidenceByDrive := [("alpha", planningEvidence (mountedFacts 35).derive),
    ("omega", planningEvidence (mountedFacts 300).derive)]
  bounds := ⟨200000, 1500⟩
  preference := none

/-- The three tasks come from three assigned copies, and both drives have room for what is put there. -/
theorem plan_refines_solver_finish :
    ∃ first, (gateB pairHash (finishInput.solver asciiUnicode)).assignment = some first ∧
      ((improve pairHash (finishInput.solver asciiUnicode) first fun _ => false).assignment.tasks.map
        AssignmentTask.requirementId).Perm ["primary:n", "protected_home:m", "protected_replica:m"] ∧
      (∀ task ∈ (preview asciiUnicode pairHash finishInput).capacity.tasks,
        ∀ t ∈ (improve pairHash (finishInput.solver asciiUnicode) first fun _ => false).assignment.tasks,
          t.requirementId = task.requirementId → PublishedAs finishInput.capacityMode t task) ∧
      ∀ drive ∈ finishInput.drives,
        (requiredPeak finishInput.capacityMode
          (preview asciiUnicode pairHash finishInput).capacity.tasks drive.label : Int) ≤
            usableNow finishInput drive := by
  have derived : ∀ item ∈ finishInput.evidenceByDrive, ∃ facts : EvidenceFacts,
      item.2 = planningEvidence facts.derive := by
    intro item listed
    rcases List.mem_cons.mp listed with rfl | later
    · exact ⟨mountedFacts 35, rfl⟩
    · exact ⟨mountedFacts 300, congrArg Prod.snd (List.mem_singleton.mp later)⟩
  obtain ⟨first, handed, ids, _, published, fits⟩ :=
    plan_refines_solver asciiUnicode pairHash finishInput derived (by decide +kernel)
  exact ⟨first, handed, ids.symm.trans (by decide +kernel), published, fits⟩

end Sample

end Modelark.Placement
