import Modelark.Placement.Capacity

/-!
# Projected plans

A feasible plan carries the improved assignment: every projected task has the target, source,
missing files and byte figures of the assignment task it came from, and no drive is asked for more
than its evidence admits.
-/

namespace Modelark.Placement

open Modelark.Archive Library Planning PlannerInput

def TaskBudget.durableFor (budget : TaskBudget) (mode : CapacityMode) : Nat :=
  match mode with
  | .guaranteed => budget.guaranteedDurable
  | .compressionAware => budget.expectedDurable

def TaskBudget.workspaceFor (budget : TaskBudget) (mode : CapacityMode) : Nat :=
  match mode with
  | .guaranteed => budget.workspacePeakGuaranteed
  | .compressionAware => budget.workspacePeakExpected

/-- The ledger's peak of a drive: durable bytes of its tasks and their largest workspace. -/
def requiredPeak (mode : CapacityMode) (tasks : List AssignedTask) (label : String) : Nat :=
  let here := tasks.filter (·.targetDrive == label)
  total (·.budget.durableFor mode) here + peak (·.budget.workspaceFor mode) here

/-- The bytes that the evidence admits on a drive. -/
def admissibleOn (evidenceByDrive : List (String × Evidence)) (label : String) : Int :=
  let ev := evidenceFor evidenceByDrive label
  if ev.executable then ev.admissibleFree else 0

section Matching

variable {u : Unicode} {inp : PlannerInput} {solver : SolverInput}
  (built : Constructed u inp solver)
include built

theorem Constructed.nodup_groups : (solver.candidates.byRequirement.map Prod.fst).Nodup := by
  have distinct := @nodup_requirements inp
  rw [built.candidates, PlannerInput.candidates]
  rw [((sortBy_perm Prod.fst _).map Prod.fst).nodup_iff, List.map_map]
  exact (distinct.of_map _).filter _ |>.map_on (fun left member right member' same =>
    List.inj_on_of_nodup_map distinct (List.mem_filter.mp member).1 (List.mem_filter.mp member').1 same)

/-- A task finds the candidate it was made from. -/
theorem Constructed.matchCandidate_eq {budget : String → Int} {tasks : List AssignmentTask}
    (valid : ValidAssignment solver budget tasks) {t : AssignmentTask} (member : t ∈ tasks) :
    ∃ c ∈ solver.candsOf t.requirementId, matchCandidate solver.candidates t = some c ∧
      t = taskOf solver.capacityMode t.requirementId c t.source ∧
        Resolves tasks c.source t.source := by
  obtain ⟨c, listed, made, resolved⟩ := valid.candidate t member
  refine ⟨c, listed, ?_, made, resolved⟩
  obtain ⟨item, inSet, id, among, _⟩ := SolverInput.mem_candsOf listed
  obtain ⟨req, _, _, _, same⟩ := built.exists_requirement inSet
  have found : solver.candidates.byRequirement.find? (·.1 == t.requirementId) = some item :=
    (find?_key_eq_some built.nodup_groups).mpr ⟨inSet, id⟩
  have target : c.targetDrive = t.targetDrive := by rw [made]; rfl
  have here : c ∈ item.2.filter (·.targetDrive == t.targetDrive) :=
    List.mem_filter.mpr ⟨among, beq_iff_eq.mpr target⟩
  have agrees : agreesWith t c = true := by
    unfold agreesWith
    cases source : c.source with
    | none =>
        rw [source] at resolved
        rw [show t.source = none from resolved]
    | some source' =>
        rw [source] at resolved
        cases source' with
        | identity named => rw [show t.source = some named from resolved]; simp
        | pendingHome home =>
            obtain ⟨h, _, _, from_⟩ := resolved
            rw [from_]
            rfl
  -- Among the candidates of the target, only the one the task was made from agrees with it.
  have only : ∀ c' ∈ item.2.filter (·.targetDrive == t.targetDrive), agreesWith t c' = true →
      c' = c := by
    intro c' listed' agrees'
    obtain ⟨among', target'⟩ := List.mem_filter.mp listed'
    have targets : c'.targetDrive = c.targetDrive := (beq_iff_eq.mp target').trans target.symm
    have sources : c'.source = c.source := by
      cases source : c.source with
      | none =>
          rw [source] at resolved
          rw [agreesWith, show t.source = none from resolved] at agrees'
          cases source' : c'.source with
          | none => rfl
          | some kind =>
              rw [source'] at agrees'
              cases kind <;> cases agrees'
      | some kind =>
          cases kind with
          | pendingHome home => exact built.wellFormed.unmixed item inSet c among c' among' home source
          | identity named =>
              rw [source] at resolved
              rw [agreesWith, show t.source = some named from resolved] at agrees'
              cases source' : c'.source with
              | none => rw [source'] at agrees'; simp at agrees'
              | some kind' =>
                  cases kind' with
                  | identity named' =>
                      rw [source'] at agrees'
                      rw [beq_iff_eq.mp agrees']
                  | pendingHome home =>
                      have mixed := built.wellFormed.unmixed item inSet c' among' c among home source'
                      rw [source] at mixed
                      cases mixed
    exact Constructed.eq_of_target_source ((same c').mp among') ((same c).mp among) targets sources
  rw [matchCandidate, found]
  dsimp only
  rcases matched : item.2.filter (·.targetDrive == t.targetDrive) with _ | ⟨first, _ | ⟨second, rest⟩⟩
  · rw [matched] at here
    cases here
  · rw [matched] at here
    rw [matched, List.mem_singleton.mp here]
  · rw [matched] at here only
    cases chosen : (first :: second :: rest).find? (agreesWith t) with
    | none => exact absurd agrees (List.find?_eq_none.mp chosen c here)
    | some c' =>
        rw [matched]
        dsimp only
        rw [chosen, only c' (List.mem_of_find?_eq_some chosen) (List.find?_some chosen)]
        rfl

end Matching

section Figures

variable {cset : CandidateSet} {t : AssignmentTask} {c : Candidate}

/-- The budget of a projected task is its candidate's, whatever its source was resolved to. -/
theorem projectTask_budget (found : matchCandidate cset t = some c) :
    ∃ sourceDrive, (projectTask cset t).budget = { taskBudget c with sourceDrive } := by
  rw [projectTask, found]
  dsimp only
  cases t.source with
  | some source => exact ⟨_, rfl⟩
  | none =>
      cases c.source with
      | none => exact ⟨_, rfl⟩
      | some source => cases source <;> exact ⟨_, rfl⟩

theorem projectTask_durableFor (found : matchCandidate cset t = some c) (mode : CapacityMode) :
    (projectTask cset t).budget.durableFor mode = (taskBudget c).durableFor mode := by
  obtain ⟨_, same⟩ := projectTask_budget found
  rw [same]
  rfl

theorem projectTask_workspaceFor (found : matchCandidate cset t = some c) (mode : CapacityMode) :
    (projectTask cset t).budget.workspaceFor mode = (taskBudget c).workspaceFor mode := by
  obtain ⟨_, same⟩ := projectTask_budget found
  rw [same]
  rfl

/-- A projected task carries the figures of its assignment task. -/
theorem projectTask_figures (mode : CapacityMode) (found : matchCandidate cset t = some c)
    (made : t = taskOf mode.value t.requirementId c t.source) :
    (projectTask cset t).budget.durableFor mode = t.durable ∧
      (projectTask cset t).budget.workspaceFor mode = t.workspace := by
  rw [projectTask_durableFor found, projectTask_workspaceFor found, made]
  cases mode <;> exact ⟨rfl, rfl⟩

end Figures

section Plan

variable {u : Unicode} {pyHash : KeyPart → HashValue} {input : PreviewInput}

theorem constructed_solver : Constructed u input.planner (input.solver u) where
  graph := rfl
  candidates := rfl

/-- A feasible plan projects the improved assignment, which is valid, and all its targets are still
    plan members. -/
theorem preview_improved (feasible : (preview u pyHash input).capacity.feasible = true) :
    staleTargets (preview u pyHash input).graph input.drives = [] ∧
      ∃ first : CanonicalAssignment,
        (gateB pyHash (input.solver u)).assignment = some first ∧
        (preview u pyHash input).capacity.tasks =
          projectAssignedTasks (improve pyHash (input.solver u) first fun _ => false).assignment
            (input.solver u).candidates ∧
        ValidAssignment (input.solver u) (input.solver u).executableFree
          (improve pyHash (input.solver u) first fun _ => false).assignment.tasks := by
  have built : Constructed u input.planner (input.solver u) := constructed_solver
  have solver : buildSolverInput (reconcile u input.planner input.policyErrors) input.drives
      input.capacityMode input.evidenceByDrive input.bounds input.preference = input.solver u := rfl
  simp only [preview, planCapacity, solver] at feasible ⊢
  by_cases stale : staleTargets (reconcile u input.planner input.policyErrors) input.drives = []
  · refine ⟨stale, ?_⟩
    simp only [stale, List.isEmpty_nil, Bool.not_true, Bool.false_eq_true, if_false] at feasible ⊢
    cases code : (gateB pyHash (input.solver u)).code with
    | feasible =>
        obtain ⟨_, found, handed⟩ := gateB_feasible code
        obtain ⟨first, chosen⟩ := search_first_of_found found
        have valid := search_valid built.filed built.uniqueIds (.inl chosen)
        have improved := @improve_valid _ pyHash built.filed built.uniqueIds _ (fun _ => false) valid
        rw [funext (input.solver u).freeMap_getD] at improved
        rw [handed, chosen]
        exact ⟨first, rfl, rfl, improved⟩
    | _ =>
        rw [code] at feasible
        simp [CapacityPlan.feasible] at feasible
  · rw [if_pos (by simp [stale])] at feasible
    simp [CapacityPlan.feasible] at feasible

theorem preview_feasible (feasible : (preview u pyHash input).capacity.feasible = true) :
    staleTargets (preview u pyHash input).graph input.drives = [] ∧
      ∃ asn : CanonicalAssignment,
        (preview u pyHash input).capacity.tasks =
          projectAssignedTasks asn (input.solver u).candidates ∧
        ValidAssignment (input.solver u) (input.solver u).executableFree asn.tasks := by
  obtain ⟨fresh, first, _, tasks, valid⟩ := preview_improved feasible
  exact ⟨fresh, _, tasks, valid⟩

/-- The solver never has more of a plan drive than its evidence admits. -/
theorem executableFree_le {label : String} (planned : label ∈ input.drives.map PlanDrive.label) :
    (input.solver u).executableFree label ≤ admissibleOn input.evidenceByDrive label := by
  obtain ⟨drive, listed, rfl⟩ := List.mem_map.mp planned
  obtain ⟨other, _, label, found⟩ : ∃ other ∈ input.drives, other.label = drive.label ∧
      (Dict.ofPairs (input.solver u).executableBudget)[drive.label]? =
        some (executableFree input.preference other (evidenceFor input.evidenceByDrive other.label)) :=
    Dict.exists_lookup_of_record (sortBy_perm _ _) listed
  obtain ⟨known, _, same, evidence⟩ : ∃ known ∈ input.drives, known.label = drive.label ∧
      (input.solver u).evidenceMap[drive.label]? =
        some ⟨(evidenceFor input.evidenceByDrive known.label).executable⟩ :=
    Dict.exists_lookup_of_record (sortBy_perm _ _) listed
  rw [label] at found
  rw [same] at evidence
  rw [SolverInput.executableFree, evidence, admissibleOn]
  cases executable : (evidenceFor input.evidenceByDrive drive.label).executable with
  | false => simp
  | true =>
      simp only [found, Option.getD_some, executableFree, capToLane, executable, if_true]
      split
      · split
        · exact min_le_left _ _
        · exact le_refl _
      · exact le_refl _

/-- The target of an assigned task is a named member of the plan. -/
theorem target_planned {asn : CanonicalAssignment}
    (fresh : staleTargets (preview u pyHash input).graph input.drives = [])
    (valid : ValidAssignment (input.solver u) (input.solver u).executableFree asn.tasks)
    {t : AssignmentTask} (member : t ∈ asn.tasks) :
    t.targetDrive ∈ input.drives.map PlanDrive.label := by
  obtain ⟨c, listed, made, _⟩ := valid.candidate t member
  obtain ⟨item, inSet, _, among, _⟩ := SolverInput.mem_candsOf listed
  have target : c.targetDrive = t.targetDrive := by rw [made]; rfl
  have nonempty : item.2 ≠ [] := List.ne_nil_of_mem among
  have usable := List.filter_eq_nil_iff.mp (List.map_eq_nil_iff.mp fresh) item inSet
  simp only [Bool.and_eq_true, Bool.not_eq_eq_eq_not, Bool.not_true, List.isEmpty_eq_false_iff,
    not_and, Bool.not_eq_false, List.all_eq_true, List.contains_iff_mem] at usable
  have current := usable nonempty c among
  rw [target] at current
  obtain ⟨drive, kept, label⟩ := List.mem_map.mp current
  exact List.mem_map.mpr ⟨drive, (List.mem_filter.mp kept).1, label⟩

/-- The ledger of a projected plan is the solver's load. -/
theorem requiredPeak_project {asn : CanonicalAssignment}
    (valid : ValidAssignment (input.solver u) (input.solver u).executableFree asn.tasks)
    (label : String) :
    requiredPeak input.capacityMode (projectAssignedTasks asn (input.solver u).candidates) label =
      durableOn asn.tasks label + workspaceOn asn.tasks label := by
  have figures : ∀ t ∈ asn.tasks,
      (projectTask (input.solver u).candidates t).budget.durableFor input.capacityMode = t.durable ∧
      (projectTask (input.solver u).candidates t).budget.workspaceFor input.capacityMode =
        t.workspace := by
    intro t member
    obtain ⟨c, _, found, made, _⟩ := constructed_solver.matchCandidate_eq valid member
    exact projectTask_figures input.capacityMode found made
  have here := (sortBy_perm (fun task : AssignedTask =>
    toLex (task.targetDrive, toLex (task.kind.value, task.requirementId)))
    (asn.tasks.map (projectTask (input.solver u).candidates))).filter (·.targetDrive == label)
  rw [requiredPeak, projectAssignedTasks, total_perm here, peak_perm here, List.filter_map, total_map, peak_map,
    durableOn, workspaceOn]
  congr 1
  · refine congrArg List.sum (List.map_congr_left fun t kept => ?_)
    exact (figures t (List.mem_filter.mp kept).1).1
  · refine congrArg (List.foldr max 0) (List.map_congr_left fun t kept => ?_)
    exact (figures t (List.mem_filter.mp kept).1).2

/-- Every target of a feasible plan is a named drive with room for what the ledger asks of it. -/
theorem requiredPeak_le (feasible : (preview u pyHash input).capacity.feasible = true)
    {task : AssignedTask} (member : task ∈ (preview u pyHash input).capacity.tasks) :
    task.targetDrive ≠ "" ∧
      (requiredPeak input.capacityMode (preview u pyHash input).capacity.tasks
        task.targetDrive : Int) ≤ admissibleOn input.evidenceByDrive task.targetDrive := by
  obtain ⟨fresh, asn, tasks, valid⟩ := preview_feasible feasible
  rw [tasks, projectAssignedTasks, mem_sortBy, List.mem_map] at member
  obtain ⟨t, assigned, rfl⟩ := member
  have planned := target_planned fresh valid assigned
  constructor
  · obtain ⟨drive, _, label⟩ := List.mem_map.mp planned
    exact fun blank => drive.named (label.trans blank)
  · rw [tasks, requiredPeak_project valid]
    exact (valid.capacity t assigned).trans (executableFree_le planned)

end Plan

end Modelark.Placement
