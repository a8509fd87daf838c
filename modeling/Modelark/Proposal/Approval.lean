import Modelark.Proposal.Rows
import Modelark.Placement.Projection

/-!
# When a feasible plan passes approval

Gate B counts, per drive, the durable bytes of all tasks and the largest workspace, in the plan's
mode and for the missing files only. Approval counts raw-bounded durable bytes in execution order
and the workspace of the whole repository. A feasible plan passes where Gate B counts of every copy that may
go to a drive what approval counts, or the drive has room for the difference.
-/

namespace Modelark.Proposal

open Modelark.Archive Library Planning Placement

section Charging

/-- Durable bytes that the rows put on a drive. -/
def chargedOn (rows : List ChargedRow) (label : String) : Nat :=
  total ProposalRow.guaranteedDurable
    ((rows.filter (·.targetDrive = some label)).map ChargedRow.toProposalRow)

/-- Every row names a drive with a known remainder. -/
def Targeted (rows : List ChargedRow) (remaining : Dict String Int) : Prop :=
  ∀ row ∈ rows, ∃ label, row.targetDrive = some label ∧ label ≠ "" ∧ label ∈ remaining

theorem chargedOn_cons (row : ChargedRow) (rows : List ChargedRow) (label : String) :
    chargedOn (row :: rows) label =
      (if row.targetDrive = some label then row.guaranteedDurable else 0) +
        chargedOn rows label := by
  unfold chargedOn
  by_cases here : row.targetDrive = some label <;> simp [here]

theorem Targeted.insert {rows : List ChargedRow} {remaining : Dict String Int}
    (targeted : Targeted rows remaining) (label : String) (left : Int) :
    Targeted rows (remaining.insert label left) := by
  intro row member
  obtain ⟨target, named, nonblank, known⟩ := targeted row member
  exact ⟨target, named, nonblank, Std.ExtTreeMap.mem_insert.mpr (.inr known)⟩

/-- Charging in order succeeds when every row, together with the durable bytes before it on its
    drive, fits what was left at the start. -/
theorem chargeInOrder_eq_none {rows : List ChargedRow} {remaining : Dict String Int}
    (targeted : Targeted rows remaining) :
    chargeInOrder rows remaining = none ↔ ∀ earlier row later label,
      rows = earlier ++ row :: later → row.targetDrive = some label →
        ((chargedOn earlier label + row.guaranteedDurable + row.workspacePeak : Nat) : Int) ≤
          remaining.getD label 0 := by
  induction rows generalizing remaining with
  | nil => simp [chargeInOrder]
  | cons row rows ih =>
      obtain ⟨label, named, nonblank, known⟩ := targeted row (List.mem_cons_self ..)
      obtain ⟨left, found⟩ := Dict.exists_lookup_of_mem known
      have rest : Targeted rows (remaining.insert label (left - row.guaranteedDurable)) :=
        Targeted.insert (fun other member => targeted other (List.mem_cons_of_mem _ member)) _ _
      have leftHere : remaining.getD label 0 = left := by rw [Dict.getD_eq, found, Option.getD_some]
      have leftAfter (other : String) :
          (remaining.insert label (left - row.guaranteedDurable)).getD other 0 =
            remaining.getD other 0 -
              (if row.targetDrive = some other then row.guaranteedDurable else 0 : Nat) := by
        rw [Dict.getD_eq, Dict.lookup_insert, named]
        by_cases same : label = other
        · subst same
          simp [leftHere]
        · rw [if_neg same, if_neg (by simpa using same), Dict.getD_eq]
          simp
      rw [chargeInOrder.eq_def]
      simp only [named, if_neg nonblank, found]
      by_cases short : left < ((row.guaranteedDurable + row.workspacePeak : Nat) : Int)
      · simp only [if_pos short, reduceCtorEq, false_iff, not_forall, not_le]
        refine ⟨[], row, rows, label, rfl, named, ?_⟩
        rw [leftHere]
        simpa [chargedOn] using short
      · rw [if_neg short, ih rest]
        constructor
        · rintro fits (_ | ⟨first, earlier⟩) other later target split there
          · obtain ⟨rfl, rfl⟩ := List.cons.inj split
            obtain rfl : label = target := Option.some.inj (named.symm.trans there)
            rw [leftHere]
            simpa [chargedOn] using not_lt.mp short
          · obtain ⟨rfl, rfl⟩ := List.cons.inj split
            have fit := fits earlier other later target rfl there
            rw [leftAfter] at fit
            rw [chargedOn_cons]
            push_cast at fit ⊢
            omega
        · intro fits earlier other later target split there
          have fit := fits (row :: earlier) other later target (by rw [split]; rfl) there
          rw [chargedOn_cons] at fit
          rw [leftAfter]
          push_cast at fit ⊢
          omega

end Charging

section Rows

variable {files : List CatalogFile} {cfg : CompressionConfig}

/-- The charged rows of tasks in execution order, numbered from `start`. -/
def chargedRows (files : List CatalogFile) (cfg : CompressionConfig) (tasks ordered : List AssignedTask)
    (start : Nat) : List ChargedRow :=
  (ordered.zipIdx start).map fun entry => chargeRow files cfg (executableRow tasks entry.1 entry.2)

/-- Raw-bounded durable bytes that tasks put on a drive. -/
def guaranteedOn (tasks : List AssignedTask) (label : String) : Nat :=
  total (·.budget.guaranteedDurable) (tasks.filter (·.targetDrive = label))

theorem chargedOn_chargedRows (tasks ordered : List AssignedTask) (start : Nat) (label : String) :
    chargedOn (chargedRows files cfg tasks ordered start) label = guaranteedOn ordered label := by
  induction ordered generalizing start with
  | nil => rfl
  | cons task rest ih =>
      have rows : chargedRows files cfg tasks (task :: rest) start =
          chargeRow files cfg (executableRow tasks task start) ::
            chargedRows files cfg tasks rest (start + 1) := by
        simp [chargedRows, List.zipIdx_cons]
      rw [rows, chargedOn_cons, ih]
      by_cases here : task.targetDrive = label <;>
        simp [guaranteedOn, chargeRow, executableRow, here]

/-- Splitting the rows at a row is splitting the tasks at its task. -/
theorem chargedRows_split {tasks ordered : List AssignedTask} {start : Nat}
    {earlier later : List ChargedRow} {row : ChargedRow} :
    chargedRows files cfg tasks ordered start = earlier ++ row :: later ↔
      ∃ before task after, ordered = before ++ task :: after ∧
        earlier = chargedRows files cfg tasks before start ∧
        row = chargeRow files cfg (executableRow tasks task (start + before.length)) ∧
        later = chargedRows files cfg tasks after (start + before.length + 1) := by
  constructor
  · intro split
    induction ordered generalizing start earlier with
    | nil => simp [chargedRows] at split
    | cons task rest ih =>
        have rows : chargedRows files cfg tasks (task :: rest) start =
            chargeRow files cfg (executableRow tasks task start) ::
              chargedRows files cfg tasks rest (start + 1) := by
          simp [chargedRows, List.zipIdx_cons]
        rw [rows] at split
        cases earlier with
        | nil =>
            obtain ⟨rfl, rfl⟩ := List.cons.inj split
            exact ⟨[], task, rest, rfl, rfl, rfl, rfl⟩
        | cons first earlier =>
            simp only [List.cons_append, List.cons.injEq] at split
            obtain ⟨rfl, split⟩ := split
            obtain ⟨before, chosen, after, rfl, rfl, rfl, rfl⟩ := ih split
            refine ⟨task :: before, chosen, after, rfl, ?_, ?_, ?_⟩
            · simp [chargedRows, List.zipIdx_cons]
            · rw [List.length_cons]
              congr 2
              omega
            · rw [List.length_cons]
              congr 1
              omega
  · rintro ⟨before, task, after, rfl, rfl, rfl, rfl⟩
    simp [chargedRows, List.zipIdx_append, List.zipIdx_cons]

variable {result : ReconcileResult} {plan : CapacityPlan}

/-- Approval charges the executable rows in execution order. -/
theorem sorted_rows : sortBy (fun row : ChargedRow => toLex (row.orderKey, row.requirementId))
    (((buildAssignment result plan).map (chargeRow files cfg)).filter (·.rowKind = .executable)) =
      chargedRows files cfg plan.tasks (inExecutionOrder result plan.tasks)
        (1 + result.matched.length) := by
  have kept : ((buildAssignment result plan).map (chargeRow files cfg)).filter
      (·.rowKind = .executable) = chargedRows files cfg plan.tasks
        (inExecutionOrder result plan.tasks) (1 + result.matched.length) := by
    rw [buildAssignment, List.map_append, List.filter_append, List.filter_eq_nil_iff.mpr,
      List.nil_append, List.filter_eq_self.mpr]
    · rw [chargedRows, List.map_map]
      rfl
    · intro row member
      simp only [List.map_map, List.mem_map, Function.comp_apply] at member
      obtain ⟨_, _, rfl⟩ := member
      rfl
    · intro row member
      simp only [List.map_map, List.mem_map, Function.comp_apply] at member
      obtain ⟨_, _, rfl⟩ := member
      exact Bool.false_ne_true
  rw [kept]
  refine sortBy_of_pairwise ?_
  have increasing : (List.range' (1 + result.matched.length)
      (inExecutionOrder result plan.tasks).length).Pairwise (· < ·) := List.pairwise_lt_range'
  rw [← List.zipIdx_map_snd, List.pairwise_map] at increasing
  rw [chargedRows, List.pairwise_map]
  refine increasing.imp fun before => ?_
  exact le_of_lt (Prod.Lex.toLex_lt_toLex.mpr (.inl before))

end Rows

section Remaining

theorem fillTarget_spec (remaining : Dict String Int) (row : ChargedRow) (label : String) :
    (fillTarget remaining row).getD label 0 = remaining.getD label 0 ∧
      (label ∈ remaining ∨ label ≠ "" ∧ row.targetDrive = some label →
        label ∈ fillTarget remaining row) := by
  unfold fillTarget
  cases named : row.targetDrive with
  | none => simp
  | some target =>
      by_cases known : target = "" ∨ target ∈ remaining
      · simp only [if_pos known, true_and]
        rintro (held | ⟨nonblank, same⟩)
        · exact held
        · obtain rfl := Option.some.inj same
          exact known.resolve_left nonblank
      · simp only [if_neg known]
        obtain ⟨_, fresh⟩ := not_or.mp known
        constructor
        · rw [Dict.getD_eq, Dict.getD_eq, Dict.lookup_insert]
          by_cases same : target = label
          · rw [if_pos same, ← same, Dict.not_mem_iff_lookup.mp fresh]
            rfl
          · rw [if_neg same]
        · rintro (held | ⟨_, same⟩)
          · exact Std.ExtTreeMap.mem_insert.mpr (.inr held)
          · obtain rfl := Option.some.inj same
            exact Std.ExtTreeMap.mem_insert_self

theorem foldl_fillTarget_spec (rows : List ChargedRow) (remaining : Dict String Int)
    (label : String) :
    (rows.foldl fillTarget remaining).getD label 0 = remaining.getD label 0 ∧
      (label ∈ remaining ∨ label ≠ "" ∧ (∃ row ∈ rows, row.targetDrive = some label) →
        label ∈ rows.foldl fillTarget remaining) := by
  induction rows generalizing remaining with
  | nil => simp
  | cons row rows ih =>
      obtain ⟨same, kept⟩ := ih (fillTarget remaining row)
      obtain ⟨same', kept'⟩ := fillTarget_spec remaining row label
      refine ⟨same.trans same', ?_⟩
      rintro (held | ⟨nonblank, other, member, named⟩)
      · exact kept (.inl (kept' (.inl held)))
      · rcases List.mem_cons.mp member with rfl | later
        · exact kept (.inl (kept' (.inr ⟨nonblank, named⟩)))
        · exact kept (.inr ⟨nonblank, other, later, named⟩)

variable {evidenceByDrive : List (String × Evidence)} {rows : List ChargedRow}

theorem remainingByDrive_getD (label : String) :
    (remainingByDrive evidenceByDrive rows).getD label 0 = admissibleOn evidenceByDrive label := by
  rw [remainingByDrive, (foldl_fillTarget_spec _ _ label).1, Dict.getD_eq, Dict.lookup_ofPairs_map,
    admissibleOn, evidenceFor, Dict.getD_eq]
  cases (Dict.ofPairs evidenceByDrive)[label]? <;> rfl

end Remaining

/-- What approval asks of a task's drive when the tasks of `earlier` came before it. -/
def approvalCharge (files : List CatalogFile) (cfg : CompressionConfig) (earlier : List AssignedTask)
    (task : AssignedTask) : Nat :=
  guaranteedOn earlier task.targetDrive + task.budget.guaranteedDurable +
    attachedWorkspace files cfg task.repoId

/-- The approval check passes when every task's charge is within the evidence of its drive. -/
theorem approvalShortfall_eq_none {files : List CatalogFile} {cfg : CompressionConfig}
    {result : ReconcileResult} {plan : CapacityPlan} {evidenceByDrive : List (String × Evidence)}
    (named : ∀ task ∈ plan.tasks, task.targetDrive ≠ "") :
    approvalShortfall result plan files cfg evidenceByDrive = none ↔
      ∀ earlier task later, inExecutionOrder result plan.tasks = earlier ++ task :: later →
        (approvalCharge files cfg earlier task : Int) ≤
          admissibleOn evidenceByDrive task.targetDrive := by
  rw [approvalShortfall, jointCapacityShortfall, sorted_rows]
  have targeted : Targeted
      (chargedRows files cfg plan.tasks (inExecutionOrder result plan.tasks)
        (1 + result.matched.length))
      (remainingByDrive evidenceByDrive ((buildAssignment result plan).map (chargeRow files cfg))) := by
    intro row member
    have sorted := member
    rw [← sorted_rows, mem_sortBy] at sorted
    obtain ⟨entry, listed, rfl⟩ := List.mem_map.mp member
    have assigned : entry.1 ∈ plan.tasks := by
      rw [← @mem_sortBy _ _ _ (executionRank result)]
      exact List.fst_mem_of_mem_zipIdx listed
    refine ⟨entry.1.targetDrive, rfl, named _ assigned, ?_⟩
    exact (foldl_fillTarget_spec _ _ _).2 (.inr ⟨named _ assigned, _, sorted, rfl⟩)
  rw [chargeInOrder_eq_none targeted]
  constructor
  · intro fits earlier task later split
    have fit := fits _ _ _ task.targetDrive
      (chargedRows_split.mpr ⟨earlier, task, later, split, rfl, rfl, rfl⟩) rfl
    rw [chargedOn_chargedRows, remainingByDrive_getD] at fit
    exact fit
  · intro fits earlier row later label split there
    obtain ⟨before, task, after, ordered, rfl, rfl, rfl⟩ := chargedRows_split.mp split
    obtain rfl : task.targetDrive = label := Option.some.inj there
    rw [chargedOn_chargedRows, remainingByDrive_getD]
    exact fits before task after ordered

/-- Evidence that admits what Gate B counts of the tasks on every target. -/
def Admits (mode : CapacityMode) (tasks : List AssignedTask) (evidenceByDrive : List (String × Evidence)) :
    Prop :=
  ∀ task ∈ tasks, (requiredPeak mode tasks task.targetDrive : Int) ≤ admissibleOn evidenceByDrive task.targetDrive

/-- Approval counts no more of a task's drive than Gate B did. -/
def Agrees (files : List CatalogFile) (cfg : CompressionConfig) (mode : CapacityMode) (result : ReconcileResult)
    (plan : CapacityPlan) : Prop :=
  ∀ earlier task later, inExecutionOrder result plan.tasks = earlier ++ task :: later →
    approvalCharge files cfg earlier task ≤ requiredPeak mode plan.tasks task.targetDrive

/-- The evidence that has just the room that Gate B asks for. -/
def tightEvidence (mode : CapacityMode) (tasks : List AssignedTask) : List (String × Evidence) :=
  tasks.map fun task => (task.targetDrive, ⟨true, requiredPeak mode tasks task.targetDrive, none⟩)

theorem admissibleOn_tightEvidence {mode : CapacityMode} {tasks : List AssignedTask} {task : AssignedTask}
    (member : task ∈ tasks) :
    admissibleOn (tightEvidence mode tasks) task.targetDrive = requiredPeak mode tasks task.targetDrive := by
  obtain ⟨other, _, same, found⟩ := Dict.exists_lookup_of_record
    (List.Perm.refl (tightEvidence mode tasks)) member
  rw [admissibleOn, evidenceFor, Dict.getD_eq, found, same]
  rfl

theorem mem_of_split {result : ReconcileResult} {tasks earlier later : List AssignedTask} {task : AssignedTask}
    (split : inExecutionOrder result tasks = earlier ++ task :: later) : task ∈ tasks := by
  rw [← @mem_sortBy _ _ _ (executionRank result), ← inExecutionOrder, split]
  exact List.mem_append_right _ (List.mem_cons_self ..)

/-- Approval passes under all evidence that Gate B finds enough exactly when it counts no more. -/
theorem agrees_iff {files : List CatalogFile} {cfg : CompressionConfig} {mode : CapacityMode}
    {result : ReconcileResult} {plan : CapacityPlan} (named : ∀ task ∈ plan.tasks, task.targetDrive ≠ "") :
    (∀ evidenceByDrive, Admits mode plan.tasks evidenceByDrive →
      approvalShortfall result plan files cfg evidenceByDrive = none) ↔ Agrees files cfg mode result plan := by
  constructor
  · intro passes earlier task later split
    have tight : Admits mode plan.tasks (tightEvidence mode plan.tasks) :=
      fun other member => (admissibleOn_tightEvidence member).ge
    have fits := (approvalShortfall_eq_none named).mp (passes _ tight) earlier task later split
    rw [admissibleOn_tightEvidence (mem_of_split split)] at fits
    exact Int.ofNat_le.mp fits
  · intro agrees evidenceByDrive admits
    rw [approvalShortfall_eq_none named]
    intro earlier task later split
    exact (Int.ofNat_le.mpr (agrees earlier task later split)).trans (admits task (mem_of_split split))

section Inputs

variable (files : List CatalogFile) (u : Unicode) (input : PreviewInput) (label : String)

/-- The candidates of a requirement on a drive. -/
def candidatesOn (requirementId : String) : List Candidate :=
  ((input.solver u).candsOf requirementId).filter (·.targetDrive == label)

/-- The open requirements that a drive may take. -/
def openOn : List String :=
  (input.solver u).unsat.filter fun requirementId => !(candidatesOn u input label requirementId).isEmpty

/-- The workspace that approval attaches for a requirement. -/
def attachedFor (requirementId : String) : Nat :=
  attachedWorkspace files input.planner.budget.compression (repoOf requirementId)

/-- Of every copy that may go to the drive, Gate B counts what approval counts. -/
def Counted : Prop :=
  ∀ requirementId ∈ openOn u input label, ∀ c ∈ candidatesOn u input label requirementId,
    c.budget.guaranteedDurable ≤ (taskBudget c).durableFor input.capacityMode ∧
      attachedFor files input requirementId ≤ (taskBudget c).workspaceFor input.capacityMode

/-- The drive has room for all that approval may count there. -/
def Roomy : Prop :=
  ((total (fun requirementId => peak (·.budget.guaranteedDurable) (candidatesOn u input label requirementId))
      (openOn u input label) +
    peak (attachedFor files input) (openOn u input label) : Nat) : Int) ≤
      admissibleOn input.evidenceByDrive label

instance : Decidable (Counted files u input label) := inferInstanceAs (Decidable (∀ _ ∈ _, ∀ _ ∈ _, _ ∧ _))

instance : Decidable (Roomy files u input label) := inferInstanceAs (Decidable (_ ≤ _))

end Inputs

section Accepting

variable {u : Unicode} {pyHash : KeyPart → HashValue} {input : PreviewInput} {files : List CatalogFile}

/-- A task carries the figures of a candidate of its requirement on its drive. -/
structure Carries (u : Unicode) (input : PreviewInput) (task : AssignedTask) (c : Candidate) : Prop where
  isOpen : task.requirementId ∈ openOn u input task.targetDrive
  listed : c ∈ candidatesOn u input task.targetDrive task.requirementId
  repoId : task.repoId = repoOf task.requirementId
  guaranteed : task.budget.guaranteedDurable = c.budget.guaranteedDurable
  durable : ∀ mode, task.budget.durableFor mode = (taskBudget c).durableFor mode
  workspace : ∀ mode, task.budget.workspaceFor mode = (taskBudget c).workspaceFor mode

theorem carries_project {asn : CanonicalAssignment} {t : AssignmentTask}
    (valid : ValidAssignment (input.solver u) (input.solver u).executableFree asn.tasks)
    (assigned : t ∈ asn.tasks) :
    ∃ c, Carries u input (projectTask (input.solver u).candidates t) c := by
  obtain ⟨c, listed, found, made, _⟩ := constructed_solver.matchCandidate_eq valid assigned
  have built : Constructed u input.planner (input.solver u) := constructed_solver
  have filed : c.requirementId = t.requirementId := built.filed.requirementId listed
  have target : c.targetDrive = t.targetDrive := by rw [made]; rfl
  have here : c ∈ candidatesOn u input t.targetDrive t.requirementId :=
    List.mem_filter.mpr ⟨listed, beq_iff_eq.mpr target⟩
  have isOpen : t.requirementId ∈ openOn u input t.targetDrive := by
    refine List.mem_filter.mpr ⟨?_, by simpa using List.ne_nil_of_mem here⟩
    rw [← valid.ids]
    exact List.mem_map_of_mem assigned
  obtain ⟨_, budget⟩ := projectTask_budget found
  refine ⟨c, isOpen, here, ?_, ?_, projectTask_durableFor found, projectTask_workspaceFor found⟩
  · change (projectTask (input.solver u).candidates t).budget.repoId = repoOf t.requirementId
    rw [budget, ← filed]
    rfl
  · rw [budget]
    rfl

/-- Every task of a feasible plan carries a candidate's figures, and no requirement has two. -/
theorem planned (feasible : (preview u pyHash input).capacity.feasible = true) :
    (∀ task ∈ (preview u pyHash input).capacity.tasks, ∃ c, Carries u input task c) ∧
      ((preview u pyHash input).capacity.tasks.map AssignedTask.requirementId).Nodup ∧
      ∀ task ∈ (preview u pyHash input).capacity.tasks, task.targetDrive ∈ input.drives.map PlanDrive.label := by
  obtain ⟨fresh, asn, tasks, valid⟩ := preview_feasible feasible
  rw [tasks, projectAssignedTasks]
  refine ⟨fun task member => ?_, ?_, fun task member => ?_⟩
  · obtain ⟨t, assigned, rfl⟩ := List.mem_map.mp (mem_sortBy.mp member)
    exact carries_project valid assigned
  · rw [((sortBy_perm _ _).map _).nodup_iff, List.map_map]
    change (asn.tasks.map AssignmentTask.requirementId).Nodup
    rw [valid.ids]
    exact SolverInput.nodup_unsat constructed_solver.uniqueIds
  · obtain ⟨t, assigned, rfl⟩ := List.mem_map.mp (mem_sortBy.mp member)
    exact target_planned fresh valid assigned

/-- Approval counts of a drive no more than the durable bytes of all its tasks and a workspace. -/
theorem approvalCharge_le {cfg : CompressionConfig} {result : ReconcileResult} {plan : CapacityPlan}
    {earlier later : List AssignedTask} {task : AssignedTask}
    (split : inExecutionOrder result plan.tasks = earlier ++ task :: later) :
    approvalCharge files cfg earlier task ≤
      guaranteedOn plan.tasks task.targetDrive + attachedWorkspace files cfg task.repoId := by
  have first : (earlier ++ [task]).Sublist (earlier ++ task :: later) :=
    List.Sublist.append_left (List.singleton_sublist.mpr (List.mem_cons_self ..)) _
  have durable : guaranteedOn earlier task.targetDrive + task.budget.guaranteedDurable ≤
      guaranteedOn plan.tasks task.targetDrive := by
    have counted := total_sublist (f := (·.budget.guaranteedDurable))
      (first.filter (·.targetDrive = task.targetDrive))
    rw [← split, inExecutionOrder, total_perm ((sortBy_perm _ _).filter _)] at counted
    simpa [guaranteedOn] using counted
  exact Nat.add_le_add_right durable _

/-- Where Gate B counts what approval counts, it counts no less. -/
theorem Counted.charge {earlier later : List AssignedTask} {task : AssignedTask}
    (feasible : (preview u pyHash input).capacity.feasible = true)
    (split : inExecutionOrder (preview u pyHash input).graph (preview u pyHash input).capacity.tasks =
      earlier ++ task :: later)
    (counted : Counted files u input task.targetDrive) :
    approvalCharge files input.planner.budget.compression earlier task ≤
      requiredPeak input.capacityMode (preview u pyHash input).capacity.tasks task.targetDrive := by
  obtain ⟨carried, _, _⟩ := planned feasible
  have durable : guaranteedOn (preview u pyHash input).capacity.tasks task.targetDrive ≤
      total (·.budget.durableFor input.capacityMode)
        ((preview u pyHash input).capacity.tasks.filter (·.targetDrive == task.targetDrive)) := by
    simp only [guaranteedOn, ← beq_eq_decide]
    apply total_mono
    intro other listed
    obtain ⟨among, here⟩ := List.mem_filter.mp listed
    obtain ⟨c, carries⟩ := carried other among
    rw [carries.guaranteed, carries.durable]
    have same : other.targetDrive = task.targetDrive := beq_iff_eq.mp here
    exact (counted _ (same ▸ carries.isOpen) c (same ▸ carries.listed)).1
  have workspace : attachedWorkspace files input.planner.budget.compression task.repoId ≤
      peak (·.budget.workspaceFor input.capacityMode)
        ((preview u pyHash input).capacity.tasks.filter (·.targetDrive == task.targetDrive)) := by
    obtain ⟨c, carries⟩ := carried task (mem_of_split split)
    have own := (counted _ carries.isOpen c carries.listed).2
    rw [attachedFor, ← carries.repoId, ← carries.workspace] at own
    exact own.trans (le_peak_of_mem (f := fun task : AssignedTask => task.budget.workspaceFor input.capacityMode)
      (List.mem_filter.mpr ⟨mem_of_split split, beq_self_eq_true _⟩))
  exact (approvalCharge_le split).trans (Nat.add_le_add durable workspace)

/-- A drive with room for all that may go there has room for what approval counts. -/
theorem Roomy.charge {earlier later : List AssignedTask} {task : AssignedTask}
    (feasible : (preview u pyHash input).capacity.feasible = true)
    (split : inExecutionOrder (preview u pyHash input).graph (preview u pyHash input).capacity.tasks =
      earlier ++ task :: later)
    (roomy : Roomy files u input task.targetDrive) :
    (approvalCharge files input.planner.budget.compression earlier task : Int) ≤
      admissibleOn input.evidenceByDrive task.targetDrive := by
  obtain ⟨carried, distinct, _⟩ := planned feasible
  let largest (requirementId : String) : Nat :=
    peak (·.budget.guaranteedDurable) (candidatesOn u input task.targetDrive requirementId)
  have durable : guaranteedOn (preview u pyHash input).capacity.tasks task.targetDrive ≤
      total largest (openOn u input task.targetDrive) := by
    have each : guaranteedOn (preview u pyHash input).capacity.tasks task.targetDrive ≤
        total (fun other => largest other.requirementId)
          ((preview u pyHash input).capacity.tasks.filter (·.targetDrive = task.targetDrive)) := by
      apply total_mono
      intro other listed
      obtain ⟨among, here⟩ := List.mem_filter.mp listed
      obtain ⟨c, carries⟩ := carried other among
      rw [carries.guaranteed]
      have same : other.targetDrive = task.targetDrive := of_decide_eq_true here
      exact le_peak_of_mem (f := fun c : Candidate => c.budget.guaranteedDurable) (same ▸ carries.listed)
    rw [← total_map (f := largest) AssignedTask.requirementId] at each
    refine each.trans (total_subperm (List.subperm_of_subset ?_ ?_))
    · exact distinct.sublist (List.filter_sublist.map _)
    · intro requirementId listed
      obtain ⟨other, kept, rfl⟩ := List.mem_map.mp listed
      obtain ⟨among, here⟩ := List.mem_filter.mp kept
      obtain ⟨c, carries⟩ := carried other among
      have same : other.targetDrive = task.targetDrive := of_decide_eq_true here
      exact same ▸ carries.isOpen
  have workspace : attachedWorkspace files input.planner.budget.compression task.repoId ≤
      peak (attachedFor files input) (openOn u input task.targetDrive) := by
    obtain ⟨c, carries⟩ := carried task (mem_of_split split)
    rw [carries.repoId]
    exact le_peak_of_mem (f := attachedFor files input) carries.isOpen
  have charge : approvalCharge files input.planner.budget.compression earlier task ≤ _ := approvalCharge_le split
  have charged := charge.trans (Nat.add_le_add durable workspace)
  exact (Int.ofNat_le.mpr charged).trans roomy

end Accepting

section Partial

/-- A repository whose only weight file is already on the drive; a small text file is missing. -/
def partialManifests : List (String × List ManifestFile) :=
  [("m", [⟨"big.safetensors", 100, some "aa", .compress⟩, ⟨"note.txt", 5, none, .raw⟩])]

def partialDrive : DriveFact := ⟨"alpha", "primary", false, 200, none, none, none, "active", "enabled"⟩

def partialInput : PreviewInput where
  planner :=
    { selection := ["m"]
      manifests := partialManifests
      uniqueRepos := by decide
      numcopies := []
      drives := [partialDrive]
      archived := [⟨"m", "alpha", "big.safetensors", some "aa", some 100, some 60, none, true⟩]
      budget := ⟨⟨fun _ => true, true, true⟩, ManifestFile.sizeBytes⟩ }
  policyErrors := []
  drives := [⟨partialDrive, 200, 20, by decide⟩]
  capacityMode := .guaranteed
  evidenceByDrive := [("alpha", ⟨true, 10, some 180⟩)]
  bounds := ⟨200000, 1500⟩
  preference := none

def partialFiles : List CatalogFile :=
  [⟨"m", "big.safetensors", some 100, "safetensors"⟩, ⟨"m", "note.txt", some 5, "aux"⟩]

/-- Different values for the copies of the two repositories on the two drives. -/
def copyHash (part : KeyPart) : HashValue :=
  match part.requirementId, part.targetDrive with
  | "primary:m", "alpha" => 1
  | "primary:m", _ => 2
  | _, "alpha" => 4
  | _, _ => 8

/-- Another drive, for a second repository. The first has room for the workspace too. -/
def roomyInput : PreviewInput :=
  { partialInput with
    planner :=
      { partialInput.planner with
        selection := ["m", "n"]
        manifests := partialManifests ++ [("n", [⟨"weights.gguf", 7, none, .raw⟩])]
        uniqueRepos := by decide
        drives := [partialDrive, { partialDrive with driveLabel := "beta" }] }
    drives := [⟨partialDrive, 200, 20, by decide⟩,
      ⟨{ partialDrive with driveLabel := "beta" }, 200, 20, by decide⟩]
    evidenceByDrive := [("alpha", ⟨true, 112, some 180⟩), ("beta", ⟨true, 7, some 180⟩)] }

end Partial

end Modelark.Proposal
