import Modelark.Placement.Construction
import Modelark.Placement.Guarantees

/-!
# Capacity planning

The shell around Gate B: admission evidence becomes a solver input, and the improved assignment is
projected back onto tasks with the budgets of the candidates they came from.
-/

namespace Modelark.Placement

open Modelark.Archive Library Planning

inductive CapacityMode where
  | guaranteed
  | compressionAware
  deriving Repr, DecidableEq

def CapacityMode.value : CapacityMode → String
  | .guaranteed => "guaranteed"
  | .compressionAware => "compression_aware"

/-- One admission-evidence record; the safety floor is already subtracted. -/
structure Evidence where
  executable : Bool
  admissibleFree : Int
  optimisticUsableMax : Option Int
  deriving Repr, DecidableEq

def unknownEvidence : Evidence := ⟨false, 0, none⟩

def evidenceFor (evidenceByDrive : List (String × Evidence)) (label : String) : Evidence :=
  (Dict.ofPairs evidenceByDrive).getD label unknownEvidence

/-- A member of the plan. The catalog refuses blank labels. -/
structure PlanDrive where
  fact : DriveFact
  nominalCapacity : Nat
  safetyFloor : Nat
  named : fact.driveLabel ≠ ""

def PlanDrive.label (drive : PlanDrive) : String := drive.fact.driveLabel

structure TaskBudget where
  taskId : String
  requirementId : String
  repoId : String
  kind : TaskKind
  targetDrive : String
  sourceDrive : Option String
  missingFiles : List String
  guaranteedDurable : Nat
  expectedDurable : Nat
  workspacePeakGuaranteed : Nat
  workspacePeakExpected : Nat
  evidence : String
  deriving Repr, DecidableEq

structure AssignedTask where
  taskId : String
  requirementId : String
  repoId : String
  kind : TaskKind
  targetDrive : String
  sourceDrive : Option String
  dependsOnRequirement : Option String
  budget : TaskBudget
  deriving Repr, DecidableEq

/-- `requirement_id.split(":", 1)[1]`. -/
def repoOf (requirementId : String) : String :=
  String.ofList ((requirementId.toList.dropWhile (· ≠ ':')).drop 1)

def taskId (kind : TaskKind) (requirementId : String) : String :=
  kind.value ++ ":" ++ requirementId

/-- What reconciliation hands to capacity planning. `blocking` are the codes of its blocking
    diagnostics. -/
structure ReconcileResult where
  manifests : List (String × List ManifestFile)
  requirements : List CopyRequirement
  candidates : CandidateSet
  matched : List (String × String)
  blocking : List String

section Reconcile

variable (u : Unicode) (inp : PlannerInput)

def rankSatisfyingDrive (kind : RequirementKind) (drive : DriveFact) :
    Nat ×ₗ Int ×ₗ String :=
  match kind with
  | .protectedReplica => toLex (0, toLex ((drive.capacityBytes : Int), drive.driveLabel))
  | _ => toLex (if drive.raidBacked then 0 else 1,
      toLex (-(drive.capacityBytes : Int), drive.driveLabel))

/-- The copy shown for every satisfied requirement. -/
def matchesOf : List (String × String) :=
  inp.requirements.desired.filterMap fun req =>
    let drives := (inp.complete u req).filterMap fun held => inp.byLabel[held.driveLabel]?
    (sortBy (rankSatisfyingDrive req.kind) drives).head?.map fun drive =>
      (req.requirementId, drive.driveLabel)

def blockingOf (cset : CandidateSet) (policyErrors : List String) : List String :=
  (policyErrors.map fun _ => "MANIFEST_POLICY") ++
    cset.blocked.map fun item =>
      if item.reason = "no_eligible_tier" then "TARGET_TIER_MISSING" else "UNPROVEN_PROVENANCE"

/-- Reconciliation of one captured input; `policyErrors` are the repositories without a manifest. -/
def reconcile (policyErrors : List String) : ReconcileResult where
  manifests := inp.manifests
  requirements := inp.requirements.desired
  candidates := inp.candidates u inp.requirements
  matched := sortBy toLex (matchesOf u inp)
  blocking := blockingOf (inp.candidates u inp.requirements) policyErrors

end Reconcile

section SolverInput

variable (preference : Option SuccessorPreference) (drive : PlanDrive) (ev : Evidence)

/-- A successor drive is used up to its lane. -/
def capToLane (free : Int) : Int :=
  match preference with
  | some pref => if drive.label = pref.successorDrive then min free pref.laneBytes else free
  | none => free

def executableFree : Int :=
  capToLane preference drive (if ev.executable then ev.admissibleFree else 0)

def usableMax : Option Int :=
  let known := match ev.optimisticUsableMax with
    | some most => some most
    | none =>
        if ev.executable then some (max 0 ((drive.nominalCapacity : Int) - drive.safetyFloor))
        else none
  known.map (capToLane preference drive)

end SolverInput

def buildSolverInput (result : ReconcileResult) (drives : List PlanDrive) (mode : CapacityMode)
    (evidenceByDrive : List (String × Evidence)) (bounds : SolverBounds)
    (preference : Option SuccessorPreference) : SolverInput where
  graph := ⟨result.requirements⟩
  candidates := result.candidates
  drives := drives.map PlanDrive.fact
  executableBudget := sortBy Prod.fst (drives.map fun drive =>
    (drive.label, executableFree preference drive (evidenceFor evidenceByDrive drive.label)))
  maxUsableForEpoch := sortBy Prod.fst (drives.map fun drive =>
    (drive.label, usableMax preference drive (evidenceFor evidenceByDrive drive.label)))
  driveEvidence := sortBy Prod.fst (drives.map fun drive =>
    (drive.label, ⟨(evidenceFor evidenceByDrive drive.label).executable⟩))
  capacityMode := mode.value
  bounds := bounds
  preference := preference

/-- Requirements with a candidate whose target is no longer an active, enabled plan member. -/
def staleTargets (result : ReconcileResult) (drives : List PlanDrive) : List String :=
  let usable := (drives.filter fun drive => isPlaceable drive.fact).map PlanDrive.label
  (result.candidates.byRequirement.filter fun item =>
    !item.2.isEmpty && !item.2.all fun c => usable.contains c.targetDrive).map Prod.fst

def taskBudget (c : Candidate) : TaskBudget where
  taskId := taskId c.taskKind c.requirementId
  requirementId := c.requirementId
  repoId := repoOf c.requirementId
  kind := c.taskKind
  targetDrive := c.targetDrive
  sourceDrive := match c.source with
    | some (.identity source) => some source.driveLabel
    | _ => none
  missingFiles := c.missingFiles.map ManifestFile.rfilename
  guaranteedDurable := c.budget.guaranteedDurable
  expectedDurable := c.budget.expectedDurable
  workspacePeakGuaranteed := c.budget.workspacePeakGuaranteed
  workspacePeakExpected := c.budget.workspacePeakExpected
  evidence := match c.budget.fileBudgets with
    | [] => "estimate"
    | first :: _ => first.evidence

/-- The candidate's source is the one the task was resolved to. -/
def agreesWith (task : AssignmentTask) (c : Candidate) : Bool :=
  match c.source, task.source with
  | some (.identity source), some resolved => source == resolved
  | some (.pendingHome _), some resolved =>
      resolved.annexKey.isNone && resolved.origSha256.isNone
  | none, none => true
  | _, _ => false

/-- The candidate that produced an assignment task. -/
def matchCandidate (cset : CandidateSet) (task : AssignmentTask) : Option Candidate :=
  match cset.byRequirement.find? (·.1 == task.requirementId) with
  | none => none
  | some item =>
      match item.2.filter (·.targetDrive == task.targetDrive) with
      | [] => none
      | [only] => some only
      | first :: others => (first :: others).find? (agreesWith task) <|> some first

def projectTask (cset : CandidateSet) (task : AssignmentTask) : AssignedTask :=
  let budget : TaskBudget :=
    match matchCandidate cset task with
    | none =>
        { taskId := taskId task.taskKind task.requirementId
          requirementId := task.requirementId
          repoId := repoOf task.requirementId
          kind := task.taskKind
          targetDrive := task.targetDrive
          sourceDrive := task.source.map SourceIdentity.driveLabel
          missingFiles := task.missingFiles
          guaranteedDurable := task.guaranteedDurable
          expectedDurable := task.expectedDurable
          workspacePeakGuaranteed := task.workspacePeakGuaranteed
          workspacePeakExpected := task.workspacePeakExpected
          evidence := task.budgetEvidence }
    | some c =>
        match task.source, c.source with
        | some source, _ => { taskBudget c with sourceDrive := some source.driveLabel }
        | none, some (.pendingHome _) => { taskBudget c with sourceDrive := none }
        | none, _ => taskBudget c
  { taskId := budget.taskId
    requirementId := task.requirementId
    repoId := budget.repoId
    kind := task.taskKind
    targetDrive := task.targetDrive
    sourceDrive := budget.sourceDrive
    dependsOnRequirement := task.dependsOnRequirement
    budget := budget }

def projectAssignedTasks (assignment : CanonicalAssignment) (cset : CandidateSet) :
    List AssignedTask :=
  sortBy (fun task => toLex (task.targetDrive, toLex (task.kind.value, task.requirementId)))
    (assignment.tasks.map (projectTask cset))

structure CapacityPlan where
  mode : CapacityMode
  tasks : List AssignedTask
  blockingDiagnostics : List String
  staleTargets : List String
  gateBCode : GateBCode
  derivationMode : Option DerivationMode

def CapacityPlan.feasible (plan : CapacityPlan) : Bool :=
  plan.gateBCode == .feasible && plan.blockingDiagnostics.isEmpty && plan.staleTargets.isEmpty

/-- Every other verdict of Gate B has no tasks, and failures that only describe it. -/
def planCapacity (pyHash : KeyPart → HashValue) (result : ReconcileResult)
    (drives : List PlanDrive) (mode : CapacityMode) (evidenceByDrive : List (String × Evidence))
    (bounds : SolverBounds) (preference : Option SuccessorPreference) : CapacityPlan :=
  let solver := buildSolverInput result drives mode evidenceByDrive bounds preference
  let stale := staleTargets result drives
  let refused (code : GateBCode) : CapacityPlan := ⟨mode, [], result.blocking, stale, code, none⟩
  if !stale.isEmpty then refused .infeasibleUnderAdmissionBudget
  else
    let gate := gateB pyHash solver
    match gate.code, gate.assignment with
    | .feasible, some first =>
        let improved := improve pyHash solver first fun _ => false
        { mode := mode
          tasks := projectAssignedTasks improved.assignment result.candidates
          blockingDiagnostics := result.blocking
          staleTargets := stale
          gateBCode := .feasible
          derivationMode := some improved.derivationMode }
    | code, _ => refused code

/-- One consistent catalog and evidence snapshot, with the policy of one planning run. -/
structure PreviewInput where
  planner : PlannerInput
  policyErrors : List String
  drives : List PlanDrive
  capacityMode : CapacityMode
  evidenceByDrive : List (String × Evidence)
  bounds : SolverBounds
  preference : Option SuccessorPreference

structure PlanningResult where
  graph : ReconcileResult
  capacity : CapacityPlan

def PreviewInput.solver (u : Unicode) (input : PreviewInput) : SolverInput :=
  buildSolverInput (reconcile u input.planner input.policyErrors) input.drives input.capacityMode
    input.evidenceByDrive input.bounds input.preference

/-- `planning.preview`. -/
def preview (u : Unicode) (pyHash : KeyPart → HashValue) (input : PreviewInput) : PlanningResult :=
  let graph := reconcile u input.planner input.policyErrors
  { graph := graph
    capacity := planCapacity pyHash graph input.drives input.capacityMode input.evidenceByDrive
      input.bounds input.preference }

end Modelark.Placement
