import Modelark.Library.Tally
import Modelark.Placement.Types

/-!
# The search node

The mutable partial assignment of the search, with its undo list, and what is read from it: whether
a candidate fits, which source it resolves to, the assignment it stands for and its score.
-/

namespace Modelark.Placement

open Library Planning

/-- The part of the state hash that one assigned candidate contributes. -/
structure KeyPart where
  requirementId : String
  targetDrive : String
  source : SourceKey
  taskKind : String
  deriving DecidableEq

/-- A value of the built-in `hash`. -/
abbrev HashValue := BitVec 64

/-- What `push` saves for `pop`. -/
structure UndoEntry where
  requirementId : String
  label : String
  oldDurable : Nat
  oldWorkspace : Nat
  partHash : HashValue
  movement : Nat
  deriving DecidableEq

/-- A search node. The two load dictionaries are only read through `.get(label, 0)` and are kept as
    functions with default 0. -/
structure Partial where
  assigned : Dict String Candidate
  durableLoad : String → Nat
  workspacePeak : String → Nat
  free0 : Dict String Int
  undo : List UndoEntry
  stateHash : HashValue
  movement : Nat
  usedDrives : Dict String Nat

/-- The task of one assigned candidate with its resolved source. -/
def taskOf (mode rid : String) (c : Candidate) (source : Option SourceIdentity) :
    AssignmentTask where
  requirementId := rid
  taskKind := c.taskKind
  targetDrive := c.targetDrive
  source := source
  dependsOnRequirement := c.dependsOnRequirement
  movementCost := c.movementCost.transferBytes
  durable := candDurable c mode
  workspace := candWorkspace c mode
  missingFiles := c.missingFiles.map ManifestFile.rfilename
  reusedFiles := c.reusedFiles.map ReusableFile.rfilename
  guaranteedDurable := c.budget.guaranteedDurable
  expectedDurable := c.budget.expectedDurable
  workspacePeakGuaranteed := c.budget.workspacePeakGuaranteed
  workspacePeakExpected := c.budget.workspacePeakExpected
  budgetEvidence := match c.budget.fileBudgets with
    | [] => "estimate"
    | first :: _ => first.evidence

namespace Partial

def init (free0 : Dict String Int) : Partial where
  assigned := ∅
  durableLoad := fun _ => 0
  workspacePeak := fun _ => 0
  free0 := free0
  undo := []
  stateHash := 0
  movement := 0
  usedDrives := ∅

variable (node : Partial)

def fits (c : Candidate) (mode : String) : Bool :=
  let newD := node.durableLoad c.targetDrive + candDurable c mode
  let newW := max (node.workspacePeak c.targetDrive) (candWorkspace c mode)
  ((newD + newW : Nat) : Int) ≤ node.free0.getD c.targetDrive 0

def resolveSource (c : Candidate) : Option SourceIdentity :=
  match c.source with
  | some (.identity source) => some source
  | some (.pendingHome home) =>
      (node.assigned[home]?).map fun homeC => ⟨homeC.targetDrive, none, none⟩
  | none => none

def srcKeyFor (c : Candidate) : SourceKey :=
  match c.source with
  | some (.pendingHome home) =>
      match node.assigned[home]? with
      | some homeC => identityKey ⟨homeC.targetDrive, none, none⟩
      | none => sourceKey c.source
  | _ => sourceKey c.source

def push (pyHash : KeyPart → HashValue) (mode : String) (c : Candidate) : Partial :=
  let lab := c.targetDrive
  let oldD := node.durableLoad lab
  let oldW := node.workspacePeak lab
  let mv := c.movementCost.transferBytes
  let assigned := node.assigned.insert c.requirementId c
  let partHash := pyHash
    ⟨c.requirementId, lab, srcKeyFor { node with assigned := assigned } c, c.taskKind.value⟩
  { assigned := assigned
    durableLoad := Function.update node.durableLoad lab (oldD + candDurable c mode)
    workspacePeak := Function.update node.workspacePeak lab (max oldW (candWorkspace c mode))
    free0 := node.free0
    undo := ⟨c.requirementId, lab, oldD, oldW, partHash, mv⟩ :: node.undo
    stateHash := node.stateHash ^^^ partHash
    movement := node.movement + mv
    usedDrives := node.usedDrives.insert lab (node.usedDrives.getD lab 0 + 1) }

def pop : Partial :=
  match node.undo with
  | [] => node
  | entry :: rest =>
      let count := node.usedDrives.getD entry.label 1 - 1
      { assigned := node.assigned.erase entry.requirementId
        durableLoad := Function.update node.durableLoad entry.label entry.oldDurable
        workspacePeak := Function.update node.workspacePeak entry.label entry.oldWorkspace
        free0 := node.free0
        undo := rest
        stateHash := node.stateHash ^^^ entry.partHash
        movement := node.movement - entry.movement
        usedDrives :=
          if count = 0 then node.usedDrives.erase entry.label
          else node.usedDrives.insert entry.label count }

/-- A replica must not share a failure domain with its home, assigned or named by its source. -/
def domainOk (c : Candidate) (driveMap : Dict String DriveFact)
    (reqById : Dict String CopyRequirement) : Bool :=
  match reqById[c.requirementId]? with
  | none => true
  | some req =>
      if req.kind ≠ .protectedReplica then true
      else
        let homeDrive := match c.source with
          | some (.identity source) => some source.driveLabel
          | some (.pendingHome home) => (node.assigned[home]?).map Candidate.targetDrive
          | none => none
        match homeDrive with
        | none => true
        | some label =>
            match driveMap[label]?, driveMap[c.targetDrive]? with
            | some hd, some rd => !sameFailureDomain hd rd
            | _, _ => true

def toTask (mode : String) (item : String × Candidate) : AssignmentTask :=
  taskOf mode item.1 item.2 (node.resolveSource item.2)

def toAssignment (mode : String) : CanonicalAssignment where
  tasks := node.assigned.toList.map (node.toTask mode)
  remainingFree := node.free0.toList.map fun (lab, free) =>
    (lab, free - node.durableLoad lab - node.workspacePeak lab)

end Partial

section Scores

def sortDescending (xs : List Int) : List Int :=
  xs.insertionSort (· ≥ ·)

def canonEntry (rid : String) (kind : TaskKind) (target : String) (source : SourceKey)
    (missing : List String) : CanonEntry :=
  toLex (rid, toLex (kind.value, toLex (target, toLex (source, missing))))

/-- `baseline.get(rid) not in (None, target)`. -/
def movedFrom (baseline : Dict String String) (rid target : String) : Bool :=
  match baseline[rid]? with
  | none => false
  | some label => label != target

def SuccessorPreference.baseline (preference : SuccessorPreference) : Dict String String :=
  Dict.ofPairs preference.baselineTargets

/-- Score of the current partial, from its incremental loads. -/
def Partial.scorePartial (node : Partial) (mode : String) (candTargetList : List String)
    (preference : Option SuccessorPreference) : Score where
  movement := node.movement
  preference := preference.map fun pref =>
    let changed := (node.assigned.toList.filter fun (rid, c) =>
      movedFrom pref.baseline rid c.targetDrive).map Prod.snd
    { gap := max 0 (pref.laneBytes - node.durableLoad pref.successorDrive)
      changed := changed.length
      changedBytes := total (candDurable · mode) changed }
  freeVec := sortDescending (candTargetList.map fun lab =>
    node.free0.getD lab 0 - node.durableLoad lab - node.workspacePeak lab)
  idle := candTargetList.length - node.usedDrives.size
  canon := node.assigned.toList.map fun (rid, c) =>
    canonEntry rid c.taskKind c.targetDrive
      (sourceKey ((node.resolveSource c).map Source.identity))
      (c.missingFiles.map ManifestFile.rfilename)

/-- `loads_d[lab]`. -/
def durableOn (tasks : List AssignmentTask) (lab : String) : Nat :=
  total AssignmentTask.durable (tasks.filter (·.targetDrive == lab))

/-- `loads_w[lab]`. -/
def workspaceOn (tasks : List AssignmentTask) (lab : String) : Nat :=
  peak AssignmentTask.workspace (tasks.filter (·.targetDrive == lab))

/-- Score of an assignment, recomputed from its tasks. -/
def score (assignment : CanonicalAssignment) (free0 : Dict String Int)
    (candidateTargets : List String) (preference : Option SuccessorPreference) : Score :=
  let used := assignment.tasks.map AssignmentTask.targetDrive
  { movement := total AssignmentTask.movementCost assignment.tasks
    preference := preference.map fun pref =>
      let changed := assignment.tasks.filter fun t =>
        movedFrom pref.baseline t.requirementId t.targetDrive
      { gap := max 0 (pref.laneBytes - durableOn assignment.tasks pref.successorDrive)
        changed := changed.length
        changedBytes := total AssignmentTask.durable changed }
    freeVec := sortDescending ((sortedSet candidateTargets).map fun lab =>
      free0.getD lab 0 - durableOn assignment.tasks lab - workspaceOn assignment.tasks lab)
    idle := ((sortedSet candidateTargets).filter (· ∉ used)).length
    canon := (sortBy AssignmentTask.requirementId assignment.tasks).map fun t =>
      canonEntry t.requirementId t.taskKind t.targetDrive
        (sourceKey (t.source.map Source.identity)) t.missingFiles }

abbrev ScoreKey := Nat ×ₗ List Int ×ₗ List Int ×ₗ Int ×ₗ List CanonEntry

def PreferenceScore.key (preference : PreferenceScore) : List Int :=
  [preference.gap, preference.changed, preference.changedBytes]

/-- Lexicographic minimization key. -/
def scoreKey (score : Score) : ScoreKey :=
  toLex (score.movement, toLex ((score.preference.map PreferenceScore.key).getD [],
    toLex (score.freeVec.map (- ·), toLex (score.idle, score.canon))))

end Scores

end Modelark.Placement
