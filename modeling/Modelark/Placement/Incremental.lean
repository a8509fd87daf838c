import Modelark.Placement.Optimality

/-!
# Undoing the search node

The search node with its two load dictionaries as the source keeps them. Every reader takes an
absent load as 0, and `pop` drops an entry it would have to set back to 0. Up to such entries, `pop`
restores the node that the matching `push` started from, and all that the node keeps incrementally
is what a recomputation from its assigned candidates gives.
-/

namespace Modelark.Placement

open Library Planning DepthFirst

/-- `_Partial`, with the load dictionaries as dictionaries. -/
structure DictPartial where
  assigned : Dict String Candidate
  durableLoad : Dict String Nat
  workspacePeak : Dict String Nat
  free0 : Dict String Int
  undo : List UndoEntry
  stateHash : HashValue
  movement : Nat
  usedDrives : Dict String Nat

/-- `loads.get(lab, 0)`. -/
def loadOf (loads : Dict String Nat) (lab : String) : Nat :=
  loads.getD lab 0

/-- Put a saved load back: an entry of 0 is removed. -/
def putBack (loads : Dict String Nat) (lab : String) (old : Nat) : Dict String Nat :=
  if old = 0 then loads.erase lab else loads.insert lab old

theorem loadOf_insert (loads : Dict String Nat) (lab : String) (load : Nat) :
    loadOf (loads.insert lab load) = Function.update (loadOf loads) lab load := by
  funext other
  by_cases here : lab = other
  · subst here
    rw [Function.update_self, loadOf, Dict.getD_eq, Dict.lookup_insert_self, Option.getD_some]
  · rw [Function.update_of_ne (Ne.symm here), loadOf, loadOf, Dict.getD_eq, Dict.getD_eq,
      Dict.lookup_insert_of_ne _ _ here]

theorem loadOf_putBack (loads : Dict String Nat) (lab : String) (old : Nat) :
    loadOf (putBack loads lab old) = Function.update (loadOf loads) lab old := by
  rw [putBack]
  split_ifs with zero
  · subst zero
    funext other
    rw [loadOf, Dict.getD_eq, Dict.lookup_erase]
    by_cases here : lab = other
    · subst here
      rw [Function.update_self, if_pos rfl, Option.getD_none]
    · rw [Function.update_of_ne (Ne.symm here), if_neg here, loadOf, Dict.getD_eq]
  · exact loadOf_insert loads lab old

namespace DictPartial

def init (free0 : Dict String Int) : DictPartial where
  assigned := ∅
  durableLoad := ∅
  workspacePeak := ∅
  free0 := free0
  undo := []
  stateHash := 0
  movement := 0
  usedDrives := ∅

variable (node : DictPartial)

/-- The node as its readers see it. -/
def view : Partial where
  assigned := node.assigned
  durableLoad := loadOf node.durableLoad
  workspacePeak := loadOf node.workspacePeak
  free0 := node.free0
  undo := node.undo
  stateHash := node.stateHash
  movement := node.movement
  usedDrives := node.usedDrives

def push (pyHash : KeyPart → HashValue) (mode : String) (c : Candidate) : DictPartial :=
  let lab := c.targetDrive
  let oldD := loadOf node.durableLoad lab
  let oldW := loadOf node.workspacePeak lab
  let mv := c.movementCost.transferBytes
  let assigned := node.assigned.insert c.requirementId c
  let source := { node.view with assigned := assigned }.srcKeyFor c
  let partHash := pyHash ⟨c.requirementId, lab, source, c.taskKind.value⟩
  { assigned := assigned
    durableLoad := node.durableLoad.insert lab (oldD + candDurable c mode)
    workspacePeak := node.workspacePeak.insert lab (max oldW (candWorkspace c mode))
    free0 := node.free0
    undo := ⟨c.requirementId, lab, oldD, oldW, partHash, mv⟩ :: node.undo
    stateHash := node.stateHash ^^^ partHash
    movement := node.movement + mv
    usedDrives := node.usedDrives.insert lab (node.usedDrives.getD lab 0 + 1) }

def pop : DictPartial :=
  match node.undo with
  | [] => node
  | entry :: rest =>
      let count := node.usedDrives.getD entry.label 1 - 1
      { assigned := node.assigned.erase entry.requirementId
        durableLoad := putBack node.durableLoad entry.label entry.oldDurable
        workspacePeak := putBack node.workspacePeak entry.label entry.oldWorkspace
        free0 := node.free0
        undo := rest
        stateHash := node.stateHash ^^^ entry.partHash
        movement := node.movement - entry.movement
        usedDrives :=
          if count = 0 then node.usedDrives.erase entry.label
          else node.usedDrives.insert entry.label count }

@[simp] theorem view_init (free0 : Dict String Int) : (init free0).view = Partial.init free0 := by
  have empty : loadOf ∅ = fun _ => 0 := by
    funext lab
    rw [loadOf, Dict.getD_eq, Dict.lookup_empty, Option.getD_none]
  rw [view, init, Partial.init, empty]

@[simp] theorem view_push (pyHash : KeyPart → HashValue) (mode : String) (c : Candidate) :
    (node.push pyHash mode c).view = node.view.push pyHash mode c := by
  rw [view, push, Partial.push, Partial.mk.injEq]
  exact ⟨rfl, loadOf_insert .., loadOf_insert .., rfl, rfl, rfl, rfl, rfl⟩

@[simp] theorem view_pop : node.pop.view = node.view.pop := by
  rw [pop, Partial.pop]
  change view _ = match node.undo with | [] => _ | entry :: rest => _
  cases node.undo with
  | nil => rfl
  | cons entry rest =>
      rw [view, Partial.mk.injEq]
      exact ⟨rfl, loadOf_putBack .., loadOf_putBack .., rfl, rfl, rfl, rfl, rfl⟩

end DictPartial

/-- The candidates a node assigns, in requirement order. -/
def Partial.candidates (node : Partial) : List Candidate :=
  node.assigned.toList.map Prod.snd

/-- What the node keeps incrementally is what its assigned candidates give. -/
structure Partial.Recomputed (node : Partial) (pyHash : KeyPart → HashValue) (mode : String) :
    Prop where
  durableLoad : ∀ lab, node.durableLoad lab =
    total (candDurable · mode) (onDrive node.candidates lab)
  workspacePeak : ∀ lab, node.workspacePeak lab =
    peak (candWorkspace · mode) (onDrive node.candidates lab)
  movement : node.movement = total (fun c => c.movementCost.transferBytes) node.candidates
  /-- A drive without candidates has no count. -/
  usedDrives : ∀ lab, node.usedDrives[lab]? =
    if (onDrive node.candidates lab).length = 0 then none
    else some (onDrive node.candidates lab).length
  /-- Every source is resolved against all that is assigned. -/
  stateHash : node.stateHash = stateHashOf pyHash (node.candidates.map node.partFor)

/-- The search node after a sequence of pushes and pops, and the nodes that the pushes not yet
    undone started from, latest first. -/
inductive Visits (ctx : SearchContext) (pyHash : KeyPart → HashValue) (free0 : Dict String Int) :
    List DictPartial → DictPartial → Prop
  | start : Visits ctx pyHash free0 [] (.init free0)
  | push {saved node c} : Visits ctx pyHash free0 saved node → c ∈ ctx.expand node.view →
      Visits ctx pyHash free0 (node :: saved) (node.push pyHash ctx.mode c)
  | pop {saved before node} : Visits ctx pyHash free0 (before :: saved) node →
      Visits ctx pyHash free0 saved node.pop

section Paths

variable {ctx : SearchContext} {pyHash : KeyPart → HashValue} {free0 : Dict String Int}
  {saved : List DictPartial} {node : DictPartial}

/-- The earlier stages of a stack, latest first. -/
theorem tail_tails_cons (c : Candidate) (pushed : List Candidate) :
    (c :: pushed).tails.tail = pushed :: pushed.tails.tail := by
  cases pushed <;> rfl

/-- A node is read as the node of the pushes not yet undone, and so is every node saved. -/
theorem Visits.path (filed : ctx.Filed) (visits : Visits ctx pyHash free0 saved node) :
    ∃ pushed : List Candidate, (ctx.space pyHash free0).Reach pushed.reverse ∧
      node.view = ctx.node pyHash free0 pushed.reverse ∧
      saved.map DictPartial.view =
        pushed.tails.tail.map fun earlier => ctx.node pyHash free0 earlier.reverse := by
  induction visits with
  | start => exact ⟨[], .root, DictPartial.view_init free0, rfl⟩
  | @push saved node c _ among ih =>
      obtain ⟨pushed, reached, viewed, behind⟩ := ih
      rw [viewed] at among
      refine ⟨c :: pushed, ?_, ?_, ?_⟩
      · rw [List.reverse_cons]
        exact reached.snoc among
      · rw [DictPartial.view_push, viewed, List.reverse_cons, SearchContext.node_snoc]
      · rw [List.map_cons, viewed, behind, tail_tails_cons, List.map_cons]
  | @pop saved before node _ ih =>
      obtain ⟨pushed, reached, viewed, behind⟩ := ih
      cases pushed with
      | nil => cases behind
      | cons c pushed =>
          rw [List.reverse_cons] at reached viewed
          rw [tail_tails_cons, List.map_cons, List.map_cons] at behind
          refine ⟨pushed, reached.init.1, ?_, (List.cons.inj behind).2⟩
          rw [DictPartial.view_pop, viewed, SearchContext.node_snoc]
          exact (SearchContext.lawful filed).pop_push reached.init.1 reached.init.2

/-- A pop reads as the node that the matching push started from. -/
theorem Visits.view_pop {before : DictPartial} (filed : ctx.Filed)
    (visits : Visits ctx pyHash free0 (before :: saved) node) : node.pop.view = before.view := by
  obtain ⟨pushed, reached, viewed, behind⟩ := visits.path filed
  cases pushed with
  | nil => cases behind
  | cons c pushed =>
      rw [List.reverse_cons] at reached viewed
      rw [tail_tails_cons, List.map_cons, List.map_cons] at behind
      rw [(List.cons.inj behind).1, DictPartial.view_pop, viewed, SearchContext.node_snoc]
      exact (SearchContext.lawful filed).pop_push reached.init.1 reached.init.2

/-- A path of the search is visited, with one saved node for each of its choices. -/
theorem visits_of_reach {path : List Candidate} (reached : (ctx.space pyHash free0).Reach path) :
    ∃ saved node, Visits ctx pyHash free0 saved node ∧ node.view = ctx.node pyHash free0 path := by
  induction reached with
  | root => exact ⟨[], _, .start, DictPartial.view_init free0⟩
  | @snoc path c _ among ih =>
      obtain ⟨saved, node, visits, viewed⟩ := ih
      have choice : c ∈ ctx.expand node.view := by
        rw [viewed]
        exact among
      refine ⟨node :: saved, _, visits.push choice, ?_⟩
      rw [DictPartial.view_push, viewed, SearchContext.node_snoc]

theorem node_candidates_perm {path : List Candidate}
    (distinct : (path.map Candidate.requirementId).Nodup) :
    ((ctx.node pyHash free0 path).candidates).Perm path := by
  have snapshot : (ctx.node pyHash free0 path).assigned.toList.Perm _ :=
    SearchContext.snapshot_perm distinct
  have listed := snapshot.map Prod.snd
  rw [List.map_map] at listed
  simpa only [Partial.candidates, Function.comp_def, assignedPair, List.map_id'] using listed

end Paths

section Search

variable {inp : SolverInput} {pyHash : KeyPart → HashValue} {free0 : Dict String Int}
  {path : List Candidate}

theorem node_recomputed (filed : inp.Filed)
    (reached : ((inp.searchContext free0).space pyHash free0).Reach path) :
    ((inp.searchContext free0).node pyHash free0 path).Recomputed pyHash inp.capacityMode := by
  have distinct := (SearchContext.reach_path (filed_context filed) reached).1
  have same : ((inp.searchContext free0).node pyHash free0 path).candidates.Perm path :=
    node_candidates_perm distinct
  have sameOn : ∀ lab, (onDrive ((inp.searchContext free0).node pyHash free0 path).candidates
      lab).Perm (onDrive path lab) :=
    fun lab => same.filter _
  constructor
  case durableLoad =>
    intro lab
    rw [SearchContext.node_durableLoad, total_perm (sameOn lab)]
    rfl
  case workspacePeak =>
    intro lab
    rw [SearchContext.node_workspacePeak, peak_perm (sameOn lab)]
    rfl
  case movement => rw [SearchContext.node_movement, total_perm same]
  case usedDrives =>
    intro lab
    rw [SearchContext.node_usedDrives, (sameOn lab).length_eq]
  case stateHash => rw [node_stateHash filed reached, stateHashOf_perm (same.map _)]

/-- After any sequence of pushes and pops of the search, all that the node keeps incrementally is
    what its assigned candidates give; a pop reads as the node that the matching push started from;
    and the incremental score of a complete node is the score of its materialised assignment. -/
theorem visits_recomputed (inp : SolverInput) (filed : inp.Filed) (pyHash : KeyPart → HashValue)
    (free0 : Dict String Int) {saved : List DictPartial} {node : DictPartial}
    (visits : Visits (inp.searchContext free0) pyHash free0 saved node) :
    node.view.Recomputed pyHash inp.capacityMode ∧
      (∀ before rest, saved = before :: rest → node.pop.view = before.view) ∧
      ((inp.searchContext free0).complete node.view = true →
        node.view.scorePartial inp.capacityMode inp.unsatCandidateTargets inp.preference =
          score ((inp.searchContext free0).materialize pyHash free0 node.assigned) free0
            inp.unsatCandidateTargets inp.preference) := by
  obtain ⟨pushed, reached, viewed, _⟩ := visits.path (filed_context filed)
  have distinct := (SearchContext.reach_path (filed_context filed) reached).1
  refine ⟨?_, ?_, ?_⟩
  · rw [viewed]
    exact node_recomputed filed reached
  · intro before rest same
    subst same
    exact visits.view_pop (filed_context filed)
  · intro _
    have assigned : node.assigned =
        ((inp.searchContext free0).node pyHash free0 pushed.reverse).assigned :=
      congrArg Partial.assigned viewed
    rw [assigned, SearchContext.materialize_node distinct, viewed]
    exact scorePartial_eq distinct (fun c member => targets_within filed reached member) _

/-- The home and then the replica of `pairInput`. -/
def pairNode : DictPartial :=
  ((DictPartial.init pairInput.freeMap).push pairHash "guaranteed"
      ⟨"protected_home:m", .fetch, "alpha", none, none, [], [], ⟨6, 4, 2, 3, []⟩, ⟨6⟩⟩).push
    pairHash "guaranteed" ⟨"protected_replica:m", .replicate, "beta",
      some (.pendingHome "protected_home:m"), some "protected_home:m", [], [], ⟨4, 4, 4, 4, []⟩, ⟨4⟩⟩

theorem visits_recomputed_pair :
    pairNode.view.Recomputed pairHash pairInput.capacityMode ∧
      (pairInput.searchContext pairInput.freeMap).complete pairNode.view = true ∧
      pairNode.view.scorePartial pairInput.capacityMode pairInput.unsatCandidateTargets
          pairInput.preference =
        score ((pairInput.searchContext pairInput.freeMap).materialize pairHash pairInput.freeMap
          pairNode.assigned) pairInput.freeMap pairInput.unsatCandidateTargets
          pairInput.preference := by
  have visits : Visits (pairInput.searchContext pairInput.freeMap) pairHash pairInput.freeMap
      [_, _] pairNode := (Visits.start.push (by decide)).push (by decide)
  have complete : (pairInput.searchContext pairInput.freeMap).complete pairNode.view = true := by
    decide
  have held := visits_recomputed pairInput pairInput_wellFormed.toFiled pairHash _ visits
  exact ⟨held.1, complete, held.2.2 complete⟩

/-- Two homes that go to one drive and need no workspace there. -/
def sharedInput : SolverInput :=
  { pairInput with
    graph := ⟨[
      ⟨"protected_home:m", "m", .protectedHome, ["alpha"], none⟩,
      ⟨"protected_home:n", "n", .protectedHome, ["alpha"], none⟩]⟩
    candidates :=
      { satisfied := []
        byRequirement := [
          ("protected_home:m", [
            ⟨"protected_home:m", .fetch, "alpha", none, none, [], [], ⟨2, 2, 0, 0, []⟩, ⟨2⟩⟩]),
          ("protected_home:n", [
            ⟨"protected_home:n", .fetch, "alpha", none, none, [], [], ⟨3, 3, 0, 0, []⟩, ⟨3⟩⟩])]
        drift := []
        blocked := [] } }

theorem sharedInput_filed : sharedInput.Filed where
  keyed := by decide
  pending := by
    intro item listed c among home pending
    simp only [sharedInput, List.mem_cons, List.not_mem_nil, or_false] at listed
    rcases listed with rfl | rfl <;> obtain rfl := List.mem_singleton.mp among <;> cases pending

/-- A pop may drop a load of 0 that was there before the matching push. -/
theorem pop_drops_zero :
    ¬ ∀ (inp : SolverInput), inp.Filed → ∀ (pyHash : KeyPart → HashValue) (free0 : Dict String Int)
        (saved : List DictPartial) (before node : DictPartial),
        Visits (inp.searchContext free0) pyHash free0 (before :: saved) node →
          node.pop = before := by
  intro restores
  have visits : Visits (sharedInput.searchContext sharedInput.freeMap) pairHash sharedInput.freeMap
      [_, _] _ :=
    (Visits.start.push (c := ⟨"protected_home:n", .fetch, "alpha", none, none, [], [],
      ⟨3, 3, 0, 0, []⟩, ⟨3⟩⟩) (by decide)).push (c := ⟨"protected_home:m", .fetch, "alpha", none,
      none, [], [], ⟨2, 2, 0, 0, []⟩, ⟨2⟩⟩) (by decide)
  have same := congrArg (fun node => node.workspacePeak["alpha"]?)
    (restores sharedInput sharedInput_filed pairHash _ _ _ _ visits)
  exact absurd same (by decide)

end Search

end Modelark.Placement
