import Modelark.Placement.Dependencies
import Modelark.Placement.Guarantees

/-!
# Completeness of the placement search

When the state hash tells the states apart that the search looks up, no two paths of the search share a
state, and no pruning removes a branch that a valid assignment needs: every valid assignment is the
assignment of a complete path.
-/

namespace Modelark.Placement

open Library Planning DepthFirst

/-- A part that an assigned candidate of the input can contribute to the state hash. -/
def PartOf (inp : SolverInput) (part : KeyPart) : Prop :=
  ∃ rid, ∃ c ∈ inp.candsOf rid, part.requirementId = c.requirementId ∧
    part.targetDrive = c.targetDrive ∧ part.taskKind = c.taskKind.value ∧
    (part.source = sourceKey c.source ∨ ∃ home, c.source = some (.pendingHome home) ∧
      ∃ h ∈ inp.candsOf home, part.source = identityKey ⟨h.targetDrive, none, none⟩)

def stateHashOf (pyHash : KeyPart → HashValue) (parts : List KeyPart) : HashValue :=
  parts.foldl (fun hash part => hash ^^^ pyHash part) 0

/-- Different sets of parts of the input have different state hashes. -/
def ApartOnSets (pyHash : KeyPart → HashValue) (inp : SolverInput) : Prop :=
  ∀ left right : List KeyPart, left.Nodup → right.Nodup →
    (∀ part ∈ left, PartOf inp part) → (∀ part ∈ right, PartOf inp part) →
    stateHashOf pyHash left = stateHashOf pyHash right → ∀ part, part ∈ left ↔ part ∈ right

def Partial.partFor (node : Partial) (c : Candidate) : KeyPart :=
  ⟨c.requirementId, c.targetDrive, node.srcKeyFor c, c.taskKind.value⟩

/-- The parts of the candidates on a path of the search. -/
def partsAt (pyHash : KeyPart → HashValue) (inp : SolverInput) (free0 : Dict String Int)
    (path : List Candidate) : List KeyPart :=
  path.map ((inp.searchContext free0).node pyHash free0 path).partFor

/-- No two states that the search looks up have one hash and different sets of parts. -/
def CollisionFree (pyHash : KeyPart → HashValue) (inp : SolverInput) (free0 : Dict String Int)
    (policy : Policy) : Prop :=
  ∀ left right, Tries ((inp.searchContext free0).space pyHash free0) policy left →
    Tries ((inp.searchContext free0).space pyHash free0) policy right →
    stateHashOf pyHash (partsAt pyHash inp free0 left) =
      stateHashOf pyHash (partsAt pyHash inp free0 right) →
    ∀ part, part ∈ partsAt pyHash inp free0 left ↔ part ∈ partsAt pyHash inp free0 right

section Keys

variable {inp : SolverInput} {pyHash : KeyPart → HashValue} {free0 : Dict String Int}
  {path : List Candidate}

theorem srcKeyFor_pending {ctx : SearchContext}
    (distinct : (path.map Candidate.requirementId).Nodup) {h c : Candidate} {home : String}
    (member : h ∈ path) (same : h.requirementId = home)
    (pending : c.source = some (.pendingHome home)) :
    (ctx.node pyHash free0 path).srcKeyFor c = identityKey ⟨h.targetDrive, none, none⟩ := by
  have found : (ctx.node pyHash free0 path).assigned[home]? = some h :=
    (SearchContext.lookup_assigned distinct).mpr ⟨member, same⟩
  simp only [Partial.srcKeyFor, pending, found]

theorem srcKeyFor_settled {node : Partial} {c : Candidate}
    (settled : ∀ home, c.source ≠ some (.pendingHome home)) :
    node.srcKeyFor c = sourceKey c.source := by
  rw [Partial.srcKeyFor]
  split
  · rename_i home pending
    exact absurd pending (settled home)
  · rfl

/-- A candidate keeps its key part when the path is extended. -/
theorem srcKeyFor_snoc (filed : inp.Filed) {c other : Candidate}
    (reached : ((inp.searchContext free0).space pyHash free0).Reach (path ++ [c]))
    (member : other ∈ path) :
    ((inp.searchContext free0).node pyHash free0 (path ++ [c])).srcKeyFor other =
      ((inp.searchContext free0).node pyHash free0 path).srcKeyFor other := by
  have distinct := (SearchContext.reach_path (filed_context filed) reached).1
  have distinctPath := (SearchContext.reach_path (filed_context filed) reached.init.1).1
  by_cases pending : ∃ home, other.source = some (.pendingHome home)
  · obtain ⟨home, pending⟩ := pending
    obtain ⟨front, back, split⟩ := List.append_of_mem member
    have upTo := reached.init.1
    rw [split] at upTo
    obtain ⟨h, before, same⟩ := pending_assigned filed upTo pending
    have inPath : h ∈ path := by
      rw [split]
      exact List.mem_append_left _ before
    rw [srcKeyFor_pending distinct (List.mem_append_left _ inPath) same pending,
      srcKeyFor_pending distinctPath inPath same pending]
  · have settled := not_exists.mp pending
    rw [srcKeyFor_settled settled, srcKeyFor_settled settled]

/-- The state hash of a path is the hash of its parts. -/
theorem node_stateHash (filed : inp.Filed)
    (reached : ((inp.searchContext free0).space pyHash free0).Reach path) :
    ((inp.searchContext free0).node pyHash free0 path).stateHash = stateHashOf pyHash
      (path.map ((inp.searchContext free0).node pyHash free0 path).partFor) := by
  induction reached with
  | root => rfl
  | @snoc path c before among ih =>
      have whole := before.snoc among
      have kept : path.map ((inp.searchContext free0).node pyHash free0 (path ++ [c])).partFor =
          path.map ((inp.searchContext free0).node pyHash free0 path).partFor := by
        refine List.map_congr_left fun other member => ?_
        simp only [Partial.partFor, srcKeyFor_snoc filed whole member]
      rw [List.map_append, kept, stateHashOf, List.foldl_append]
      change _ = ((path.map _).foldl _ 0) ^^^ pyHash _
      rw [← stateHashOf, ← ih, SearchContext.node_snoc]
      rfl

theorem partOf_path (filed : inp.Filed)
    (reached : ((inp.searchContext free0).space pyHash free0).Reach path) {c : Candidate}
    (member : c ∈ path) :
    PartOf inp (((inp.searchContext free0).node pyHash free0 path).partFor c) := by
  have distinct := (SearchContext.reach_path (filed_context filed) reached).1
  refine ⟨_, c, mem_candsOf_of_reach filed reached member, rfl, rfl, rfl, ?_⟩
  by_cases pending : ∃ home, c.source = some (.pendingHome home)
  · obtain ⟨home, pending⟩ := pending
    obtain ⟨front, back, rfl⟩ := List.append_of_mem member
    obtain ⟨h, before, same⟩ := pending_assigned filed reached pending
    have inPath : h ∈ front ++ c :: back := List.mem_append_left _ before
    refine .inr ⟨home, pending, h, ?_, srcKeyFor_pending distinct inPath same pending⟩
    rw [← same]
    exact mem_candsOf_of_reach filed reached inPath
  · exact .inl (srcKeyFor_settled (not_exists.mp pending))

/-- Two children of one node with the same part are the same candidate. -/
theorem candidate_eq_of_part (wellFormed : inp.WellFormed) {node node' : Partial} {rid : String}
    {c c' : Candidate} (member : c ∈ inp.candsOf rid) (member' : c' ∈ inp.candsOf rid)
    (same : node.partFor c = node'.partFor c') : c = c' := by
  obtain ⟨item, listed, _, among, cands⟩ := SolverInput.mem_candsOf member
  have among' : c' ∈ item.2 := cands ▸ member'
  obtain ⟨_, target, source, kind⟩ := KeyPart.mk.inj same
  refine wellFormed.distinct item listed c among c' among' target ?_
    (TaskKind.value_injective kind)
  apply sourceKey_injective
  by_cases pending : ∃ home, c.source = some (.pendingHome home)
  · obtain ⟨home, pending⟩ := pending
    rw [pending, wellFormed.unmixed item listed c among c' among' home pending]
  · have settled' : ∀ home, c'.source ≠ some (.pendingHome home) := by
      intro home pending'
      exact pending ⟨home, wellFormed.unmixed item listed c' among' c among home pending'⟩
    rwa [srcKeyFor_settled (not_exists.mp pending), srcKeyFor_settled settled'] at source

/-- A candidate beyond a prefix is not matched by one in it: its requirement is new. -/
theorem requirement_fresh (filed : inp.Filed) {base rest : List Candidate} {c d : Candidate}
    (reached : ((inp.searchContext free0).space pyHash free0).Reach (base ++ c :: rest))
    (member : d ∈ base) : d.requirementId ≠ c.requirementId := by
  intro equal
  have distinct := (SearchContext.reach_path (filed_context filed) reached).1
  rw [List.map_append, List.nodup_append] at distinct
  exact distinct.2.2 _ (List.mem_map_of_mem member) _
    (List.mem_map_of_mem (List.mem_cons_self ..)) equal

/-- Two paths that extend the same path and have the same parts are equal. -/
theorem extensions_eq (wellFormed : inp.WellFormed) {left right base : List Candidate}
    (leftReach : ((inp.searchContext free0).space pyHash free0).Reach (base ++ left))
    (rightReach : ((inp.searchContext free0).space pyHash free0).Reach (base ++ right))
    (same : ∀ part,
      part ∈ (base ++ left).map
        ((inp.searchContext free0).node pyHash free0 (base ++ left)).partFor ↔
      part ∈ (base ++ right).map
        ((inp.searchContext free0).node pyHash free0 (base ++ right)).partFor) :
    left = right := by
  have filed := wellFormed.toFiled
  induction left generalizing base right with
  | nil =>
      cases right with
      | nil => rfl
      | cons c rest =>
          have part := (same _).mpr (List.mem_map_of_mem
            (List.mem_append_right base (List.mem_cons_self ..)))
          obtain ⟨d, member, equal⟩ := List.mem_map.mp part
          rw [List.append_nil] at member
          exact absurd (congrArg KeyPart.requirementId equal) 
            (requirement_fresh filed rightReach member)
  | cons c rest ih =>
      cases right with
      | nil =>
          have part := (same _).mp (List.mem_map_of_mem
            (List.mem_append_right base (List.mem_cons_self ..)))
          obtain ⟨d, member, equal⟩ := List.mem_map.mp part
          rw [List.append_nil] at member
          exact absurd (congrArg KeyPart.requirementId equal) 
            (requirement_fresh filed leftReach member)
      | cons c' rest' =>
          obtain ⟨rid, _, least, listed, _⟩ := SearchContext.expand_spec leftReach.choice_mem
          obtain ⟨rid', _, least', listed', _⟩ := SearchContext.expand_spec rightReach.choice_mem
          obtain rfl := (List.cons.inj (least.symm.trans least')).1
          have own := filed_context filed rid c listed
          have own' := filed_context filed rid c' listed'
          have part := (same _).mp (List.mem_map_of_mem
            (List.mem_append_right base (List.mem_cons_self ..)))
          obtain ⟨d, member, equal⟩ := List.mem_map.mp part
          have distinct := (SearchContext.reach_path (filed_context filed) rightReach).1
          have isOther : d = c' := by
            refine List.inj_on_of_nodup_map distinct member
              (List.mem_append_right base (List.mem_cons_self ..)) ?_
            rw [own', ← own]
            exact congrArg KeyPart.requirementId equal
          subst isOther
          have one : d = c := candidate_eq_of_part wellFormed (mem_sortBy.mp listed')
            (mem_sortBy.mp listed) equal
          subst one
          have shift : ∀ tail : List Candidate, base ++ d :: tail = base ++ [d] ++ tail :=
            fun tail => (List.append_assoc base [d] tail).symm
          rw [shift] at leftReach rightReach
          rw [shift rest, shift rest'] at same
          exact congrArg (d :: ·) (ih leftReach rightReach same)

/-- A hash that tells all sets of parts apart tells the states of every search apart. -/
theorem collisionFree_of_sets (filed : inp.Filed) (apart : ApartOnSets pyHash inp) (free0 : Dict String Int)
    (policy : Policy) : CollisionFree pyHash inp free0 policy := by
  intro left right leftTried rightTried
  have nodup : ∀ {path}, ((inp.searchContext free0).space pyHash free0).Reach path →
      (partsAt pyHash inp free0 path).Nodup := by
    intro path reached
    have distinct := (SearchContext.reach_path (filed_context filed) reached).1
    have ids : (partsAt pyHash inp free0 path).map KeyPart.requirementId =
        path.map Candidate.requirementId := by
      rw [partsAt, List.map_map]
      rfl
    exact List.Nodup.of_map KeyPart.requirementId (ids ▸ distinct)
  have parts : ∀ {path}, ((inp.searchContext free0).space pyHash free0).Reach path →
      ∀ part ∈ partsAt pyHash inp free0 path, PartOf inp part := by
    intro path reached part member
    obtain ⟨c, listed, rfl⟩ := List.mem_map.mp member
    exact partOf_path filed reached listed
  have leftReach := leftTried.reach (lawful_space filed)
  have rightReach := rightTried.reach (lawful_space filed)
  exact apart _ _ (nodup leftReach) (nodup rightReach) (parts leftReach) (parts rightReach)

/-- No two paths that a search without collisions tries have the same state key. -/
theorem keysDistinct {policy : Policy} (wellFormed : inp.WellFormed)
    (collisionFree : CollisionFree pyHash inp free0 policy) :
    KeysDistinct ((inp.searchContext free0).space pyHash free0) policy := by
  intro left right leftTried rightTried same
  have filed := wellFormed.toFiled
  have leftReach := leftTried.reach (lawful_space filed)
  have rightReach := rightTried.reach (lawful_space filed)
  have hashes : stateHashOf pyHash (partsAt pyHash inp free0 left) =
      stateHashOf pyHash (partsAt pyHash inp free0 right) := by
    rw [partsAt, partsAt, ← node_stateHash filed leftReach, ← node_stateHash filed rightReach]
    exact same
  have sameParts := collisionFree left right leftTried rightTried hashes
  exact @extensions_eq inp pyHash free0 wellFormed left right [] leftReach rightReach sameParts

end Keys

section Existence

variable {inp : SolverInput} {pyHash : KeyPart → HashValue} {free0 : Dict String Int}
  {tasks : List AssignmentTask} {pick : AssignmentTask → Candidate} {path : List Candidate}

/-- `c` is the candidate that a task was made of. -/
structure Choice (inp : SolverInput) (tasks : List AssignmentTask) (t : AssignmentTask)
    (c : Candidate) : Prop where
  listed : c ∈ inp.candsOf t.requirementId
  task : t = taskOf inp.capacityMode t.requirementId c t.source
  resolves : Resolves tasks c.source t.source

/-- `pick` names the candidate of every task. -/
def Picks (inp : SolverInput) (tasks : List AssignmentTask) (pick : AssignmentTask → Candidate) :
    Prop :=
  ∀ t ∈ tasks, Choice inp tasks t (pick t)

theorem exists_picks {budget : String → Int} (valid : ValidAssignment inp budget tasks) :
    ∃ pick, Picks inp tasks pick := by
  have choices : ∀ t, ∃ c, t ∈ tasks → Choice inp tasks t c := by
    intro t
    by_cases member : t ∈ tasks
    · obtain ⟨c, listed, task, resolves⟩ := valid.candidate t member
      exact ⟨c, fun _ => ⟨listed, task, resolves⟩⟩
    · exact ⟨default, fun absent => absurd absent member⟩
  choose pick picks using choices
  exact ⟨pick, picks⟩

theorem Choice.requirementId (filed : inp.Filed) {t : AssignmentTask} {c : Candidate}
    (choice : Choice inp tasks t c) : c.requirementId = t.requirementId :=
  filed.requirementId choice.listed

theorem Choice.targetDrive {t : AssignmentTask} {c : Candidate} (choice : Choice inp tasks t c) :
    t.targetDrive = c.targetDrive := by
  rw [choice.task]
  rfl

theorem Choice.durable {t : AssignmentTask} {c : Candidate} (choice : Choice inp tasks t c) :
    t.durable = candDurable c inp.capacityMode := by
  rw [choice.task]
  rfl

theorem Choice.workspace {t : AssignmentTask} {c : Candidate} (choice : Choice inp tasks t c) :
    t.workspace = candWorkspace c inp.capacityMode := by
  rw [choice.task]
  rfl

namespace Picks

variable (picks : Picks inp tasks pick)
include picks

theorem ids (filed : inp.Filed) :
    (tasks.map pick).map Candidate.requirementId = tasks.map AssignmentTask.requirementId := by
  rw [List.map_map]
  exact List.map_congr_left fun t member => (picks t member).requirementId filed

theorem durableOn (lab : String) :
    durableOn tasks lab = total (candDurable · inp.capacityMode) (onDrive (tasks.map pick) lab) := by
  have drives : tasks.filter (·.targetDrive == lab) =
      tasks.filter ((·.targetDrive == lab) ∘ pick) := by
    refine List.filter_congr fun t member => ?_
    rw [Function.comp_apply, (picks t member).targetDrive]
  rw [Placement.durableOn, drives, onDrive, List.filter_map, total_map, total, total]
  exact congrArg List.sum (List.map_congr_left fun t member =>
    (picks t (List.mem_of_mem_filter member)).durable)

theorem workspaceOn (lab : String) :
    workspaceOn tasks lab =
      peak (candWorkspace · inp.capacityMode) (onDrive (tasks.map pick) lab) := by
  have drives : tasks.filter (·.targetDrive == lab) =
      tasks.filter ((·.targetDrive == lab) ∘ pick) := by
    refine List.filter_congr fun t member => ?_
    rw [Function.comp_apply, (picks t member).targetDrive]
  rw [Placement.workspaceOn, drives, onDrive, List.filter_map, peak_map, peak, peak]
  exact congrArg (List.foldr max 0) (List.map_congr_left fun t member =>
    (picks t (List.mem_of_mem_filter member)).workspace)

end Picks

/-- A part of the picked candidates loads a drive no more than all of them. -/
theorem load_le_of_subset (picks : Picks inp tasks pick) (distinct : path.Nodup)
    (within : path ⊆ tasks.map pick) (lab : String) :
    total (candDurable · inp.capacityMode) (onDrive path lab) +
        peak (candWorkspace · inp.capacityMode) (onDrive path lab) ≤
      durableOn tasks lab + workspaceOn tasks lab := by
  have fewer : (onDrive path lab).Subperm (onDrive (tasks.map pick) lab) :=
    (List.subperm_of_subset distinct within).filter _
  rw [picks.durableOn, picks.workspaceOn]
  obtain ⟨middle, permuted, sublist⟩ := fewer
  rw [← total_perm permuted, ← peak_perm permuted]
  exact Nat.add_le_add (total_sublist sublist) (peak_subset sublist.subset)

theorem ValidAssignment.mono {budget budget' : String → Int}
    (valid : ValidAssignment inp budget tasks)
    (more : ∀ t ∈ tasks, budget t.targetDrive ≤ budget' t.targetDrive) :
    ValidAssignment inp budget' tasks :=
  { valid with capacity := fun t member => (valid.capacity t member).trans (more t member) }

/-- A path as long as the list of open requirements is complete. -/
theorem complete_of_length (wellFormed : inp.WellFormed)
    (reached : ((inp.searchContext free0).space pyHash free0).Reach path)
    (long : inp.unsat.length ≤ path.length) :
    (inp.searchContext free0).complete
      ((inp.searchContext free0).node pyHash free0 path) = true := by
  obtain ⟨distinct, members⟩ :=
    SearchContext.reach_path (filed_context wellFormed.toFiled) reached
  have within : path.map Candidate.requirementId ⊆ inp.unsat := by
    intro rid member
    obtain ⟨c, listed, rfl⟩ := List.mem_map.mp member
    exact (members c listed).1
  have all : (path.map Candidate.requirementId).Perm inp.unsat :=
    (List.subperm_of_subset distinct within).perm_of_length_le (by rw [List.length_map]; exact long)
  exact SearchContext.complete_iff.mpr fun rid member => all.mem_iff.mpr member

/-- As long as an open requirement is unassigned, one is ready. -/
theorem exists_ready {budget : String → Int} (wellFormed : inp.WellFormed)
    (acyclic : inp.dependencyCycle = none) (valid : ValidAssignment inp budget tasks) {rid : String}
    (member : rid ∈ inp.unsat) (unassigned : rid ∉ path.map Candidate.requirementId) :
    (inp.searchContext free0).ready
      ((inp.searchContext free0).node pyHash free0 path) ≠ [] := by
  obtain ⟨seen, ordered, all⟩ := SolverInput.exists_ordered acyclic
  have listed : rid ∈ seen := by
    obtain ⟨⟨req, desired, rfl⟩, _⟩ := SolverInput.mem_unsat.mp member
    exact all req desired
  let Unassigned : String → Prop := fun id =>
    id ∈ inp.unsat ∧ id ∉ path.map Candidate.requirementId
  obtain ⟨first, ⟨isOpen, free⟩, follows⟩ :=
    ordered.exists_ready listed (show Unassigned rid from ⟨member, unassigned⟩)
  have met : (inp.searchContext free0).dependencyMet
      ((inp.searchContext free0).node pyHash free0 path) first = true := by
    rw [SearchContext.dependencyMet]
    split
    · rfl
    · rename_i dep needs
      obtain ⟨req, found, own⟩ := Option.bind_eq_some_iff.mp needs
      obtain ⟨t, task, same⟩ : ∃ t ∈ tasks, t.requirementId = first := by
        rw [← valid.ids] at isOpen
        exact List.mem_map.mp isOpen
      subst same
      have desired : req ∈ inp.graph.desired := by
        obtain ⟨req', among, same⟩ := List.mem_map.mp (Dict.mem_of_lookup_ofPairs found)
        rw [← (Prod.mk.inj same).2]
        exact among
      have named : inp.followedDependency t.requirementId = some dep := by
        have found' : inp.reqById[t.requirementId]? = some req := found
        have nonempty : dep ≠ "" := fun empty =>
          wellFormed.namedDependency req desired (by rw [own, empty])
        simp only [SolverInput.followedDependency, found', Option.bind_some, own,
          Option.filter_some, bne_iff_ne, ne_eq, nonempty, not_false_eq_true, if_true]
      rw [Bool.or_eq_true, decide_eq_true_eq, decide_eq_true_eq]
      rcases valid.dependency t task req dep found own with assigned | satisfied
      · rw [valid.ids] at assigned
        left
        by_contra absent
        exact follows dep named ⟨assigned, fun held =>
          absent (SearchContext.mem_assigned.mpr held)⟩
      · exact .inr satisfied
  intro none
  have inReady : first ∈ (inp.searchContext free0).ready
      ((inp.searchContext free0).node pyHash free0 path) :=
    SearchContext.mem_ready.mpr
      ⟨isOpen, fun held => free (SearchContext.mem_assigned.mp held), met⟩
  rw [none] at inReady
  exact List.not_mem_nil inReady

variable (wellFormed : inp.WellFormed) (acyclic : inp.dependencyCycle = none)
  (valid : ValidAssignment inp (free0.getD · 0) tasks) (picks : Picks inp tasks pick)
include wellFormed valid picks

/-- A candidate of the assignment is the pick of the task of its requirement. -/
theorem eq_pick {t : AssignmentTask} {c : Candidate} (member : c ∈ tasks.map pick)
    (task : t ∈ tasks) (same : t.requirementId = c.requirementId) : c = pick t := by
  have filed := wellFormed.toFiled
  have distinct : ((tasks.map pick).map Candidate.requirementId).Nodup := by
    rw [picks.ids filed, valid.ids]
    exact SolverInput.nodup_unsat wellFormed.uniqueIds
  refine List.inj_on_of_nodup_map distinct member (List.mem_map_of_mem task) ?_
  rw [← same, (picks t task).requirementId filed]

/-- The pick of a ready requirement is admitted at every node along the assignment. -/
theorem admits_pick (reached : ((inp.searchContext free0).space pyHash free0).Reach path)
    (within : path ⊆ tasks.map pick) {t : AssignmentTask} (task : t ∈ tasks)
    (isReady : t.requirementId ∈ (inp.searchContext free0).ready
      ((inp.searchContext free0).node pyHash free0 path)) :
    (inp.searchContext free0).admits ((inp.searchContext free0).node pyHash free0 path)
      (pick t) = true := by
  have filed := wellFormed.toFiled
  have distinct := (SearchContext.reach_path (filed_context filed) reached).1
  have own := (picks t task).requirementId filed
  obtain ⟨_, unassigned, met⟩ := SearchContext.mem_ready.mp isReady
  have assignedHome : ∀ {home h}, ((inp.searchContext free0).node pyHash free0
      path).assigned[home]? = some h → h ∈ path ∧ h.requirementId = home :=
    fun found => (SearchContext.lookup_assigned distinct).mp found
  simp only [SearchContext.admits, Bool.and_eq_true]
  refine ⟨⟨?_, ?_⟩, ?_⟩
  · have longer : (path ++ [pick t]).Nodup := by
      refine List.Nodup.of_map Candidate.requirementId ?_
      rw [List.map_append, List.map_singleton, ← List.concat_eq_append, List.nodup_concat, own]
      exact ⟨fun held => unassigned (SearchContext.mem_assigned.mpr held), distinct⟩
    have subset : path ++ [pick t] ⊆ tasks.map pick :=
      List.append_subset.mpr ⟨within, fun c member =>
        List.mem_singleton.mp member ▸ List.mem_map_of_mem task⟩
    have room := valid.capacity t task
    rw [(picks t task).targetDrive] at room
    have load := load_le_of_subset picks longer subset (pick t).targetDrive
    exact (SearchContext.node_fits path (pick t)).mpr (le_trans (Int.ofNat_le.mpr load) room)
  · rw [Partial.domainOk]
    split
    · rfl
    · rename_i req found
      split_ifs with kind
      · rfl
      rw [own] at found
      rw [ne_eq, not_not] at kind
      have resolves := (picks t task).resolves
      have apart := valid.domain t task req
      have check : ∀ {label hd rd}, t.source.map SourceIdentity.driveLabel = some label →
          inp.driveMap[label]? = some hd → inp.driveMap[(pick t).targetDrive]? = some rd →
          (!sameFailureDomain hd rd) = true := by
        intro label hd rd source homeFact targetFact
        obtain ⟨identity, named, rfl⟩ := Option.map_eq_some_iff.mp source
        rw [← (picks t task).targetDrive] at targetFact
        rw [apart identity hd rd found kind named homeFact targetFact]
        rfl
      cases origin : (pick t).source with
      | none => rfl
      | some named =>
          rw [origin] at resolves
          cases named with
          | identity named =>
              dsimp only
              split
              · rename_i hd rd homeFact targetFact
                exact check (by rw [show t.source = some named from resolves]; rfl)
                  homeFact targetFact
              · rfl
          | pendingHome home =>
              obtain ⟨homeTask, listed, homeId, source⟩ := resolves
              dsimp only
              cases lookup : ((inp.searchContext free0).node pyHash free0
                path).assigned[home]? with
              | none => rfl
              | some h =>
                  obtain ⟨inPath, homeOwn⟩ := assignedHome lookup
                  have isPick : h = pick homeTask := eq_pick wellFormed valid picks
                    (within inPath) listed (homeId.trans homeOwn.symm)
                  rw [Option.map_some]
                  dsimp only
                  split
                  · rename_i hd rd homeFact targetFact
                    refine check ?_ homeFact targetFact
                    rw [source, Option.map_some, isPick, (picks homeTask listed).targetDrive]
                  · rfl
  · rw [SearchContext.pendingMet]
    split
    · rename_i home pending
      obtain ⟨item, listed, _, among, _⟩ := SolverInput.mem_candsOf (picks t task).listed
      obtain ⟨_, req, found, needs⟩ := filed.pending item listed _ among home pending
      rw [own] at found
      have found' : (inp.searchContext free0).reqById[t.requirementId]? = some req := found
      rw [SearchContext.dependencyMet, found', Option.bind_some, needs] at met
      exact met
    · rfl

include acyclic

/-- A path along the assignment can be extended until it is complete. -/
theorem progress (reached : ((inp.searchContext free0).space pyHash free0).Reach path)
    (within : path ⊆ tasks.map pick)
    (incomplete : (inp.searchContext free0).complete
      ((inp.searchContext free0).node pyHash free0 path) ≠ true) :
    ∃ c ∈ tasks.map pick, c ∈ (inp.searchContext free0).expand
      ((inp.searchContext free0).node pyHash free0 path) := by
  have filed := wellFormed.toFiled
  have distinct := (SearchContext.reach_path (filed_context filed) reached).1
  obtain ⟨rid, isOpen, unassigned⟩ :
      ∃ rid ∈ inp.unsat, rid ∉ path.map Candidate.requirementId := by
    by_contra none
    refine incomplete (SearchContext.complete_iff.mpr fun rid isOpen => ?_)
    by_contra absent
    exact none ⟨rid, isOpen, absent⟩
  have some : (inp.searchContext free0).ready
      ((inp.searchContext free0).node pyHash free0 path) ≠ [] :=
    exists_ready wellFormed acyclic valid isOpen unassigned
  have room : ((inp.searchContext free0).node pyHash free0 path).assigned.size ≠
      (inp.searchContext free0).unsat.dedup.length := by
    intro full
    refine incomplete (complete_of_length wellFormed reached ?_)
    rw [SearchContext.node_assigned, Dict.size_ofPairs
      (by rw [SearchContext.keys_assignedPair]; exact distinct), List.length_map,
      show (inp.searchContext free0).unsat = inp.unsat from rfl,
      (SolverInput.nodup_unsat wellFormed.uniqueIds).dedup] at full
    exact full.ge
  cases order : sortBy (inp.searchContext free0).orderKey ((inp.searchContext free0).ready
      ((inp.searchContext free0).node pyHash free0 path)) with
  | nil => exact absurd (sortBy_eq_nil.mp order) some
  | cons first rest =>
      have isReady : first ∈ (inp.searchContext free0).ready
          ((inp.searchContext free0).node pyHash free0 path) := mem_of_sortBy_cons order
      obtain ⟨t, task, rfl⟩ : ∃ t ∈ tasks, t.requirementId = first := by
        have isOpen := (SearchContext.mem_ready.mp isReady).1
        change first ∈ inp.unsat at isOpen
        rw [← valid.ids] at isOpen
        exact List.mem_map.mp isOpen
      refine ⟨pick t, List.mem_map_of_mem task, ?_⟩
      rw [SearchContext.expand, if_neg room, order]
      exact List.mem_filter.mpr ⟨mem_sortBy.mpr (picks t task).listed,
        admits_pick wellFormed valid picks reached within task isReady⟩

/-- The search tree has a complete path along every valid assignment. -/
theorem exists_complete_path :
    ∃ path, ((inp.searchContext free0).space pyHash free0).Reach path ∧
      path ⊆ tasks.map pick ∧ (inp.searchContext free0).complete
        ((inp.searchContext free0).node pyHash free0 path) = true := by
  have extend : ∀ left path, ((inp.searchContext free0).space pyHash free0).Reach path →
      path ⊆ tasks.map pick → inp.unsat.length ≤ path.length + left →
      ∃ path, ((inp.searchContext free0).space pyHash free0).Reach path ∧
        path ⊆ tasks.map pick ∧ (inp.searchContext free0).complete
          ((inp.searchContext free0).node pyHash free0 path) = true := by
    intro left
    induction left with
    | zero =>
        intro path reached within long
        exact ⟨path, reached, within, complete_of_length wellFormed reached long⟩
    | succ left ih =>
        intro path reached within long
        by_cases complete : (inp.searchContext free0).complete
            ((inp.searchContext free0).node pyHash free0 path) = true
        · exact ⟨path, reached, within, complete⟩
        · obtain ⟨c, listed, among⟩ :=
            progress wellFormed acyclic valid picks reached within complete
          refine ih (path ++ [c]) (reached.snoc among) ?_ ?_
          · exact List.append_subset.mpr ⟨within, fun d member =>
              List.mem_singleton.mp member ▸ listed⟩
          · rw [List.length_append, List.length_singleton]
            omega
  exact extend inp.unsat.length [] .root (List.nil_subset _) (by simp)

end Existence

section Verdicts

variable {inp : SolverInput} {pyHash : KeyPart → HashValue} {free0 : Dict String Int}
  {policy : Policy}

theorem walk_finished (filed : inp.Filed) :
    ((inp.searchContext free0).walk pyHash free0 policy).finished = true := by
  refine search_finishes (lawful_space filed) (SearchContext.branches fun rid => ?_)
  exact (sortBy_perm _ _).length_eq.trans_le (SolverInput.length_candsOf_le rid)

theorem recordComplete_isSome (ctx : SearchContext) (kept : Option Found) (node : Partial) :
    (ctx.recordComplete kept node).isSome = true := by
  rw [SearchContext.recordComplete.eq_def]
  cases kept with
  | none => rfl
  | some found =>
      dsimp only
      split_ifs <;> rfl

theorem ne_nil_of_complete {path : List Candidate} (some : inp.unsat ≠ [])
    (complete : (inp.searchContext free0).complete
      ((inp.searchContext free0).node pyHash free0 path) = true) : path ≠ [] := by
  rintro rfl
  obtain ⟨rid, rest, unsat⟩ := List.exists_cons_of_ne_nil some
  have assigned := SearchContext.complete_iff.mp complete rid
    (by change rid ∈ inp.unsat; rw [unsat]; exact List.mem_cons_self ..)
  exact List.not_mem_nil assigned

/-- A search ends without a complete assignment only when it ran to its end and recorded
    nothing. -/
theorem search_infeasible (filed : inp.Filed)
    (infeasible : (search pyHash inp free0 policy).kind = .infeasible) :
    inp.unsat ≠ [] ∧ ((inp.searchContext free0).walk pyHash free0 policy).status = .running ∧
      ((inp.searchContext free0).walk pyHash free0 policy).record = none := by
  rw [search] at infeasible
  split_ifs at infeasible with none
  rw [SearchContext.searchResult] at infeasible
  have empty : ((inp.searchContext free0).walk pyHash free0 policy).record = .none := by
    cases recorded : ((inp.searchContext free0).walk pyHash free0 policy).record with
    | none => rfl
    | some found =>
        simp only [recorded, Option.map_some] at infeasible
        split at infeasible <;> cases infeasible
  refine ⟨fun nil => none (by rw [nil]; rfl), ?_, empty⟩
  cases status : ((inp.searchContext free0).walk pyHash free0 policy).status with
  | running => rfl
  | raised | exhausted => simp [status] at infeasible
  | stopped =>
      obtain ⟨_, kept, path, _, _, recorded⟩ := record_of_stopped (lawful_space filed) status
      have some := recordComplete_isSome (inp.searchContext free0) kept
        ((inp.searchContext free0).node pyHash free0 path)
      have same : (inp.searchContext free0).recordComplete kept
          ((inp.searchContext free0).node pyHash free0 path) = .none := recorded.symm.trans empty
      rw [same] at some
      cases some

/-- A search that ended without a complete assignment leaves no valid one. -/
theorem no_valid_of_infeasible (wellFormed : inp.WellFormed) (acyclic : inp.dependencyCycle = none)
    (collisionFree : CollisionFree pyHash inp free0 policy)
    (infeasible : (search pyHash inp free0 policy).kind = .infeasible)
    {tasks : List AssignmentTask} (valid : ValidAssignment inp (free0.getD · 0) tasks) : False := by
  have filed := wellFormed.toFiled
  obtain ⟨some, running, empty⟩ := search_infeasible filed infeasible
  obtain ⟨pick, picks⟩ := exists_picks valid
  obtain ⟨path, reached, _, complete⟩ :=
    @exists_complete_path inp pyHash free0 tasks pick wellFormed acyclic valid picks
  have taken := search_exhaustive (fun kept _ => kept.isSome = true) (lawful_space filed)
    (keysDistinct wellFormed collisionFree)
    (fun kept path _ _ => recordComplete_isSome _ kept _)
    (fun kept path _ _ _ _ => recordComplete_isSome _ kept _)
    (walk_finished filed) running reached (ne_nil_of_complete some complete) complete
  change ((inp.searchContext free0).walk pyHash free0 policy).record.isSome = true at taken
  rw [empty] at taken
  cases taken

theorem feasibility_not_emergency (filed : inp.Filed) :
    (search pyHash inp free0 inp.feasibilityPolicy).kind ≠ .emergency := by
  have quiet : ((inp.searchContext free0).walk pyHash free0 inp.feasibilityPolicy).status ≠
      .raised := not_raised (lawful_space filed) fun _ => rfl
  rw [search]
  split_ifs
  · simp
  · rw [SearchContext.searchResult]
    split
    · rename_i status
      exact absurd status quiet
    · simp
    · split <;> simp

/-- The walk of the feasibility search after a number of turns of its loop. -/
def feasibilityWalk (pyHash : KeyPart → HashValue) (inp : SolverInput) (free0 : Dict String Int)
    (turns : Nat) : Walk Partial Candidate HashValue (Option Found) :=
  (step ((inp.searchContext free0).space pyHash free0) inp.feasibilityPolicy)^[turns]
    (start ((inp.searchContext free0).space pyHash free0) inp.feasibilityPolicy)

/-- The feasibility search comes to a new state with its limit used up, before it recorded a
    complete assignment. -/
def HitsLimit (pyHash : KeyPart → HashValue) (inp : SolverInput) (free0 : Dict String Int) : Prop :=
  inp.unsat ≠ [] ∧ ∃ turns, (feasibilityWalk pyHash inp free0 turns).status = .exhausted ∧
    (feasibilityWalk pyHash inp free0 turns).record = none

theorem walk_eq_iterate : (inp.searchContext free0).walk pyHash free0 inp.feasibilityPolicy =
    feasibilityWalk pyHash inp free0
      (inp.feasibilityPolicy.limit * ((inp.searchContext free0).branch + 2)) :=
  loop_eq_iterate _ _

/-- The search reports an exhausted bound exactly when it hits the limit. -/
theorem boundExhausted_iff (filed : inp.Filed) :
    (search pyHash inp free0 inp.feasibilityPolicy).kind = .boundExhausted ↔
      HitsLimit pyHash inp free0 := by
  have ends : (feasibilityWalk pyHash inp free0
      (inp.feasibilityPolicy.limit * ((inp.searchContext free0).branch + 2))).finished = true := by
    rw [← walk_eq_iterate]
    exact walk_finished filed
  constructor
  · intro exhausted
    rw [search] at exhausted
    split_ifs at exhausted with none
    have status : ((inp.searchContext free0).walk pyHash free0
        inp.feasibilityPolicy).status = .exhausted := by
      rw [SearchContext.searchResult] at exhausted
      split at exhausted
      · cases exhausted
      · assumption
      · split at exhausted <;> cases exhausted
    refine ⟨fun nil => none (by rw [nil]; rfl), _, walk_eq_iterate ▸ status, ?_⟩
    rw [← walk_eq_iterate]
    have outcome : (((inp.searchContext free0).walk pyHash free0 inp.feasibilityPolicy).status ≠
        .stopped ∧ ((inp.searchContext free0).walk pyHash free0
          inp.feasibilityPolicy).record = .none) ∨
        (((inp.searchContext free0).walk pyHash free0 inp.feasibilityPolicy).status =
          .stopped ∧ _) := stopped_or_blank (lawful_space filed) rfl
    rcases outcome with ⟨_, blank⟩ | ⟨stopped, _⟩
    · exact blank
    · rw [stopped] at status
      cases status
  · rintro ⟨some, turns, exhausted, _⟩
    have ended : (feasibilityWalk pyHash inp free0 turns).finished = true :=
      finished_eq_true.mpr (.inr (by rw [exhausted]; simp))
    have status : ((inp.searchContext free0).walk pyHash free0
        inp.feasibilityPolicy).status = .exhausted := by
      rw [walk_eq_iterate]
      exact (congrArg Walk.status (iterate_finished_eq ended ends)).symm.trans exhausted
    rw [search, if_neg (by rw [List.isEmpty_iff]; exact some), SearchContext.searchResult, status]

theorem optimisticFree_getD (lab : String) :
    inp.optimisticFree.getD lab 0 =
      if lab ∈ inp.relevantUnknowns then (inp.maximum lab).getD (inp.freeMap.getD lab 0)
      else inp.freeMap.getD lab 0 := by
  have raised : ∀ (labs : List String) (free : Dict String Int),
      (labs.foldl inp.atMaximum free)[lab]? =
        if lab ∈ labs ∧ (inp.maximum lab).isSome then inp.maximum lab else free[lab]? := by
    intro labs
    induction labs with
    | nil => intro free; simp
    | cons first rest ih =>
        intro free
        rw [List.foldl_cons, ih]
        by_cases later : lab ∈ rest ∧ (inp.maximum lab).isSome
        · rw [if_pos later, if_pos ⟨List.mem_cons_of_mem _ later.1, later.2⟩]
        rw [if_neg later]
        by_cases here : first = lab
        · subst here
          cases known : inp.maximum first with
          | none => simp [SolverInput.atMaximum, known]
          | some mx => simp [SolverInput.atMaximum, known]
        · have same : (inp.atMaximum free first)[lab]? = free[lab]? := by
            rw [SolverInput.atMaximum]
            cases inp.maximum first with
            | none => rfl
            | some mx => exact Dict.lookup_insert_of_ne _ _ here
          rw [same, if_neg]
          rintro ⟨member, known⟩
          rcases List.mem_cons.mp member with equal | among
          · exact here equal.symm
          · exact later ⟨among, known⟩
  rw [Dict.getD_eq, SolverInput.optimisticFree, raised, Dict.getD_eq]
  cases known : inp.maximum lab with
  | none => simp
  | some mx =>
      by_cases relevant : lab ∈ inp.relevantUnknowns <;> simp [relevant]

/-- The drive is known, and its evidence is not executable. -/
def NonExecutable (inp : SolverInput) (lab : String) : Prop :=
  inp.evidenceMap[lab]? = some ⟨false⟩

/-- A resolution of the unknown drives: executable drives keep their budget, and a non-executable
    candidate target gets at most its known usable maximum. -/
def Resolution (inp : SolverInput) (budget : String → Int) : Prop :=
  (∀ lab, ¬NonExecutable inp lab → budget lab = inp.executableFree lab) ∧
    ∀ lab ∈ inp.unsatCandidateTargets, NonExecutable inp lab →
      ∀ mx, inp.maximum lab = some mx → budget lab ≤ mx

theorem mem_relevantUnknowns {lab : String} : lab ∈ inp.relevantUnknowns ↔
    lab ∈ inp.unsatCandidateTargets ∧ NonExecutable inp lab := by
  rw [SolverInput.relevantUnknowns, List.mem_filter, NonExecutable]
  refine and_congr_right fun _ => ?_
  cases inp.evidenceMap[lab]? with
  | none => simp
  | some evidence =>
      obtain ⟨executable⟩ := evidence
      cases executable <;> simp

/-- The second search runs: the first ended with nothing, every maximum is known, and some unknown
    drive is a candidate target. -/
def RunsOptimistic (pyHash : KeyPart → HashValue) (inp : SolverInput) : Prop :=
  (search pyHash inp inp.freeMap inp.feasibilityPolicy).kind = .infeasible ∧
    inp.targetsWithUnknownMax = [] ∧ inp.relevantUnknowns ≠ []

/-- The target of a valid task is a candidate target of an open requirement. -/
theorem target_mem {budget : String → Int} {tasks : List AssignmentTask}
    (valid : ValidAssignment inp budget tasks) {t : AssignmentTask} (task : t ∈ tasks) :
    t.targetDrive ∈ inp.unsatCandidateTargets := by
  obtain ⟨c, listed, same, _⟩ := valid.candidate t task
  have isOpen : t.requirementId ∈ inp.unsat := by
    rw [← valid.ids]
    exact List.mem_map_of_mem task
  rw [SolverInput.unsatCandidateTargets, mem_sortedSet, List.mem_flatMap]
  refine ⟨_, isOpen, List.mem_map.mpr ⟨c, listed, ?_⟩⟩
  rw [same]
  rfl

/-- A valid assignment under a resolution of the unknown drives is one under the budgets of the
    second search. -/
theorem valid_optimistic {budget : String → Int} {tasks : List AssignmentTask}
    (known : inp.targetsWithUnknownMax = []) (resolution : Resolution inp budget)
    (valid : ValidAssignment inp budget tasks) :
    ValidAssignment inp (inp.optimisticFree.getD · 0) tasks := by
  refine valid.mono fun t task => ?_
  have target := target_mem valid task
  rw [optimisticFree_getD]
  by_cases unknown : NonExecutable inp t.targetDrive
  · rw [if_pos (mem_relevantUnknowns.mpr ⟨target, unknown⟩)]
    cases maximum : inp.maximum t.targetDrive with
    | none =>
        have unknownMax : t.targetDrive ∈ inp.targetsWithUnknownMax :=
          List.mem_filter.mpr ⟨target, by rw [maximum]; rfl⟩
        rw [known] at unknownMax
        exact absurd unknownMax List.not_mem_nil
    | some mx => exact resolution.2 _ target unknown mx maximum
  · rw [if_neg fun relevant => unknown (mem_relevantUnknowns.mp relevant).2,
      resolution.1 _ unknown, inp.freeMap_getD]

variable (pyHash) in
/-- The verdict of Gate B, by the outcomes of its two searches. -/
theorem gateB_verdict (filed : inp.Filed) (passes : inp.structural = none) :
    ((search pyHash inp inp.freeMap inp.feasibilityPolicy).kind = .found ∧
        (gateB pyHash inp).code = .feasible) ∨
      (HitsLimit pyHash inp inp.freeMap ∧ (gateB pyHash inp).code = .packingInconclusive) ∨
      ((search pyHash inp inp.freeMap inp.feasibilityPolicy).kind = .infeasible ∧
        ¬RunsOptimistic pyHash inp ∧ ((gateB pyHash inp).code = .capacityEvidenceUnknown ∨
          (gateB pyHash inp).code = .infeasibleUnderAdmissionBudget)) ∨
      (RunsOptimistic pyHash inp ∧ HitsLimit pyHash inp inp.optimisticFree ∧
        (gateB pyHash inp).code = .packingInconclusive) ∨
      (RunsOptimistic pyHash inp ∧ ¬HitsLimit pyHash inp inp.optimisticFree ∧
        ((gateB pyHash inp).code = .capacityEvidenceUnknown ∨
          ((search pyHash inp inp.optimisticFree inp.feasibilityPolicy).kind = .infeasible ∧
            (gateB pyHash inp).code = .infeasibleWithUnknownAtUsableMax))) := by
  have first : (gateB pyHash inp).code = _ := gateB_code passes
  cases kind : (search pyHash inp inp.freeMap inp.feasibilityPolicy).kind with
  | found => exact .inl ⟨rfl, by rw [first, kind]⟩
  | boundExhausted =>
      exact .inr (.inl ⟨(boundExhausted_iff filed).mp kind, by rw [first, kind]⟩)
  | emergency => exact absurd kind (feasibility_not_emergency filed)
  | infeasible =>
      rw [kind] at first
      dsimp only at first
      rw [knownInfeasibleGate_code] at first
      right; right
      by_cases unknownMax : inp.targetsWithUnknownMax = []
      · rw [if_neg (not_not.mpr unknownMax)] at first
        by_cases relevant : inp.relevantUnknowns = []
        · rw [if_pos relevant] at first
          exact .inl ⟨rfl, fun runs => runs.2.2 relevant, .inr first⟩
        · rw [if_neg relevant, optimisticGate_code] at first
          have runs : RunsOptimistic pyHash inp := ⟨kind, unknownMax, relevant⟩
          cases second : (search pyHash inp inp.optimisticFree inp.feasibilityPolicy).kind with
          | boundExhausted =>
              rw [second] at first
              exact .inr (.inl ⟨runs, (boundExhausted_iff filed).mp second, first⟩)
          | emergency => exact absurd second (feasibility_not_emergency filed)
          | found | infeasible =>
              rw [second] at first
              refine .inr (.inr ⟨runs, fun hits => ?_, ?_⟩)
              · rw [(boundExhausted_iff filed).mpr hits] at second
                cases second
              · first
                | exact .inl first
                | exact .inr ⟨rfl, first⟩
      · rw [if_pos unknownMax] at first
        exact .inl ⟨rfl, fun runs => unknownMax runs.2.1, .inl first⟩

/-- Gate B is complete up to its state limit: a negative verdict on capacity is never given when a
    valid assignment exists, the verdict under usable maxima holds for every resolution of the
    unknown drives, and an inconclusive verdict means that a search hit the limit. -/
theorem gateB_complete (pyHash : KeyPart → HashValue) (inp : SolverInput)
    (wellFormed : inp.WellFormed) (passes : inp.structural = none)
    (collisionFree : CollisionFree pyHash inp inp.freeMap inp.feasibilityPolicy)
    (optimisticFree : CollisionFree pyHash inp inp.optimisticFree inp.feasibilityPolicy) :
    ((∃ tasks, ValidAssignment inp inp.executableFree tasks) →
      (gateB pyHash inp).code ≠ .infeasibleUnderAdmissionBudget ∧
      (gateB pyHash inp).code ≠ .capacityEvidenceUnknown ∧
      (gateB pyHash inp).code ≠ .infeasibleWithUnknownAtUsableMax ∧
      (¬HitsLimit pyHash inp inp.freeMap → (gateB pyHash inp).code = .feasible)) ∧
    ((gateB pyHash inp).code = .infeasibleWithUnknownAtUsableMax →
      ∀ budget, Resolution inp budget → ¬∃ tasks, ValidAssignment inp budget tasks) ∧
    ((gateB pyHash inp).code = .packingInconclusive ↔
      HitsLimit pyHash inp inp.freeMap ∨
        (RunsOptimistic pyHash inp ∧ HitsLimit pyHash inp inp.optimisticFree)) := by
  have filed := wellFormed.toFiled
  have acyclic : inp.dependencyCycle = none := by
    simp only [SolverInput.structural, Option.or_eq_none_iff] at passes
    exact passes.2.2.1
  have known : ∀ {tasks}, ValidAssignment inp inp.executableFree tasks →
      (search pyHash inp inp.freeMap inp.feasibilityPolicy).kind ≠ .infeasible := by
    intro tasks valid infeasible
    have same : ValidAssignment inp (inp.freeMap.getD · 0) tasks := by
      simpa only [inp.freeMap_getD] using valid
    exact no_valid_of_infeasible wellFormed acyclic collisionFree infeasible same
  have exclusive : ∀ {free0},
      (search pyHash inp free0 inp.feasibilityPolicy).kind ≠ .boundExhausted →
      ¬HitsLimit pyHash inp free0 :=
    fun other hits => other ((boundExhausted_iff filed).mpr hits)
  rcases gateB_verdict pyHash filed passes with
    ⟨found, code⟩ | ⟨hits, code⟩ | ⟨infeasible, stops, code⟩ | ⟨runs, hits, code⟩ |
      ⟨runs, within, code⟩
  · have none : ¬HitsLimit pyHash inp inp.freeMap := exclusive (by rw [found]; simp)
    rw [code]
    refine ⟨fun _ => ⟨by simp, by simp, by simp, fun _ => rfl⟩, by simp, by simp, ?_⟩
    rintro (hits | ⟨runs, _⟩)
    · exact absurd hits none
    · rw [runs.1] at found
      cases found
  · rw [code]
    exact ⟨fun _ => ⟨by simp, by simp, by simp, fun none => absurd hits none⟩, by simp,
      fun _ => .inl hits, fun _ => rfl⟩
  · have none : ¬HitsLimit pyHash inp inp.freeMap := exclusive (by rw [infeasible]; simp)
    refine ⟨fun given => absurd infeasible (known given.choose_spec), ?_, ?_, ?_⟩
    · intro impossible
      rcases code with code | code <;> rw [code] at impossible <;> cases impossible
    · intro impossible
      rcases code with code | code <;> rw [code] at impossible <;> cases impossible
    · rintro (hits | ⟨runs, _⟩)
      · exact absurd hits none
      · exact absurd runs stops
  · rw [code]
    exact ⟨fun given => absurd runs.1 (known given.choose_spec), by simp,
      fun _ => .inr ⟨runs, hits⟩, fun _ => rfl⟩
  · have none : ¬HitsLimit pyHash inp inp.freeMap := exclusive (by rw [runs.1]; simp)
    refine ⟨fun given => absurd runs.1 (known given.choose_spec), ?_, ?_, ?_⟩
    · rintro negative budget resolution ⟨tasks, valid⟩
      rcases code with code | ⟨infeasible, _⟩
      · rw [code] at negative
        cases negative
      · exact no_valid_of_infeasible wellFormed acyclic optimisticFree infeasible
          (valid_optimistic runs.2.1 resolution valid)
    · intro impossible
      rcases code with code | ⟨_, code⟩ <;> rw [code] at impossible <;> cases impossible
    · rintro (hits | ⟨_, hits⟩)
      · exact absurd hits none
      · exact absurd hits within

end Verdicts

section Pair

variable {inp : SolverInput} {pyHash : KeyPart → HashValue}

theorem stateHashOf_perm {left right : List KeyPart} (permuted : left.Perm right) :
    stateHashOf pyHash left = stateHashOf pyHash right := by
  refine permuted.foldl_eq' ?_ 0
  intro x _ y _ hash
  rw [BitVec.xor_assoc, BitVec.xor_comm (pyHash x), ← BitVec.xor_assoc]

/-- That sets are told apart is checked on the sublists of a list of all parts. -/
theorem apartOnSets_of_parts {parts : List KeyPart} (distinct : parts.Nodup)
    (all : ∀ part, PartOf inp part → part ∈ parts)
    (injective : ∀ left ∈ parts.sublists, ∀ right ∈ parts.sublists,
      stateHashOf pyHash left = stateHashOf pyHash right → left = right) :
    ApartOnSets pyHash inp := by
  have chosen : ∀ {subset : List KeyPart}, subset.Nodup → (∀ part ∈ subset, PartOf inp part) →
      subset.Perm (parts.filter (· ∈ subset)) := by
    intro subset nodup within
    rw [List.perm_ext_iff_of_nodup nodup (distinct.filter _)]
    intro part
    rw [List.mem_filter, decide_eq_true_eq]
    exact ⟨fun member => ⟨all part (within part member), member⟩, And.right⟩
  intro left right leftNodup rightNodup leftParts rightParts same
  have leftPerm := chosen leftNodup leftParts
  have rightPerm := chosen rightNodup rightParts
  rw [stateHashOf_perm leftPerm, stateHashOf_perm rightPerm] at same
  have equal := injective _ (List.mem_sublists.mpr List.filter_sublist) _
    (List.mem_sublists.mpr List.filter_sublist) same
  intro part
  rw [leftPerm.mem_iff, equal, ← rightPerm.mem_iff]

def pairParts : List KeyPart := [
  ⟨"protected_home:m", "alpha", [("none" : String)], "fetch"⟩,
  ⟨"protected_replica:m", "beta", [("pending" : String), ("protected_home:m" : String)],
    "replicate"⟩,
  ⟨"protected_replica:m", "beta", identityKey ⟨"alpha", none, none⟩, "replicate"⟩]

theorem pairHash_apart : ApartOnSets pairHash pairInput := by
  refine @apartOnSets_of_parts _ _ pairParts (by decide) ?_ (by decide)
  rintro ⟨requirementId, targetDrive, source, taskKind⟩
    ⟨rid, c, listed, rfl, rfl, rfl, named | ⟨home, pending, h, homeListed, resolved⟩⟩
  · obtain ⟨item, among, _, member, _⟩ := SolverInput.mem_candsOf listed
    simp only [pairInput, List.mem_cons, List.not_mem_nil, or_false] at among
    rcases among with rfl | rfl <;> obtain rfl := List.mem_singleton.mp member <;>
      (dsimp only at named; subst named; decide)
  · obtain ⟨item, among, _, member, _⟩ := SolverInput.mem_candsOf listed
    obtain ⟨item', among', owner, member', _⟩ := SolverInput.mem_candsOf homeListed
    simp only [pairInput, List.mem_cons, List.not_mem_nil, or_false] at among among'
    rcases among with rfl | rfl <;> obtain rfl := List.mem_singleton.mp member
    · cases pending
    · obtain rfl := Source.pendingHome.inj (Option.some.inj pending)
      rcases among' with rfl | rfl <;> obtain rfl := List.mem_singleton.mp member'
      · dsimp only at resolved
        subst resolved
        decide
      · exact absurd owner (by decide)

theorem gateB_complete_pair :
    ((gateB pairHash pairInput).code = .packingInconclusive ↔
      HitsLimit pairHash pairInput pairInput.freeMap ∨
        (RunsOptimistic pairHash pairInput ∧
          HitsLimit pairHash pairInput pairInput.optimisticFree)) :=
  (gateB_complete pairHash pairInput pairInput_wellFormed (by decide)
    (collisionFree_of_sets pairInput_wellFormed.toFiled pairHash_apart _ _)
    (collisionFree_of_sets pairInput_wellFormed.toFiled pairHash_apart _ _)).2.2

end Pair

section Twins

def twinHome (durable : Nat) : Candidate :=
  ⟨"protected_home:a", .fetch, "alpha", none, none, [], [], ⟨durable, durable, 0, 0, []⟩, ⟨7⟩⟩

def otherHome (kind : TaskKind) : Candidate :=
  ⟨"protected_home:b", kind, "alpha", none, none, [], [], ⟨6, 6, 0, 0, []⟩, ⟨6⟩⟩

/-- Two candidates of one home that have the same part, and another home on the same drive. -/
def twinInput (free : Int) : SolverInput :=
  { pairInput with
    graph := ⟨[
      ⟨"protected_home:a", "a", .protectedHome, ["alpha"], none⟩,
      ⟨"protected_home:b", "b", .protectedHome, ["alpha"], none⟩]⟩
    candidates :=
      { pairInput.candidates with
        byRequirement := [
          ("protected_home:a", [twinHome 7, twinHome 2]),
          ("protected_home:b", [otherHome .fetch, otherHome .replicate])] }
    executableBudget := [("alpha", free), ("beta", 9)] }

/-- Gives the parts of `twinInput` different bits. -/
def twinHash (part : KeyPart) : HashValue :=
  if part.requirementId = "protected_home:a" then 1 else if part.taskKind = "fetch" then 2 else 4

def twinParts : List KeyPart := [
  ⟨"protected_home:a", "alpha", [("none" : String)], "fetch"⟩,
  ⟨"protected_home:b", "alpha", [("none" : String)], "fetch"⟩,
  ⟨"protected_home:b", "alpha", [("none" : String)], "replicate"⟩]

theorem twinHash_apart (free : Int) : ApartOnSets twinHash (twinInput free) := by
  refine @apartOnSets_of_parts _ _ twinParts (by decide) ?_ (by decide)
  rintro ⟨requirementId, targetDrive, source, taskKind⟩
    ⟨rid, c, listed, rfl, rfl, rfl, named | ⟨home, pending, _⟩⟩
  · obtain ⟨item, among, _, member, _⟩ := SolverInput.mem_candsOf listed
    simp only [twinInput, List.mem_cons, List.not_mem_nil, or_false] at among
    rcases among with rfl | rfl <;> simp only [List.mem_cons, List.not_mem_nil, or_false] at member <;>
      rcases member with rfl | rfl <;> (dsimp only at named; subst named; decide)
  · obtain ⟨item, among, _, member, _⟩ := SolverInput.mem_candsOf listed
    simp only [twinInput, List.mem_cons, List.not_mem_nil, or_false] at among
    rcases among with rfl | rfl <;> simp only [List.mem_cons, List.not_mem_nil, or_false] at member <;>
      rcases member with rfl | rfl <;> cases pending

/-- The smaller twin and the other home. -/
def twinTasks : List AssignmentTask := [
  taskOf "guaranteed" "protected_home:a" (twinHome 2) none,
  taskOf "guaranteed" "protected_home:b" (otherHome .fetch) none]

theorem twinTasks_valid {free : Int} (fits : free = 10 ∨ free = 20) :
    ValidAssignment (twinInput free) (twinInput free).executableFree twinTasks where
  ids := by rcases fits with rfl | rfl <;> decide
  candidate := by
    intro t member
    simp only [twinTasks, List.mem_cons, List.not_mem_nil, or_false] at member
    rcases member with rfl | rfl
    · exact ⟨twinHome 2, by rcases fits with rfl | rfl <;> decide, rfl, rfl⟩
    · exact ⟨otherHome .fetch, by rcases fits with rfl | rfl <;> decide, rfl, rfl⟩
  capacity := by rcases fits with rfl | rfl <;> decide
  dependency := by
    intro t member req dep found depends
    simp only [twinTasks, List.mem_cons, List.not_mem_nil, or_false] at member
    rcases member with rfl | rfl <;> cases found <;> cases depends
  domain := by
    intro t member req source hd rd found replica
    simp only [twinTasks, List.mem_cons, List.not_mem_nil, or_false] at member
    rcases member with rfl | rfl <;> cases found <;> cases replica

/-- Of two candidates with one part only the first is tried, and it leaves no room for the other home. -/
theorem gateB_misses_twin : ¬∀ (pyHash : KeyPart → HashValue) (inp : SolverInput), inp.structural = none →
    ApartOnSets pyHash inp → (∃ tasks, ValidAssignment inp inp.executableFree tasks) →
      (gateB pyHash inp).code ≠ .infeasibleUnderAdmissionBudget := by
  intro claimed
  exact claimed twinHash (twinInput 10) (by decide) (twinHash_apart 10) ⟨_, twinTasks_valid (.inl rfl)⟩
    (by decide +kernel)

end Twins

end Modelark.Placement
