import Modelark.Placement.Search
import Modelark.Library.DepthFirstRules

/-!
# Nodes along a path of the search

The incremental fields of a search node are functions of the path of candidates that led to it, and
`pop` undoes `push`. From this the placement search satisfies the laws of a search space.
-/

namespace Modelark.Placement

open Library Planning DepthFirst

/-- The candidates of a path whose target is a given drive. -/
def onDrive (path : List Candidate) (lab : String) : List Candidate :=
  path.filter (·.targetDrive == lab)

theorem onDrive_snoc (path : List Candidate) (c : Candidate) (lab : String) :
    onDrive (path ++ [c]) lab = onDrive path lab ++ if c.targetDrive = lab then [c] else [] := by
  rw [onDrive, List.filter_append, ← onDrive]
  by_cases here : c.targetDrive = lab
  · rw [if_pos here, List.filter_cons_of_pos (by simpa using here), List.filter_nil]
  · rw [if_neg here, List.filter_cons_of_neg (by simpa using here), List.filter_nil]

theorem mem_onDrive {path : List Candidate} {lab : String} {c : Candidate} :
    c ∈ onDrive path lab ↔ c ∈ path ∧ c.targetDrive = lab := by
  rw [onDrive, List.mem_filter, beq_iff_eq]

def assignedPair (c : Candidate) : String × Candidate :=
  (c.requirementId, c)

namespace Partial

variable {pyHash : KeyPart → HashValue} {mode : String}

/-- Every drive in the usage count is used. -/
def Tallied (node : Partial) : Prop :=
  ∀ (lab : String) (count : Nat), node.usedDrives[lab]? = some count → 0 < count

theorem pop_push {node : Partial} {c : Candidate} (unassigned : c.requirementId ∉ node.assigned)
    (tallied : node.Tallied) : (node.push pyHash mode c).pop = node := by
  obtain ⟨assigned, durableLoad, workspacePeak, free0, undo, stateHash, movement, used⟩ := node
  have backUsed : (if (used.insert c.targetDrive (used.getD c.targetDrive 0 + 1)).getD
        c.targetDrive 1 - 1 = 0
      then (used.insert c.targetDrive (used.getD c.targetDrive 0 + 1)).erase c.targetDrive
      else (used.insert c.targetDrive (used.getD c.targetDrive 0 + 1)).insert c.targetDrive
        ((used.insert c.targetDrive (used.getD c.targetDrive 0 + 1)).getD c.targetDrive 1 - 1)) =
      used := by
    have count : (used.insert c.targetDrive (used.getD c.targetDrive 0 + 1)).getD
        c.targetDrive 1 - 1 = used.getD c.targetDrive 0 := by
      rw [Dict.getD_eq, Dict.lookup_insert_self, Option.getD_some, Nat.add_sub_cancel]
    rw [count]
    cases found : used[c.targetDrive]? with
    | none =>
        rw [Dict.getD_eq, found, Option.getD_none, if_pos rfl]
        exact Dict.erase_insert_of_not_mem _ (Dict.not_mem_iff_lookup.mpr found)
    | some n =>
        rw [Dict.getD_eq, found, Option.getD_some, if_neg (tallied _ _ found).ne']
        exact Dict.insert_insert_of_lookup _ found
  simp only [push, pop, Partial.mk.injEq, Function.update_idem, Function.update_eq_self,
    Nat.add_sub_cancel, BitVec.xor_assoc, BitVec.xor_self, BitVec.xor_zero, true_and]
  exact ⟨Dict.erase_insert_of_not_mem c unassigned, backUsed⟩

end Partial

namespace SearchContext

variable (ctx : SearchContext) (pyHash : KeyPart → HashValue) (free0 : Dict String Int)

/-- The node of a path. -/
def node (path : List Candidate) : Partial :=
  (ctx.space pyHash free0).nodeAt path

variable {ctx pyHash free0}

theorem node_snoc (path : List Candidate) (c : Candidate) :
    ctx.node pyHash free0 (path ++ [c]) = (ctx.node pyHash free0 path).push pyHash ctx.mode c :=
  (ctx.space pyHash free0).nodeAt_snoc path c

theorem node_assigned (path : List Candidate) :
    (ctx.node pyHash free0 path).assigned = Dict.ofPairs (path.map assignedPair) := by
  induction path using List.reverseRecOn with
  | nil => rfl
  | append_singleton path c ih =>
      rw [node_snoc, List.map_append, List.map_singleton, Dict.ofPairs_append_singleton, ← ih]
      rfl

theorem node_free0 (path : List Candidate) : (ctx.node pyHash free0 path).free0 = free0 := by
  induction path using List.reverseRecOn with
  | nil => rfl
  | append_singleton path c ih => rw [node_snoc]; exact ih

theorem node_movement (path : List Candidate) :
    (ctx.node pyHash free0 path).movement =
      total (fun c => c.movementCost.transferBytes) path := by
  induction path using List.reverseRecOn with
  | nil => rfl
  | append_singleton path c ih =>
      rw [node_snoc, total_append, ← ih, total_cons, total_nil, Nat.add_zero]
      rfl

theorem node_durableLoad (path : List Candidate) (lab : String) :
    (ctx.node pyHash free0 path).durableLoad lab =
      total (candDurable · ctx.mode) (onDrive path lab) := by
  induction path using List.reverseRecOn with
  | nil => rfl
  | append_singleton path c ih =>
      rw [node_snoc, onDrive_snoc, total_append, ← ih]
      by_cases here : c.targetDrive = lab
      · subst here
        rw [if_pos rfl, total_cons, total_nil, Nat.add_zero]
        exact Function.update_self ..
      · rw [if_neg here, total_nil, Nat.add_zero]
        exact Function.update_of_ne (Ne.symm here) _ _

theorem node_workspacePeak (path : List Candidate) (lab : String) :
    (ctx.node pyHash free0 path).workspacePeak lab =
      peak (candWorkspace · ctx.mode) (onDrive path lab) := by
  induction path using List.reverseRecOn with
  | nil => rfl
  | append_singleton path c ih =>
      rw [node_snoc, onDrive_snoc, peak_append, ← ih]
      by_cases here : c.targetDrive = lab
      · subst here
        rw [if_pos rfl, peak_cons, peak_nil, Nat.max_zero]
        exact Function.update_self ..
      · rw [if_neg here, peak_nil, Nat.max_zero]
        exact Function.update_of_ne (Ne.symm here) _ _

/-- A candidate fits a node when the path extended by it keeps within the drive's budget. -/
theorem node_fits (path : List Candidate) (c : Candidate) :
    (ctx.node pyHash free0 path).fits c ctx.mode = true ↔
      ((total (candDurable · ctx.mode) (onDrive (path ++ [c]) c.targetDrive) +
        peak (candWorkspace · ctx.mode) (onDrive (path ++ [c]) c.targetDrive) : Nat) : Int) ≤
      free0.getD c.targetDrive 0 := by
  rw [Partial.fits, decide_eq_true_eq, node_free0, node_durableLoad, node_workspacePeak,
    onDrive_snoc, if_pos rfl, total_append, peak_append, total_cons, total_nil, peak_cons,
    peak_nil, Nat.add_zero, Nat.max_zero]

theorem node_usedDrives (path : List Candidate) (lab : String) :
    (ctx.node pyHash free0 path).usedDrives[lab]? =
      if (onDrive path lab).length = 0 then none else some (onDrive path lab).length := by
  induction path using List.reverseRecOn with
  | nil => exact Dict.lookup_empty lab
  | append_singleton path c ih =>
      have pushed : (ctx.node pyHash free0 (path ++ [c])).usedDrives =
          (ctx.node pyHash free0 path).usedDrives.insert c.targetDrive
            ((ctx.node pyHash free0 path).usedDrives.getD c.targetDrive 0 + 1) := by
        rw [node_snoc]
        rfl
      rw [pushed, Dict.lookup_insert, onDrive_snoc, List.length_append]
      by_cases here : c.targetDrive = lab
      · subst here
        rw [if_pos rfl, if_pos rfl, Dict.getD_eq, ih, List.length_singleton,
          if_neg (Nat.succ_ne_zero _)]
        split_ifs with none
        · rw [none]; rfl
        · rfl
      · rw [if_neg here, if_neg here, ih, List.length_nil, Nat.add_zero]

theorem node_tallied (path : List Candidate) : (ctx.node pyHash free0 path).Tallied := by
  intro lab count found
  rw [node_usedDrives] at found
  split_ifs at found with none
  rw [← Option.some.inj found]
  exact Nat.pos_of_ne_zero none

/-- Candidates are filed under their own requirement. -/
def Filed (ctx : SearchContext) : Prop :=
  ∀ rid, ∀ c ∈ ctx.sortedCands rid, c.requirementId = rid

/-- What it takes for a candidate to be among the choices of a node. -/
theorem expand_spec {node : Partial} {c : Candidate} (among : c ∈ ctx.expand node) :
    ∃ rid rest, sortBy ctx.orderKey (ctx.ready node) = rid :: rest ∧
      c ∈ ctx.sortedCands rid ∧ ctx.admits node c = true := by
  rw [expand] at among
  split_ifs at among
  · exact absurd among List.not_mem_nil
  · split at among
    · exact absurd among List.not_mem_nil
    · rename_i rid rest least
      obtain ⟨listed, admitted⟩ := List.mem_filter.mp among
      exact ⟨rid, rest, least, listed, admitted⟩

theorem ready_of_expand {node : Partial} {c : Candidate} (filed : ctx.Filed)
    (among : c ∈ ctx.expand node) :
    c ∈ ctx.sortedCands c.requirementId ∧ c.requirementId ∈ ctx.ready node ∧
      ctx.admits node c = true := by
  obtain ⟨rid, rest, least, listed, admitted⟩ := expand_spec among
  obtain rfl := filed rid c listed
  have first : c.requirementId ∈ sortBy ctx.orderKey (ctx.ready node) := by
    rw [least]
    exact List.mem_cons_self ..
  exact ⟨listed, mem_sortBy.mp first, admitted⟩

theorem mem_ready {node : Partial} {rid : String} :
    rid ∈ ctx.ready node ↔
      rid ∈ ctx.unsat ∧ rid ∉ node.assigned ∧ ctx.dependencyMet node rid = true := by
  simp only [ready, List.mem_filter, Bool.and_eq_true, decide_eq_true_eq]

theorem expand_eq_nil_of_complete {node : Partial} (complete : ctx.complete node = true) :
    ctx.expand node = [] := by
  have none : ctx.ready node = [] := by
    rw [List.eq_nil_iff_forall_not_mem]
    intro rid member
    obtain ⟨isOpen, unassigned, _⟩ := mem_ready.mp member
    exact unassigned (of_decide_eq_true (List.all_eq_true.mp complete rid isOpen))
  rw [expand, none]
  split_ifs <;> rfl

/-- The placement search obeys the laws of a search space. -/
theorem lawful (filed : ctx.Filed) : (ctx.space pyHash free0).Lawful where
  pop_push := by
    intro path c _ among
    obtain ⟨_, isReady, _⟩ := ready_of_expand filed among
    exact Partial.pop_push (mem_ready.mp isReady).2.1 (node_tallied path)
  complete_leaf := fun _ complete => expand_eq_nil_of_complete complete

section Reached

variable {path : List Candidate}

theorem mem_assigned {rid : String} : rid ∈ (ctx.node pyHash free0 path).assigned ↔
    rid ∈ path.map Candidate.requirementId := by
  rw [node_assigned, Dict.mem_ofPairs, List.mem_map]
  constructor
  · rintro ⟨c, member⟩
    obtain ⟨c', listed, same⟩ := List.mem_map.mp member
    exact ⟨c', listed, congrArg Prod.fst same⟩
  · rintro ⟨c, listed, rfl⟩
    exact ⟨c, List.mem_map_of_mem listed⟩

/-- A path assigns every requirement at most once, and only open requirements. -/
theorem reach_path (filed : ctx.Filed) (reached : (ctx.space pyHash free0).Reach path) :
    (path.map Candidate.requirementId).Nodup ∧
      ∀ c ∈ path, c.requirementId ∈ ctx.unsat ∧ c ∈ ctx.sortedCands c.requirementId := by
  induction reached with
  | root => exact ⟨List.nodup_nil, nofun⟩
  | @snoc path c _ among ih =>
      obtain ⟨listed, isReady, _⟩ := ready_of_expand filed among
      obtain ⟨isOpen, unassigned, _⟩ := mem_ready.mp isReady
      refine ⟨?_, ?_⟩
      · rw [List.map_append, List.map_singleton, ← List.concat_eq_append, List.nodup_concat]
        exact ⟨fun member => unassigned (mem_assigned.mpr member), ih.1⟩
      · intro other member
        rcases List.mem_append.mp member with old | new
        · exact ih.2 other old
        · rw [List.mem_singleton.mp new]
          exact ⟨isOpen, listed⟩

theorem lookup_assigned (distinct : (path.map Candidate.requirementId).Nodup) {rid : String}
    {c : Candidate} :
    (ctx.node pyHash free0 path).assigned[rid]? = some c ↔ c ∈ path ∧ c.requirementId = rid := by
  have keys : (path.map assignedPair).map Prod.fst = path.map Candidate.requirementId := by
    rw [List.map_map]
    rfl
  rw [node_assigned, Dict.lookup_ofPairs (by rw [keys]; exact distinct), List.mem_map]
  constructor
  · rintro ⟨c', listed, same⟩
    obtain ⟨rfl, rfl⟩ := Prod.mk.inj same
    exact ⟨listed, rfl⟩
  · rintro ⟨listed, rfl⟩
    exact ⟨c, listed, rfl⟩

/-- Every drive a path uses has room for the path's load and its largest workspace. -/
theorem reach_capacity (filed : ctx.Filed) (reached : (ctx.space pyHash free0).Reach path)
    {c : Candidate} (member : c ∈ path) :
    ((total (candDurable · ctx.mode) (onDrive path c.targetDrive) +
        peak (candWorkspace · ctx.mode) (onDrive path c.targetDrive) : Nat) : Int) ≤
      free0.getD c.targetDrive 0 := by
  induction reached generalizing c with
  | root => exact absurd member List.not_mem_nil
  | @snoc path new _ among ih =>
      by_cases here : new.targetDrive = c.targetDrive
      · have admitted := (ready_of_expand filed among).2.2
        simp only [admits, Bool.and_eq_true] at admitted
        have room := (node_fits path new).mp admitted.1.1
        rw [here] at room
        exact room
      · rw [onDrive_snoc, if_neg here, List.append_nil]
        rcases List.mem_append.mp member with old | last
        · exact ih old
        · exact absurd (congrArg Candidate.targetDrive (List.mem_singleton.mp last)).symm here

theorem complete_iff : ctx.complete (ctx.node pyHash free0 path) = true ↔
    ∀ rid ∈ ctx.unsat, rid ∈ path.map Candidate.requirementId := by
  simp only [complete, List.all_eq_true, decide_eq_true_eq, mem_assigned]

/-- A complete path assigns exactly the open requirements. -/
theorem ids_of_complete (filed : ctx.Filed) (unique : ctx.unsat.Nodup)
    (reached : (ctx.space pyHash free0).Reach path)
    (complete : ctx.complete (ctx.node pyHash free0 path) = true) :
    (path.map Candidate.requirementId).Perm ctx.unsat := by
  obtain ⟨distinct, members⟩ := reach_path filed reached
  rw [List.perm_ext_iff_of_nodup distinct unique]
  intro rid
  constructor
  · intro member
    obtain ⟨c, listed, rfl⟩ := List.mem_map.mp member
    exact (members c listed).1
  · exact complete_iff.mp complete rid

theorem branches (narrow : ∀ rid, (ctx.sortedCands rid).length ≤ ctx.branch) :
    Branches (ctx.space pyHash free0) ctx.branch := by
  intro path _
  change (ctx.expand _).length ≤ _
  rw [expand]
  split_ifs
  · exact Nat.zero_le _
  · split
    · exact Nat.zero_le _
    · exact (List.length_filter_le _ _).trans (narrow _)

end Reached

end SearchContext

end Modelark.Placement
