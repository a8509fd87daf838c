import Modelark.Placement.Validity

/-!
# Soundness of the placement search

A complete path of the search stands for a valid assignment, whatever the state hash. Feasibility
and improvement only return such assignments.
-/

namespace Modelark.Placement

open Library Planning DepthFirst

section Loads

variable {mode : String} {source : Candidate → Option SourceIdentity} {path : List Candidate}
  {tasks : List AssignmentTask}

/-- The tasks of a path of candidates, in any order. -/
def TasksOf (mode : String) (source : Candidate → Option SourceIdentity) (path : List Candidate)
    (tasks : List AssignmentTask) : Prop :=
  tasks.Perm (path.map fun c => taskOf mode c.requirementId c (source c))

theorem TasksOf.durableOn (of : TasksOf mode source path tasks) (lab : String) :
    durableOn tasks lab = total (candDurable · mode) (onDrive path lab) := by
  rw [Placement.durableOn, total_perm (of.filter _), List.filter_map, total_map]
  rfl

theorem TasksOf.workspaceOn (of : TasksOf mode source path tasks) (lab : String) :
    workspaceOn tasks lab = peak (candWorkspace · mode) (onDrive path lab) := by
  rw [Placement.workspaceOn, peak_perm (of.filter _), List.filter_map, peak_map]
  rfl

theorem TasksOf.mem_iff (of : TasksOf mode source path tasks) {t : AssignmentTask} :
    t ∈ tasks ↔ ∃ c ∈ path, t = taskOf mode c.requirementId c (source c) := by
  rw [List.Perm.mem_iff of, List.mem_map]
  exact exists_congr fun c => and_congr_right fun _ => eq_comm

end Loads

namespace SearchContext

variable {ctx : SearchContext} {pyHash : KeyPart → HashValue} {free0 : Dict String Int}
  {path : List Candidate}

theorem keys_assignedPair (path : List Candidate) :
    (path.map assignedPair).map Prod.fst = path.map Candidate.requirementId := by
  rw [List.map_map]
  rfl

/-- Reading the snapshot of a path back lists its candidates. -/
theorem snapshot_perm (distinct : (path.map Candidate.requirementId).Nodup) :
    ((ctx.node pyHash free0 path).assigned.toList).Perm (path.map assignedPair) := by
  rw [node_assigned]
  exact Dict.toList_ofPairs_perm (by rw [keys_assignedPair]; exact distinct)

theorem node_tasksOf (distinct : (path.map Candidate.requirementId).Nodup) :
    TasksOf ctx.mode (ctx.node pyHash free0 path).resolveSource path
      ((ctx.node pyHash free0 path).toAssignment ctx.mode).tasks := by
  have snapshot : (ctx.node pyHash free0 path).assigned.toList.Perm _ := snapshot_perm distinct
  have listed := snapshot.map ((ctx.node pyHash free0 path).toTask ctx.mode)
  rw [List.map_map] at listed
  exact listed

/-- Two paths over the same candidates stand for the same assignment. -/
theorem toAssignment_perm {other : List Candidate} (permuted : path.Perm other)
    (distinct : (path.map Candidate.requirementId).Nodup) :
    (ctx.node pyHash free0 path).toAssignment ctx.mode =
      (ctx.node pyHash free0 other).toAssignment ctx.mode := by
  have assigned : (ctx.node pyHash free0 path).assigned =
      (ctx.node pyHash free0 other).assigned := by
    rw [node_assigned, node_assigned]
    exact Dict.ofPairs_perm (permuted.map _) (by rw [keys_assignedPair]; exact distinct)
  have tasks : (ctx.node pyHash free0 path).toTask ctx.mode =
      (ctx.node pyHash free0 other).toTask ctx.mode := by
    funext item
    simp only [Partial.toTask, Partial.resolveSource, assigned]
  simp only [Partial.toAssignment, assigned, tasks, node_free0, node_durableLoad,
    node_workspacePeak, onDrive, total_perm (permuted.filter _), peak_perm (permuted.filter _)]

/-- Materialising the snapshot of a path gives the path's own assignment. -/
theorem materialize_node (distinct : (path.map Candidate.requirementId).Nodup) :
    ctx.materialize pyHash free0 (ctx.node pyHash free0 path).assigned =
      (ctx.node pyHash free0 path).toAssignment ctx.mode := by
  have same : ((ctx.node pyHash free0 path).assigned.toList.map Prod.snd).Perm path := by
    have snapshot : (ctx.node pyHash free0 path).assigned.toList.Perm _ := snapshot_perm distinct
    have listed := snapshot.map Prod.snd
    rw [List.map_map] at listed
    simpa only [Function.comp_def, assignedPair, List.map_id'] using listed
  exact (toAssignment_perm same.symm distinct).symm

end SearchContext

section Valid

variable {inp : SolverInput} {pyHash : KeyPart → HashValue} {free0 : Dict String Int}
  {path : List Candidate}

theorem filed_context (filed : inp.Filed) : (inp.searchContext free0).Filed := by
  intro rid c member
  exact filed.requirementId (mem_sortBy.mp member)

theorem mem_candsOf_of_reach (filed : inp.Filed)
    (reached : ((inp.searchContext free0).space pyHash free0).Reach path) {c : Candidate}
    (member : c ∈ path) : c ∈ inp.candsOf c.requirementId :=
  mem_sortBy.mp (((SearchContext.reach_path (filed_context filed) reached).2 c member).2)

/-- A pending home is assigned before the replica that names it. -/
theorem pending_assigned (filed : inp.Filed)
    {front back : List Candidate} {c : Candidate}
    (reached : ((inp.searchContext free0).space pyHash free0).Reach (front ++ c :: back))
    {home : String} (pending : c.source = some (.pendingHome home)) :
    ∃ h ∈ front, h.requirementId = home := by
  have among := reached.choice_mem
  obtain ⟨_, _, admitted⟩ := SearchContext.ready_of_expand (filed_context filed) among
  simp only [SearchContext.admits, Bool.and_eq_true, SearchContext.pendingMet, pending,
    Bool.or_eq_true, decide_eq_true_eq] at admitted
  obtain ⟨item, listed, _, within, _⟩ := SolverInput.mem_candsOf
    (mem_candsOf_of_reach filed reached (List.mem_append_right front (List.mem_cons_self ..)))
  rcases admitted.2 with assigned | satisfied
  · obtain ⟨h, member, same⟩ := List.mem_map.mp (SearchContext.mem_assigned.mp assigned)
    exact ⟨h, member, same⟩
  · exact absurd satisfied (filed.pending item listed c within home pending).1

/-- The home a path resolves a pending source to is the one in the path. -/
theorem resolve_pending {ctx : SearchContext} (distinct : (path.map Candidate.requirementId).Nodup)
    {h c : Candidate} {home : String} (member : h ∈ path) (same : h.requirementId = home)
    (pending : c.source = some (.pendingHome home)) :
    (ctx.node pyHash free0 path).resolveSource c = some ⟨h.targetDrive, none, none⟩ := by
  have found : (ctx.node pyHash free0 path).assigned[home]? = some h :=
    (SearchContext.lookup_assigned distinct).mpr ⟨member, same⟩
  simp only [Partial.resolveSource, pending, found, Option.map_some]

/-- The source of a complete path's task, and the home drive its domain check looked at. -/
theorem resolves_of_reach (filed : inp.Filed)
    (reached : ((inp.searchContext free0).space pyHash free0).Reach path) {c : Candidate}
    (member : c ∈ path) {tasks : List AssignmentTask}
    (of : TasksOf inp.capacityMode
      ((inp.searchContext free0).node pyHash free0 path).resolveSource path tasks) :
    Resolves tasks c.source
      (((inp.searchContext free0).node pyHash free0 path).resolveSource c) := by
  have distinct := (SearchContext.reach_path (filed_context filed) reached).1
  cases source : c.source with
  | none => simp only [Resolves, Partial.resolveSource, source]
  | some named =>
      cases named with
      | identity named => simp only [Resolves, Partial.resolveSource, source]
      | pendingHome home =>
          obtain ⟨front, back, rfl⟩ := List.append_of_mem member
          obtain ⟨h, before, same⟩ := pending_assigned filed reached source
          have inPath : h ∈ front ++ c :: back := List.mem_append_left _ before
          refine ⟨_, of.mem_iff.mpr ⟨h, inPath, rfl⟩, same, ?_⟩
          exact resolve_pending distinct inPath same source

/-- The domain check at the moment a candidate was tried still speaks about the whole path. -/
theorem domain_of_reach (filed : inp.Filed)
    (reached : ((inp.searchContext free0).space pyHash free0).Reach path) {c : Candidate}
    (member : c ∈ path) {req : CopyRequirement} {source : SourceIdentity} {hd rd : DriveFact}
    (found : inp.reqById[c.requirementId]? = some req) (replica : req.kind = .protectedReplica)
    (resolved : ((inp.searchContext free0).node pyHash free0 path).resolveSource c = some source)
    (homeFact : inp.driveMap[source.driveLabel]? = some hd)
    (targetFact : inp.driveMap[c.targetDrive]? = some rd) : sameFailureDomain hd rd = false := by
  have distinct := (SearchContext.reach_path (filed_context filed) reached).1
  obtain ⟨front, back, rfl⟩ := List.append_of_mem member
  have among := reached.choice_mem
  obtain ⟨_, _, admitted⟩ := SearchContext.ready_of_expand (filed_context filed) among
  simp only [SearchContext.admits, Bool.and_eq_true] at admitted
  have checked : ((inp.searchContext free0).node pyHash free0 front).domainOk c inp.driveMap
      inp.reqById = true := admitted.1.2
  rw [Partial.domainOk, found] at checked
  simp only [replica, ne_eq, not_true_eq_false, if_false] at checked
  cases origin : c.source with
  | none => simp [Partial.resolveSource, origin] at resolved
  | some named =>
      cases named with
      | identity named =>
          simp only [Partial.resolveSource, origin, Option.some.injEq] at resolved
          subst resolved
          simpa [origin, homeFact, targetFact] using checked
      | pendingHome home =>
          obtain ⟨h, before, same⟩ := pending_assigned filed reached origin
          have inPath : h ∈ front ++ c :: back := List.mem_append_left _ before
          rw [resolve_pending distinct inPath same origin, Option.some.injEq] at resolved
          have frontDistinct : (front.map Candidate.requirementId).Nodup := by
            rw [List.map_append] at distinct
            exact (List.nodup_append.mp distinct).1
          have early : ((inp.searchContext free0).node pyHash free0 front).assigned[home]? =
              some h :=
            (SearchContext.lookup_assigned frontDistinct).mpr ⟨before, same⟩
          subst resolved
          simpa [origin, early, homeFact, targetFact] using checked

/-- A complete path of the search stands for a valid assignment. -/
theorem valid_of_reach (filed : inp.Filed)
    (unique : (inp.graph.desired.map CopyRequirement.requirementId).Nodup)
    (reached : ((inp.searchContext free0).space pyHash free0).Reach path)
    (complete : (inp.searchContext free0).complete
      ((inp.searchContext free0).node pyHash free0 path) = true) :
    ValidAssignment inp (free0.getD · 0)
      (((inp.searchContext free0).node pyHash free0 path).toAssignment inp.capacityMode).tasks := by
  have filed' : (inp.searchContext free0).Filed := filed_context filed
  have openUnique := SolverInput.nodup_unsat unique
  obtain ⟨distinct, members⟩ := SearchContext.reach_path filed' reached
  have idsPerm := SearchContext.ids_of_complete filed' openUnique reached complete
  have of : TasksOf inp.capacityMode
      ((inp.searchContext free0).node pyHash free0 path).resolveSource path
      (((inp.searchContext free0).node pyHash free0 path).toAssignment inp.capacityMode).tasks :=
    SearchContext.node_tasksOf distinct
  have idsEq : (((inp.searchContext free0).node pyHash free0 path).toAssignment
      inp.capacityMode).tasks.map AssignmentTask.requirementId = inp.unsat := by
    have keys : (((inp.searchContext free0).node pyHash free0 path).toAssignment
        inp.capacityMode).tasks.map AssignmentTask.requirementId =
        ((inp.searchContext free0).node pyHash free0 path).assigned.toList.map Prod.fst := by
      rw [Partial.toAssignment, List.map_map]
      rfl
    have sameIds : (((inp.searchContext free0).node pyHash free0 path).assigned.toList.map
        Prod.fst).Perm inp.unsat := by
      refine List.Perm.trans ?_ idsPerm
      rw [← SearchContext.keys_assignedPair]
      exact (SearchContext.snapshot_perm distinct).map Prod.fst
    rw [keys]
    refine sameIds.eq_of_pairwise (fun _ _ _ _ => le_antisymm) ?_ SolverInput.sorted_unsat
    exact List.pairwise_map.mpr ((Dict.sorted_toList _).imp fun below => le_of_lt below)
  refine ⟨idsEq, ?_, ?_, ?_, ?_⟩
  · intro t member
    obtain ⟨c, inPath, rfl⟩ := of.mem_iff.mp member
    exact ⟨c, mem_candsOf_of_reach filed reached inPath, rfl,
      resolves_of_reach filed reached inPath of⟩
  · intro t member
    obtain ⟨c, inPath, rfl⟩ := of.mem_iff.mp member
    rw [of.durableOn, of.workspaceOn]
    exact SearchContext.reach_capacity filed' reached inPath
  · intro t member req dep found needs
    obtain ⟨c, inPath, rfl⟩ := of.mem_iff.mp member
    rw [idsEq]
    obtain ⟨front, back, rfl⟩ := List.append_of_mem inPath
    obtain ⟨_, isReady, _⟩ := SearchContext.ready_of_expand filed' reached.choice_mem
    have met := (SearchContext.mem_ready.mp isReady).2.2
    have lookup : (inp.searchContext free0).reqById[c.requirementId]? = some req := found
    simp only [SearchContext.dependencyMet, lookup, Option.bind_some, needs, Bool.or_eq_true,
      decide_eq_true_eq] at met
    rcases met with assigned | satisfied
    · left
      refine idsPerm.mem_iff.mp ?_
      rw [List.map_append]
      exact List.mem_append_left _ (SearchContext.mem_assigned.mp assigned)
    · exact .inr satisfied
  · intro t member req source hd rd found replica resolved homeFact targetFact
    obtain ⟨c, inPath, rfl⟩ := of.mem_iff.mp member
    exact domain_of_reach filed reached inPath found replica resolved homeFact targetFact

end Valid

section Results

variable {inp : SolverInput} {pyHash : KeyPart → HashValue} {free0 : Dict String Int}

/-- A snapshot taken at a complete node of the search. -/
def CompleteAt (inp : SolverInput) (pyHash : KeyPart → HashValue) (free0 : Dict String Int)
    (path : List Candidate) (snap : Dict String Candidate) : Prop :=
  ((inp.searchContext free0).space pyHash free0).Reach path ∧
    (inp.searchContext free0).complete ((inp.searchContext free0).node pyHash free0 path) = true ∧
    snap = ((inp.searchContext free0).node pyHash free0 path).assigned

/-- A record holds snapshots of complete nodes, with the score of the best one, which is no worse
    than the first. -/
def RecordSpec (inp : SolverInput) (pyHash : KeyPart → HashValue) (free0 : Dict String Int)
    (kept : Option Found) : Prop :=
  ∀ found, kept = some found →
    (∃ path, CompleteAt inp pyHash free0 path found.first ∧ scoreKey found.bestScore ≤
        scoreKey (((inp.searchContext free0).node pyHash free0 path).scorePartial
          inp.capacityMode inp.unsatCandidateTargets inp.preference)) ∧
      ∃ path, CompleteAt inp pyHash free0 path found.best ∧
        found.bestScore = ((inp.searchContext free0).node pyHash free0 path).scorePartial
          inp.capacityMode inp.unsatCandidateTargets inp.preference

theorem lawful_space (filed : inp.Filed) :
    ((inp.searchContext free0).space pyHash free0).Lawful :=
  SearchContext.lawful (filed_context filed)

theorem record_spec (filed : inp.Filed) {policy : Policy} :
    RecordSpec inp pyHash free0 ((inp.searchContext free0).walk pyHash free0 policy).record := by
  refine record_invariant (lawful_space filed) (RecordSpec inp pyHash free0) nofun ?_
  intro kept path choice good reached complete found same
  have here : CompleteAt inp pyHash free0 (path ++ [choice])
      ((inp.searchContext free0).node pyHash free0 (path ++ [choice])).assigned :=
    ⟨reached, complete, rfl⟩
  change (inp.searchContext free0).recordComplete kept _ = some found at same
  rw [SearchContext.recordComplete.eq_def] at same
  cases kept with
  | none =>
      obtain rfl := Option.some.inj same
      exact ⟨⟨_, here, le_refl _⟩, _, here, rfl⟩
  | some before =>
      dsimp only at same
      split_ifs at same with better
      · obtain rfl := Option.some.inj same
        obtain ⟨⟨first, firstAt, ahead⟩, _⟩ := good before rfl
        exact ⟨⟨first, firstAt, better.le.trans ahead⟩, _, here, rfl⟩
      · obtain rfl := Option.some.inj same
        exact good before rfl

theorem materialize_valid (filed : inp.Filed)
    (unique : (inp.graph.desired.map CopyRequirement.requirementId).Nodup)
    {path : List Candidate} {snap : Dict String Candidate}
    (complete : CompleteAt inp pyHash free0 path snap) :
    ValidAssignment inp (free0.getD · 0)
      ((inp.searchContext free0).materialize pyHash free0 snap).tasks := by
  obtain ⟨reached, complete, rfl⟩ := complete
  have distinct := (SearchContext.reach_path (filed_context filed) reached).1
  rw [SearchContext.materialize_node distinct]
  exact valid_of_reach filed unique reached complete

/-- With no open requirement the empty assignment is valid. -/
theorem valid_of_no_open {budget : String → Int} {node : Partial} (none : inp.unsat = [])
    (empty : node.assigned = ∅) :
    ValidAssignment inp budget (node.toAssignment inp.capacityMode).tasks := by
  have tasks : (node.toAssignment inp.capacityMode).tasks = [] := by
    rw [Partial.toAssignment, empty]
    rfl
  rw [tasks]
  exact ⟨none.symm, nofun, nofun, nofun, nofun⟩

/-- Whatever a search returns is a valid assignment under its budgets. -/
theorem search_valid (filed : inp.Filed)
    (unique : (inp.graph.desired.map CopyRequirement.requirementId).Nodup) {policy : Policy}
    {asn : CanonicalAssignment}
    (returned : (search pyHash inp free0 policy).first = some asn ∨
      (search pyHash inp free0 policy).best = some asn) :
    ValidAssignment inp (free0.getD · 0) asn.tasks := by
  rw [search] at returned
  split_ifs at returned with none
  · rw [or_self, Option.some.injEq] at returned
    subst returned
    exact valid_of_no_open (List.isEmpty_iff.mp none) rfl
  · rw [SearchContext.searchResult] at returned
    cases recorded : ((inp.searchContext free0).walk pyHash free0 policy).record with
    | none =>
        simp only [recorded, Option.map_none] at returned
        split at returned <;> simp at returned
    | some found =>
        obtain ⟨⟨_, first, _⟩, _, best, _⟩ := record_spec filed found recorded
        simp only [recorded, Option.map_some] at returned
        split at returned
        · simp at returned
        all_goals
          rcases returned with same | same <;> rw [Option.some.injEq] at same <;> subst same
          · exact materialize_valid filed unique first
          · exact materialize_valid filed unique best

end Results

end Modelark.Placement
