import Modelark.Placement.Completeness

/-!
# Optimality of improvement

The incremental score of a complete node is the score of its assignment. Improvement therefore never
reports a worse score than it was given, and an improvement that was not cut short is minimal over
all valid assignments.
-/

namespace Modelark.Placement

open Library Planning DepthFirst

section Scores

variable {inp : SolverInput} {pyHash : KeyPart → HashValue} {free0 : Dict String Int}
  {path : List Candidate}

/-- The tasks of a node are listed in requirement order. -/
theorem tasks_sorted (node : Partial) (mode : String) :
    sortBy AssignmentTask.requirementId (node.toAssignment mode).tasks =
      (node.toAssignment mode).tasks := by
  refine sortBy_of_pairwise ?_
  rw [Partial.toAssignment]
  exact List.pairwise_map.mpr ((Dict.sorted_toList node.assigned).imp fun below => le_of_lt below)

/-- The drives in use and the idle ones make up the candidate targets. -/
theorem idle_eq {ctx : SearchContext} {targets : List String} (distinct : targets.Nodup)
    (within : ∀ c ∈ path, c.targetDrive ∈ targets) :
    ((targets.length : Int) - ((ctx.node pyHash free0 path).usedDrives.size : Int)) =
      ((targets.filter (· ∉ path.map Candidate.targetDrive)).length : Int) := by
  have keys : ((ctx.node pyHash free0 path).usedDrives.toList.map Prod.fst).Perm
      (targets.filter (· ∈ path.map Candidate.targetDrive)) := by
    rw [List.perm_ext_iff_of_nodup (Dict.nodup_keys_toList _) (distinct.filter _)]
    intro lab
    rw [List.mem_map, List.mem_filter, decide_eq_true_eq]
    constructor
    · rintro ⟨⟨lab, count⟩, listed, rfl⟩
      have found := Dict.mem_toList.mp listed
      rw [SearchContext.node_usedDrives] at found
      split_ifs at found with none
      obtain ⟨c, here⟩ := List.exists_mem_of_length_pos (Nat.pos_of_ne_zero none)
      obtain ⟨member, target⟩ := mem_onDrive.mp here
      subst target
      exact ⟨within c member, List.mem_map_of_mem member⟩
    · rintro ⟨_, used⟩
      obtain ⟨c, member, rfl⟩ := List.mem_map.mp used
      have some : (onDrive path c.targetDrive).length ≠ 0 :=
        (List.length_pos_of_mem (mem_onDrive.mpr ⟨member, rfl⟩)).ne'
      refine ⟨(c.targetDrive, (onDrive path c.targetDrive).length), ?_, rfl⟩
      rw [Dict.mem_toList, SearchContext.node_usedDrives, if_neg some]
  have size := keys.length_eq
  rw [List.length_map, Std.ExtTreeMap.length_toList] at size
  have split := List.length_eq_length_filter_add (l := targets)
    (fun lab => decide (lab ∈ path.map Candidate.targetDrive))
  rw [size]
  simp only [decide_not]
  omega

/-- The incremental score of a node is the score of the assignment it stands for. -/
theorem scorePartial_eq {ctx : SearchContext} {targets : List String}
    (distinct : (path.map Candidate.requirementId).Nodup)
    (within : ∀ c ∈ path, c.targetDrive ∈ targets) (preference : Option SuccessorPreference) :
    (ctx.node pyHash free0 path).scorePartial ctx.mode (sortedSet targets) preference =
      score ((ctx.node pyHash free0 path).toAssignment ctx.mode) free0 (sortedSet targets)
        preference := by
  have of : TasksOf ctx.mode (ctx.node pyHash free0 path).resolveSource path
      ((ctx.node pyHash free0 path).toAssignment ctx.mode).tasks :=
    SearchContext.node_tasksOf distinct
  have used : ∀ lab, lab ∈ ((ctx.node pyHash free0 path).toAssignment ctx.mode).tasks.map
      AssignmentTask.targetDrive ↔ lab ∈ path.map Candidate.targetDrive := by
    intro lab
    rw [(of.map AssignmentTask.targetDrive).mem_iff, List.map_map]
    rfl
  rw [Partial.scorePartial, score, Score.mk.injEq]
  refine ⟨?_, ?_, ?_, ?_, ?_⟩
  · rw [SearchContext.node_movement, total_perm of, total_map]
    rfl
  · cases preference with
    | none => rfl
    | some pref =>
        have changed : ((ctx.node pyHash free0 path).toAssignment ctx.mode).tasks.filter
              (fun t => movedFrom pref.baseline t.requirementId t.targetDrive) =
            ((ctx.node pyHash free0 path).assigned.toList.filter fun entry =>
              movedFrom pref.baseline entry.1 entry.2.targetDrive).map
                ((ctx.node pyHash free0 path).toTask ctx.mode) := by
          rw [Partial.toAssignment, List.filter_map]
          rfl
        simp only [Option.map_some, changed, SearchContext.node_durableLoad, of.durableOn,
          List.length_map, total_map]
        rfl
  · rw [sortedSet_sortedSet]
    congr 1
    refine List.map_congr_left fun lab _ => ?_
    rw [SearchContext.node_free0, SearchContext.node_durableLoad,
      SearchContext.node_workspacePeak, of.durableOn, of.workspaceOn]
  · rw [idle_eq (nodup_sortedSet targets) (fun c member => mem_sortedSet.mpr (within c member)),
      sortedSet_sortedSet]
    simp only [used]
  · rw [tasks_sorted, Partial.toAssignment, List.map_map]
    rfl

theorem targets_within (filed : inp.Filed)
    (reached : ((inp.searchContext free0).space pyHash free0).Reach path) {c : Candidate}
    (member : c ∈ path) : c.targetDrive ∈ inp.unsat.flatMap fun rid =>
      (inp.candsOf rid).map Candidate.targetDrive := by
  have isOpen := ((SearchContext.reach_path (filed_context filed) reached).2 c member).1
  exact List.mem_flatMap.mpr ⟨_, isOpen,
    List.mem_map_of_mem (mem_candsOf_of_reach filed reached member)⟩

/-- A complete path uses a candidate target. -/
theorem scoreTargets_eq (filed : inp.Filed) (some : inp.unsat ≠ [])
    (reached : ((inp.searchContext free0).space pyHash free0).Reach path)
    (complete : (inp.searchContext free0).complete
      ((inp.searchContext free0).node pyHash free0 path) = true) :
    inp.scoreTargets = inp.unsatCandidateTargets := by
  obtain ⟨c, rest, rfl⟩ := List.exists_cons_of_ne_nil (ne_nil_of_complete some complete)
  have target : c.targetDrive ∈ inp.unsatCandidateTargets :=
    mem_sortedSet.mpr (targets_within filed reached (List.mem_cons_self ..))
  have nonempty : inp.unsatCandidateTargets.isEmpty = false := by
    rw [List.isEmpty_eq_false_iff]
    exact List.ne_nil_of_mem target
  rw [SolverInput.scoreTargets, nonempty]
  rfl

/-- The score of a complete node is the score of its assignment as improvement recomputes it. -/
theorem score_of_complete (filed : inp.Filed) (some : inp.unsat ≠ [])
    (reached : ((inp.searchContext free0).space pyHash free0).Reach path)
    (complete : (inp.searchContext free0).complete
      ((inp.searchContext free0).node pyHash free0 path) = true) :
    ((inp.searchContext free0).node pyHash free0 path).scorePartial inp.capacityMode
        inp.unsatCandidateTargets inp.preference =
      score (((inp.searchContext free0).node pyHash free0 path).toAssignment inp.capacityMode)
        free0 inp.scoreTargets inp.preference := by
  have distinct := (SearchContext.reach_path (filed_context filed) reached).1
  rw [scoreTargets_eq filed some reached complete]
  exact scorePartial_eq distinct (fun c member => targets_within filed reached member) _

end Scores

section Paths

variable {inp : SolverInput} {pyHash : KeyPart → HashValue} {free0 : Dict String Int}
  {tasks : List AssignmentTask} {pick : AssignmentTask → Candidate} {path : List Candidate}

/-- Tasks in the same requirement order are equal when tasks of one requirement are. -/
theorem tasks_ext {left right : List AssignmentTask}
    (ids : left.map AssignmentTask.requirementId = right.map AssignmentTask.requirementId)
    (same : ∀ t ∈ left, ∀ t' ∈ right, t.requirementId = t'.requirementId → t = t') :
    left = right := by
  induction left generalizing right with
  | nil => exact (List.map_eq_nil_iff.mp ids.symm).symm
  | cons t left ih =>
      cases right with
      | nil => cases ids
      | cons t' right =>
          obtain ⟨first, rest⟩ := List.cons.inj ids
          rw [same t (List.mem_cons_self ..) t' (List.mem_cons_self ..) first]
          refine congrArg (t' :: ·) (ih rest fun u member u' member' => ?_)
          exact same u (List.mem_cons_of_mem _ member) u' (List.mem_cons_of_mem _ member')

/-- The complete path along a valid assignment stands for that assignment. -/
theorem tasks_of_path (wellFormed : inp.WellFormed)
    (valid : ValidAssignment inp (free0.getD · 0) tasks) (picks : Picks inp tasks pick)
    (reached : ((inp.searchContext free0).space pyHash free0).Reach path)
    (within : path ⊆ tasks.map pick)
    (complete : (inp.searchContext free0).complete
      ((inp.searchContext free0).node pyHash free0 path) = true) :
    (((inp.searchContext free0).node pyHash free0 path).toAssignment inp.capacityMode).tasks =
      tasks := by
  have filed := wellFormed.toFiled
  have distinct := (SearchContext.reach_path (filed_context filed) reached).1
  have validPath := valid_of_reach filed wellFormed.uniqueIds reached complete
  have of : TasksOf inp.capacityMode
      ((inp.searchContext free0).node pyHash free0 path).resolveSource path
      (((inp.searchContext free0).node pyHash free0 path).toAssignment inp.capacityMode).tasks :=
    SearchContext.node_tasksOf distinct
  -- a task of the path and a task of the assignment with one requirement have one candidate
  have candidate : ∀ {c t}, c ∈ path → t ∈ tasks → c.requirementId = t.requirementId →
      c = pick t :=
    fun member task same => eq_pick wellFormed valid picks (within member) task same.symm
  refine tasks_ext (validPath.ids.trans valid.ids.symm) ?_
  intro t member t' task same
  obtain ⟨c, inPath, rfl⟩ := of.mem_iff.mp member
  have isPick := candidate inPath task same
  have resolved := resolves_of_reach filed reached inPath of
  have resolves := (picks t' task).resolves
  rw [(picks t' task).task, ← isPick]
  have sources : ((inp.searchContext free0).node pyHash free0 path).resolveSource c =
      t'.source := by
    rw [← isPick] at resolves
    cases origin : c.source with
    | none =>
        rw [origin] at resolved resolves
        exact Eq.trans resolved (Eq.symm resolves)
    | some named =>
        rw [origin] at resolved resolves
        cases named with
        | identity named => exact Eq.trans resolved (Eq.symm resolves)
        | pendingHome home =>
            obtain ⟨h, listed, homeId, source⟩ := resolved
            obtain ⟨h', listed', homeId', source'⟩ := resolves
            obtain ⟨d, dPath, rfl⟩ := of.mem_iff.mp listed
            have homePick := candidate dPath listed' (homeId.trans homeId'.symm)
            rw [source, source', (picks h' listed').targetDrive, ← homePick]
            rfl
  have ids : c.requirementId = t'.requirementId := same
  rw [sources, ids]

end Paths

section Improvement

variable {inp : SolverInput} {pyHash : KeyPart → HashValue} {free0 : Dict String Int}
  {policy : Policy}

/-- What a search reports of its best assignment: its score is that of the assignment, and it is
    no worse than the first one. -/
theorem search_best (filed : inp.Filed) {best : CanonicalAssignment} {bestScore : Score}
    (found : (search pyHash inp free0 policy).best = some best)
    (scored : (search pyHash inp free0 policy).bestScore = some bestScore)
    (budgets : inp.unsat = [] → free0 = inp.freeMap) :
    bestScore = score best free0 inp.scoreTargets inp.preference ∧
      ∃ first, (search pyHash inp free0 policy).first = some first ∧
        scoreKey bestScore ≤ scoreKey (score first free0 inp.scoreTargets inp.preference) := by
  rw [search] at found scored ⊢
  split_ifs at found scored ⊢ with none
  · obtain rfl := Option.some.inj found
    obtain rfl := Option.some.inj scored
    have nil := List.isEmpty_iff.mp none
    have targets : inp.scoreTargets = free0.keys := by
      rw [SolverInput.scoreTargets, SolverInput.unsatCandidateTargets, nil, budgets nil]
      rfl
    rw [targets]
    exact ⟨rfl, _, rfl, le_refl _⟩
  · have some : inp.unsat ≠ [] := fun nil => none (by rw [nil]; rfl)
    rw [SearchContext.searchResult] at found scored ⊢
    cases recorded : ((inp.searchContext free0).walk pyHash free0 policy).record with
    | none =>
        simp only [recorded, Option.map_none] at found
        split at found <;> cases found
    | some kept =>
        obtain ⟨⟨first, ⟨reach, complete, firstSnap⟩, ahead⟩, path, ⟨reach', complete', bestSnap⟩,
          bestScored⟩ := record_spec filed kept recorded
        have distinct := (SearchContext.reach_path (filed_context filed) reach).1
        have distinct' := (SearchContext.reach_path (filed_context filed) reach').1
        simp only [recorded, Option.map_some] at found scored ⊢
        split at found
        · cases found
        all_goals
          rename_i status
          simp only [status] at scored ⊢
          obtain rfl := Option.some.inj found
          obtain rfl := Option.some.inj scored
          rw [bestSnap, firstSnap, SearchContext.materialize_node distinct,
            SearchContext.materialize_node distinct']
          refine ⟨bestScored.trans (score_of_complete filed some reach' complete'), _, rfl, ?_⟩
          refine ahead.trans (le_of_eq (congrArg scoreKey ?_))
          exact score_of_complete filed some reach complete

theorem keepsFirst (ctx : SearchContext) :
    KeepsFirst (ctx.space pyHash free0) (Option.map Found.first) Partial.assigned where
  blank := rfl
  opens := by
    intro kept node none
    rw [Option.map_eq_none_iff] at none
    rw [none]
    rfl
  keeps := by
    intro kept node item known
    obtain ⟨found, rfl, rfl⟩ := Option.map_eq_some_iff.mp known
    change (ctx.recordComplete (some found) node).map Found.first = _
    rw [SearchContext.recordComplete.eq_def]
    dsimp only
    split_ifs <;> rfl

/-- Searches of one input under two policies return the same first assignment. -/
theorem first_assignment_eq (filed : inp.Filed) {other : Policy} {left right : CanonicalAssignment}
    (leftFirst : (search pyHash inp free0 policy).first = some left)
    (rightFirst : (search pyHash inp free0 other).first = some right) : left = right := by
  rw [search] at leftFirst rightFirst
  split_ifs at leftFirst rightFirst
  · exact Option.some.inj (leftFirst.symm.trans rightFirst)
  · have recorded : ∀ {policy : Policy} {asn},
        ((inp.searchContext free0).searchResult pyHash free0 policy).first = some asn →
        ∃ snap, ((inp.searchContext free0).walk pyHash free0 policy).record.map Found.first =
          some snap ∧ asn = (inp.searchContext free0).materialize pyHash free0 snap := by
      intro policy asn first
      rw [SearchContext.searchResult] at first
      cases record : ((inp.searchContext free0).walk pyHash free0 policy).record with
      | none =>
          simp only [record, Option.map_none] at first
          split at first <;> cases first
      | some found =>
          refine ⟨_, rfl, ?_⟩
          simp only [record, Option.map_some] at first
          split at first
          · cases first
          all_goals exact (Option.some.inj first).symm
    obtain ⟨snap, taken, rfl⟩ := recorded leftFirst
    obtain ⟨snap', taken', rfl⟩ := recorded rightFirst
    rw [first_agrees (keepsFirst (inp.searchContext free0)) (walk_finished filed)
      (walk_finished filed) taken taken']

/-- A search that collects every complete assignment and runs to its end reports the least
    score. -/
theorem search_minimal (wellFormed : inp.WellFormed) (acyclic : inp.dependencyCycle = none)
    (collisionFree : CollisionFree pyHash inp free0 policy) (collects : policy.stopAtFirst = false)
    (found : (search pyHash inp free0 policy).kind = .found) {bestScore : Score}
    (scored : (search pyHash inp free0 policy).bestScore = some bestScore)
    {other : CanonicalAssignment} (valid : ValidAssignment inp (free0.getD · 0) other.tasks)
    (budgets : inp.unsat = [] → free0 = inp.freeMap) :
    scoreKey bestScore ≤ scoreKey (score other free0 inp.scoreTargets inp.preference) := by
  have filed := wellFormed.toFiled
  rw [search] at found scored
  split_ifs at found scored with none
  · obtain rfl := Option.some.inj scored
    have nil := List.isEmpty_iff.mp none
    have noTasks : other.tasks = [] := by
      have ids := valid.ids
      rw [nil] at ids
      exact List.map_eq_nil_iff.mp ids
    have targets : inp.scoreTargets = free0.keys := by
      rw [SolverInput.scoreTargets, SolverInput.unsatCandidateTargets, nil, budgets nil]
      rfl
    rw [targets, score, score, noTasks]
    exact le_refl _
  · have some : inp.unsat ≠ [] := fun nil => none (by rw [nil]; rfl)
    rw [SearchContext.searchResult] at found scored
    have running : ((inp.searchContext free0).walk pyHash free0 policy).status = .running := by
      cases status : ((inp.searchContext free0).walk pyHash free0 policy).status with
      | running => rfl
      | raised | exhausted => simp [status] at found
      | stopped =>
          have ends := (record_of_stopped (lawful_space filed) status).1
          rw [collects] at ends
          cases ends
    obtain ⟨pick, picks⟩ := exists_picks valid
    obtain ⟨path, reached, within, complete⟩ :=
      @exists_complete_path inp pyHash free0 other.tasks pick wellFormed acyclic valid picks
    have taken := search_exhaustive
      (fun kept path => ∃ found, kept = Option.some found ∧ scoreKey found.bestScore ≤
        scoreKey (((inp.searchContext free0).node pyHash free0 path).scorePartial
          inp.capacityMode inp.unsatCandidateTargets inp.preference))
      (lawful_space filed) (keysDistinct wellFormed collisionFree) ?_ ?_ (walk_finished filed)
      running reached (ne_nil_of_complete some complete) complete
    · obtain ⟨kept, record, least⟩ := taken
      change ((inp.searchContext free0).walk pyHash free0 policy).record = _ at record
      simp only [running, record, Option.map_some] at scored
      obtain rfl := Option.some.inj scored
      refine least.trans (le_of_eq (congrArg scoreKey ?_))
      rw [score_of_complete filed some reached complete]
      simp only [score, tasks_of_path wellFormed valid picks reached within complete]
    · intro kept path _ _
      change ∃ found, (inp.searchContext free0).recordComplete kept _ = Option.some found ∧ _
      rw [SearchContext.recordComplete.eq_def]
      cases kept with
      | none => exact ⟨_, rfl, le_refl _⟩
      | some before =>
          dsimp only
          split_ifs with better
          · exact ⟨_, rfl, le_refl _⟩
          · exact ⟨_, rfl, not_lt.mp better⟩
    · rintro kept path old _ _ ⟨before, rfl, least⟩
      change ∃ found, (inp.searchContext free0).recordComplete (Option.some before) _ =
        Option.some found ∧ _
      rw [SearchContext.recordComplete.eq_def]
      dsimp only
      split_ifs with better
      · exact ⟨_, rfl, better.le.trans least⟩
      · exact ⟨_, rfl, least⟩

variable (pyHash inp free0 policy) in
/-- A search returns a best assignment exactly with its score, and finds nothing without one. -/
theorem search_best_cases :
    (∃ best bestScore, (search pyHash inp free0 policy).best = some best ∧
      (search pyHash inp free0 policy).bestScore = some bestScore) ∨
    ((search pyHash inp free0 policy).best = none ∧
      (search pyHash inp free0 policy).bestScore = none ∧
      (search pyHash inp free0 policy).kind ≠ .found) := by
  rw [search]
  split_ifs
  · exact .inl ⟨_, _, rfl, rfl⟩
  · rw [SearchContext.searchResult]
    cases ((inp.searchContext free0).walk pyHash free0 policy).record with
    | none =>
        right
        simp only [Option.map_none]
        split
        · exact ⟨rfl, rfl, by simp⟩
        · exact ⟨rfl, rfl, by simp⟩
        · exact ⟨rfl, rfl, by simp⟩
    | some found =>
        simp only [Option.map_some]
        split
        · exact .inr ⟨rfl, rfl, by simp⟩
        · exact .inl ⟨_, _, rfl, rfl⟩
        · exact .inl ⟨_, _, rfl, rfl⟩

/-- Improvement never reports a worse score than that of the assignment it starts from, reports
    the score of the assignment it returns, and is minimal when it was not cut short. -/
theorem improve_optimal (pyHash : KeyPart → HashValue) (inp : SolverInput)
    (wellFormed : inp.WellFormed) {asn : CanonicalAssignment} (feasible : (gateB pyHash inp).code = .feasible)
    (returned : (gateB pyHash inp).assignment = some asn) (emergency : Nat → Bool)
    (collisionFree : CollisionFree pyHash inp inp.freeMap (inp.optimizationPolicy emergency)) :
    scoreKey (improve pyHash inp asn emergency).score ≤
        scoreKey (score asn inp.freeMap inp.scoreTargets inp.preference) ∧
      ((improve pyHash inp asn emergency).derivationMode = .optimized →
        ∀ other : CanonicalAssignment, ValidAssignment inp inp.executableFree other.tasks →
          scoreKey (improve pyHash inp asn emergency).score ≤
            scoreKey (score other inp.freeMap inp.scoreTargets inp.preference)) ∧
      (improve pyHash inp asn emergency).score =
        score (improve pyHash inp asn emergency).assignment inp.freeMap inp.scoreTargets
          inp.preference := by
  have filed := wellFormed.toFiled
  obtain ⟨passes, found, handed⟩ := gateB_feasible feasible
  have first : (search pyHash inp inp.freeMap inp.feasibilityPolicy).first = some asn :=
    handed.symm.trans returned
  have acyclic : inp.dependencyCycle = none := by
    simp only [SolverInput.structural, Option.or_eq_none_iff] at passes
    exact passes.2.2.1
  have validFirst : ValidAssignment inp (inp.freeMap.getD · 0) asn.tasks :=
    search_valid filed wellFormed.uniqueIds (.inl first)
  rw [improve]
  rcases search_best_cases inp pyHash inp.freeMap (inp.optimizationPolicy emergency) with
    ⟨best, bestScore, isBest, scored⟩ | ⟨noBest, noScore, unfound⟩
  · obtain ⟨recomputed, other, otherFirst, ahead⟩ := search_best filed isBest scored fun _ => rfl
    have same := first_assignment_eq filed first otherFirst
    subst same
    rw [isBest, scored]
    simp only [Option.getD_some]
    cases kind : (search pyHash inp inp.freeMap (inp.optimizationPolicy emergency)).kind with
    | emergency => exact ⟨le_refl _, by simp, rfl⟩
    | boundExhausted => exact ⟨ahead, by simp, recomputed⟩
    | found =>
        refine ⟨ahead, fun _ other valid => ?_, recomputed⟩
        have budgets : (fun lab => inp.freeMap.getD lab 0) = inp.executableFree :=
          funext inp.freeMap_getD
        rw [← budgets] at valid
        exact search_minimal wellFormed acyclic collisionFree rfl kind scored valid fun _ => rfl
    | infeasible =>
        exact (no_valid_of_infeasible wellFormed acyclic collisionFree kind validFirst).elim
  · rw [noBest, noScore]
    simp only [Option.getD_none]
    cases kind : (search pyHash inp inp.freeMap (inp.optimizationPolicy emergency)).kind with
    | emergency => exact ⟨le_refl _, by simp, rfl⟩
    | boundExhausted => exact ⟨le_refl _, by simp, rfl⟩
    | found => exact absurd kind unfound
    | infeasible =>
        exact (no_valid_of_infeasible wellFormed acyclic collisionFree kind validFirst).elim

end Improvement

theorem improve_optimal_pair :
    ∃ asn, (gateB pairHash pairInput).assignment = some asn ∧
      (improve pairHash pairInput asn fun _ => false).score =
        score (improve pairHash pairInput asn fun _ => false).assignment pairInput.freeMap
          pairInput.scoreTargets pairInput.preference := by
  refine ⟨_, rfl, ?_⟩
  exact (improve_optimal pairHash pairInput pairInput_wellFormed (by decide) rfl (fun _ => false)
    (collisionFree_of_sets pairInput_wellFormed.toFiled pairHash_apart _ _)).2.2

/-- The smaller of two candidates with one part is never tried, although it would leave more free. -/
theorem improve_misses_twin : ¬∀ (pyHash : KeyPart → HashValue) (inp : SolverInput) (asn : CanonicalAssignment)
    (emergency : Nat → Bool), ApartOnSets pyHash inp → (gateB pyHash inp).code = .feasible →
    (gateB pyHash inp).assignment = some asn →
      (improve pyHash inp asn emergency).derivationMode = .optimized →
      ∀ other : CanonicalAssignment, ValidAssignment inp inp.executableFree other.tasks →
        scoreKey (improve pyHash inp asn emergency).score ≤
          scoreKey (score other inp.freeMap inp.scoreTargets inp.preference) := by
  intro claimed
  have worse := claimed twinHash (twinInput 20)
    (((gateB twinHash (twinInput 20)).assignment).getD ⟨[], []⟩) (fun _ => false) (twinHash_apart 20)
    (by decide +kernel) (by decide +kernel) (by decide +kernel) ⟨twinTasks, []⟩ (twinTasks_valid (.inr rfl))
  revert worse
  decide +kernel

end Modelark.Placement
