import Modelark.Placement.Construction
import Modelark.Placement.Dependencies
import Modelark.Placement.Guarantees

/-!
# Soundness of the structural refusals

The fast checks refuse an input before any search. What each of them found rules out every complete
assignment the search could have placed, under every budget map within the usable maxima, as long
as the input keeps what candidate construction promises about dependencies and sources.
-/

namespace Modelark.Placement

open Library Planning

/-- A complete assignment as the search places it: valid, and in some order in which every
    dependency that has to be placed comes first. -/
structure CompleteAssignment (inp : SolverInput) (budget : String → Int)
    (tasks : List AssignmentTask) : Prop extends ValidAssignment inp budget tasks where
  ordered : ∃ rank : String → Nat, ∀ t ∈ tasks, ∀ dep,
    inp.followedDependency t.requirementId = some dep →
      dep ∈ tasks.map AssignmentTask.requirementId → rank dep < rank t.requirementId

namespace SolverInput

variable (inp : SolverInput)

/-- No known usable maximum is exceeded. -/
def WithinMaxima (budget : String → Int) : Prop :=
  ∀ label mx, inp.maximum label = some mx → budget label ≤ mx

def sourceLabels (c : Candidate) : List String :=
  match c.source with
  | some (.identity named) => [named.driveLabel]
  | _ => []

/-- Every drive label the requirements, candidates and satisfied copies mention. -/
def referencedLabels : List String :=
  inp.graph.desired.flatMap CopyRequirement.eligibleDrives ++
    inp.candidates.byRequirement.flatMap (fun item =>
      item.2.flatMap fun c => c.targetDrive :: sourceLabels c) ++
    inp.candidates.satisfied.flatMap fun item => item.copies.map SatisfiedCopy.driveLabel

def Covers : Prop :=
  ∀ label ∈ inp.referencedLabels, label ∈ inp.driveMap

/-- A requirement the search does not place: satisfied already, or blocked. -/
def Settled (rid : String) : Prop :=
  rid ∈ inp.satisfiedIds ∨ rid ∈ inp.blockedById

/-- `dep` is the dependency of `rid` that the cycle check follows. -/
def DependencyOf (dep rid : String) : Prop :=
  inp.followedDependency rid = some dep

/-- The dependencies of settled requirements are in order: only an open one may name a missing
    requirement or lie on a cycle. -/
structure SettledInOrder : Prop where
  uniqueIds : (inp.graph.desired.map CopyRequirement.requirementId).Nodup
  known : ∀ rid ∈ inp.satisfiedIds, rid ∈ inp.reqById
  present : ∀ req ∈ inp.graph.desired, inp.Settled req.requirementId →
    ∀ dep, req.independentOf = some dep → dep ∈ inp.reqById
  acyclic : ∀ rid, Relation.TransGen inp.DependencyOf rid rid → ¬inp.Settled rid

/-- Where a replica's candidate may copy from: a drive among the home targets, or the pending home
    itself, whose candidates are placed among them. -/
def TracedSource (homeId : String) (home : CopyRequirement) : Option Source → Prop
  | some (.identity named) => named.driveLabel ∈ inp.homeTargets homeId home
  | some (.pendingHome pending) => pending = homeId ∧
      ∀ c ∈ inp.candsOf homeId, c.targetDrive ∈ inp.homeTargets homeId home
  | none => False

/-- Every open replica copies from its own home. -/
structure SourcesTraced : Prop where
  uniqueIds : (inp.graph.desired.map CopyRequirement.requirementId).Nodup
  traced : ∀ req ∈ inp.graph.desired, req.kind = .protectedReplica →
    ¬inp.Settled req.requirementId → ∀ homeId home, req.independentOf = some homeId →
      inp.reqById[homeId]? = some home → ∀ c ∈ inp.candsOf req.requirementId,
        inp.TracedSource homeId home c.source

variable {inp} {failure : GateBResult}

section Findings

theorem blockedFailure_finding {req : CopyRequirement}
    (failed : inp.blockedFailure req = some failure) :
    failure.code = .targetTierMissing ∨ failure.code = .unprovenProvenance := by
  rw [blockedFailure] at failed
  split at failed
  · cases failed
  · split_ifs at failed
    · obtain rfl := Option.some.inj failed
      exact .inl rfl
    · obtain rfl := Option.some.inj failed
      exact .inr rfl

theorem missingDependency_finding {req : CopyRequirement}
    (failed : inp.missingDependency req = some failure) :
    failure.code = .graphDependencyInvariant ∧
      ∃ dep, req.independentOf = some dep ∧ dep ∉ inp.reqById := by
  rw [missingDependency] at failed
  split at failed
  · cases failed
  · rename_i dep named
    split_ifs at failed with present
    obtain rfl := Option.some.inj failed
    exact ⟨rfl, dep, named, present⟩

theorem failureDomain_finding {req : CopyRequirement}
    (failed : inp.failureDomain req = some failure) :
    failure.code = .failureDomainUnsatisfiable ∧ req.kind = .protectedReplica ∧
      ¬inp.Settled req.requirementId ∧
      ∃ homeId home, req.independentOf = some homeId ∧ inp.reqById[homeId]? = some home ∧
        inp.separatedPair (inp.homeTargets homeId home) (inp.candsOf req.requirementId) = false := by
  rw [failureDomain] at failed
  split_ifs at failed with other settled
  split at failed
  · cases failed
  · rename_i homeId named
    split at failed
    · cases failed
    · rename_i home found
      dsimp only at failed
      rw [Option.ite_none_left_eq_some, Option.ite_none_right_eq_some] at failed
      obtain ⟨_, collides, same⟩ := failed
      obtain rfl := Option.some.inj same
      exact ⟨rfl, not_not.mp other, settled, homeId, home, named, found, collides.1⟩

theorem exceedsUsableMax_finding {req : CopyRequirement}
    (failed : inp.exceedsUsableMax req = some failure) :
    failure.code = .requirementExceedsUsableMax ∧ ¬inp.Settled req.requirementId ∧
      ∀ c ∈ inp.candsOf req.requirementId,
        ∃ mx, inp.maximum c.targetDrive = some mx ∧ mx < candPeak c inp.capacityMode := by
  rw [exceedsUsableMax] at failed
  dsimp only at failed
  split_ifs at failed with settled none all
  obtain rfl := Option.some.inj failed
  refine ⟨rfl, settled, fun c member => ?_⟩
  have exceeded := List.all_eq_true.mp all c member
  rw [exceededMaximum] at exceeded
  cases known : inp.maximum c.targetDrive with
  | none => simp [known] at exceeded
  | some mx =>
      refine ⟨mx, rfl, ?_⟩
      by_contra fits
      simp [known, not_lt.mp fits] at exceeded

end Findings

section Cycles

/-- A visit that ends without a cycle leaves the chain as it was. -/
theorem visit_visiting {fuel : Nat} {rid : String} {state after : VisitState}
    (visited : inp.visit fuel rid state = (false, after)) : after.visiting = state.visiting := by
  induction fuel generalizing rid state after with
  | zero => cases visited
  | succ fuel ih =>
      rw [visit] at visited
      split_ifs at visited with seen visiting
      · obtain rfl := (Prod.mk.inj visited).2
        rfl
      · cases visited
      · cases dependency : inp.followedDependency rid with
        | none =>
            rw [dependency] at visited
            obtain rfl := (Prod.mk.inj visited).2
            exact List.erase_cons_head ..
        | some dep =>
            rw [dependency] at visited
            dsimp only at visited
            split at visited
            · cases visited
            · rename_i inner below
              obtain rfl := (Prod.mk.inj visited).2
              rw [ih below]
              exact List.erase_cons_head ..

theorem mem_reqById_of_followed {rid dep : String} (follows : inp.followedDependency rid = some dep) :
    rid ∈ inp.reqById := by
  rw [Dict.mem_iff_isSome]
  cases found : inp.reqById[rid]? with
  | none => simp [followedDependency, found] at follows
  | some req => rfl

/-- A visit that reports a cycle has met one. The ids on the chain follow one another, and as they
    are distinct requirements the fuel does not run out first. -/
theorem visit_cycle {fuel : Nat} {rid : String} {state after : VisitState}
    (visited : inp.visit fuel rid state = (true, after))
    (chain : List.IsChain inp.DependencyOf (rid :: state.visiting))
    (distinct : state.visiting.Nodup) (known : ∀ id ∈ state.visiting, id ∈ inp.reqById)
    (enough : inp.graph.desired.length < fuel + state.visiting.length) :
    ∃ id, Relation.TransGen inp.DependencyOf id id := by
  induction fuel generalizing rid state after with
  | zero =>
      have listed : state.visiting ⊆ inp.graph.desired.map CopyRequirement.requirementId := by
        intro id member
        obtain ⟨req, found⟩ := Dict.mem_ofPairs.mp (known id member)
        obtain ⟨req', among, same⟩ := List.mem_map.mp found
        exact List.mem_map.mpr ⟨req', among, congrArg Prod.fst same⟩
      have short := (List.subperm_of_subset distinct listed).length_le
      rw [List.length_map] at short
      omega
  | succ fuel ih =>
      rw [visit] at visited
      split_ifs at visited with seen visiting
      · cases visited
      · have related : (rid :: state.visiting).Pairwise (Relation.TransGen inp.DependencyOf) :=
          (chain.imp fun _ _ step => .single step).pairwise
        exact ⟨rid, (List.pairwise_cons.mp related).1 rid visiting⟩
      · cases dependency : inp.followedDependency rid with
        | none =>
            rw [dependency] at visited
            cases visited
        | some dep =>
            rw [dependency] at visited
            dsimp only at visited
            split at visited
            · rename_i inner below
              refine ih below (.cons_cons dependency chain) ?_ ?_ ?_
              · exact List.nodup_cons.mpr ⟨visiting, distinct⟩
              · exact List.forall_mem_cons.mpr ⟨mem_reqById_of_followed dependency, known⟩
              · rw [List.length_cons]
                omega
            · cases visited

theorem firstCycle_cycle {reqs : List CopyRequirement} {state : VisitState} {req : CopyRequirement}
    (found : inp.firstCycle reqs state = some req) (fresh : state.visiting = []) :
    ∃ id, Relation.TransGen inp.DependencyOf id id := by
  induction reqs generalizing state with
  | nil => cases found
  | cons first rest ih =>
      rw [firstCycle] at found
      split at found
      · rename_i after visited
        refine visit_cycle visited ?_ ?_ ?_ ?_ <;> simp [fresh]
      · rename_i after visited
        exact ih found ((visit_visiting visited).trans fresh)

theorem dependencyCycle_finding (failed : inp.dependencyCycle = some failure) :
    failure.code = .graphDependencyInvariant ∧
      ∃ id, Relation.TransGen inp.DependencyOf id id := by
  obtain ⟨req, found, rfl⟩ := Option.map_eq_some_iff.mp failed
  exact ⟨rfl, firstCycle_cycle found rfl⟩

end Cycles

section Members

theorem mem_reqById {rid : String} :
    rid ∈ inp.reqById ↔ ∃ req ∈ inp.graph.desired, req.requirementId = rid := by
  rw [reqById, Dict.mem_ofPairs]
  constructor
  · rintro ⟨req, paired⟩
    obtain ⟨other, listed, same⟩ := List.mem_map.mp paired
    exact ⟨other, listed, congrArg Prod.fst same⟩
  · rintro ⟨req, listed, rfl⟩
    exact ⟨req, List.mem_map.mpr ⟨req, listed, rfl⟩⟩

theorem lookup_reqById (unique : (inp.graph.desired.map CopyRequirement.requirementId).Nodup)
    {req : CopyRequirement} (listed : req ∈ inp.graph.desired) :
    inp.reqById[req.requirementId]? = some req := by
  rw [reqById, Dict.lookup_ofPairs (by rwa [List.map_map]), List.mem_map]
  exact ⟨req, listed, rfl⟩

theorem mem_desired_of_lookup {rid : String} {req : CopyRequirement}
    (found : inp.reqById[rid]? = some req) : req ∈ inp.graph.desired := by
  obtain ⟨other, listed, same⟩ := List.mem_map.mp (Dict.mem_of_lookup_ofPairs found)
  exact (Prod.mk.inj same).2 ▸ listed

/-- What follows a dependency is a requirement that names it. -/
theorem exists_dependent {dep rid : String} (follows : inp.DependencyOf dep rid) :
    ∃ req ∈ inp.graph.desired, req.requirementId = rid ∧ req.independentOf = some dep := by
  rw [DependencyOf, followedDependency, Option.filter_eq_some_iff, Option.bind_eq_some_iff]
    at follows
  obtain ⟨⟨req, found, named⟩, _⟩ := follows
  obtain ⟨other, listed, same⟩ := List.mem_map.mp (Dict.mem_of_lookup_ofPairs found)
  obtain ⟨rfl, rfl⟩ := Prod.mk.inj same
  exact ⟨_, listed, rfl, named⟩

/-- Home targets are labels of satisfied copies or of eligible drives. -/
theorem homeTargets_referenced {homeId : String} {home : CopyRequirement}
    (listed : home ∈ inp.graph.desired) {label : String}
    (member : label ∈ inp.homeTargets homeId home) : label ∈ inp.referencedLabels := by
  have eligible : label ∈ home.eligibleDrives → label ∈ inp.referencedLabels := fun among =>
    List.mem_append_left _ (List.mem_append_left _ (List.mem_flatMap.mpr ⟨home, listed, among⟩))
  rw [homeTargets] at member
  cases satisfied : inp.candidates.satisfied.find? (·.requirementId == homeId) with
  | none =>
      rw [satisfied] at member
      exact eligible member
  | some item =>
      rw [satisfied] at member
      dsimp only at member
      split at member
      · exact eligible member
      · have recorded := List.mem_of_find?_eq_some satisfied
        exact List.mem_append_right _ (List.mem_flatMap.mpr ⟨item, recorded, member⟩)

theorem target_referenced {rid : String} {c : Candidate} (among : c ∈ inp.candsOf rid) :
    c.targetDrive ∈ inp.referencedLabels := by
  obtain ⟨item, listed, _, member, _⟩ := mem_candsOf among
  refine List.mem_append_left _ (List.mem_append_right _ (List.mem_flatMap.mpr ⟨item, listed, ?_⟩))
  exact List.mem_flatMap.mpr ⟨c, member, List.mem_cons_self ..⟩

theorem separatedPair_eq_true {homes : List String} {cands : List Candidate} :
    inp.separatedPair homes cands = true ↔
      ∃ label ∈ homes, ∃ hd, inp.driveMap[label]? = some hd ∧
        ∃ c ∈ cands, ∃ rd, inp.driveMap[c.targetDrive]? = some rd ∧
          sameFailureDomain hd rd = false := by
  rw [separatedPair, List.any_eq_true]
  refine exists_congr fun label => and_congr_right fun _ => ?_
  cases inp.driveMap[label]? with
  | none => simp
  | some hd =>
      simp only [List.any_eq_true, Option.some.injEq, exists_eq_left']
      refine exists_congr fun c => and_congr_right fun _ => ?_
      cases inp.driveMap[c.targetDrive]? with
      | none => simp
      | some rd => simp

end Members

end SolverInput

section Soundness

open SolverInput

variable {inp : SolverInput} {budget : String → Int} {tasks : List AssignmentTask}

/-- A valid assignment has a task for every requirement that is not settled. -/
theorem ValidAssignment.mem_ids (valid : ValidAssignment inp budget tasks) {rid : String} :
    rid ∈ tasks.map AssignmentTask.requirementId ↔ rid ∈ inp.reqById ∧ ¬inp.Settled rid := by
  rw [valid.ids, mem_unsat, mem_reqById, Settled, not_or]

theorem ValidAssignment.exists_task (valid : ValidAssignment inp budget tasks)
    {req : CopyRequirement} (listed : req ∈ inp.graph.desired)
    (isOpen : ¬inp.Settled req.requirementId) :
    ∃ t ∈ tasks, t.requirementId = req.requirementId := by
  have member := valid.mem_ids.mpr ⟨mem_reqById.mpr ⟨req, listed, rfl⟩, isOpen⟩
  exact List.mem_map.mp member

/-- An open requirement with a missing dependency cannot be placed. -/
theorem ValidAssignment.dependency_present (valid : ValidAssignment inp budget tasks)
    (inOrder : inp.SettledInOrder) {req : CopyRequirement} (listed : req ∈ inp.graph.desired)
    {dep : String} (named : req.independentOf = some dep) : dep ∈ inp.reqById := by
  by_cases settled : inp.Settled req.requirementId
  · exact inOrder.present req listed settled dep named
  · obtain ⟨t, member, same⟩ := valid.exists_task listed settled
    have found := lookup_reqById inOrder.uniqueIds listed
    rw [← same] at found
    rcases valid.dependency t member req dep found named with placed | satisfied
    · exact (valid.mem_ids.mp placed).1
    · exact inOrder.known dep satisfied

/-- Requirements on a cycle are all open, and none of them can be the first one placed. -/
theorem CompleteAssignment.acyclic (complete : CompleteAssignment inp budget tasks)
    (inOrder : inp.SettledInOrder) (rid : String) :
    ¬Relation.TransGen inp.DependencyOf rid rid := by
  obtain ⟨rank, below⟩ := complete.ordered
  have placed : ∀ id, Relation.TransGen inp.DependencyOf id id →
      id ∈ tasks.map AssignmentTask.requirementId := by
    intro id cycle
    obtain ⟨_, _, last⟩ := Relation.TransGen.tail'_iff.mp cycle
    exact complete.mem_ids.mpr ⟨mem_reqById_of_followed last, inOrder.acyclic id cycle⟩
  have step : ∀ {dep id}, inp.DependencyOf dep id → Relation.TransGen inp.DependencyOf id dep →
      rank dep < rank id := by
    intro dep id follows back
    obtain ⟨t, member, same⟩ := List.mem_map.mp (placed id (back.tail follows))
    rw [← same]
    exact below t member dep (same ▸ follows) (placed dep (.head follows back))
  have descends : ∀ {first last}, Relation.TransGen inp.DependencyOf first last →
      Relation.TransGen inp.DependencyOf last first → rank first < rank last := by
    intro first last path
    induction path with
    | single follows => exact step follows
    | tail front follows ih =>
        intro back
        exact (ih (.head follows back)).trans (step follows (back.trans front))
  exact fun cycle => lt_irrefl _ (descends cycle cycle)

/-- The tasks of one drive take at least the peak of each of them. -/
theorem ValidAssignment.candPeak_le (valid : ValidAssignment inp budget tasks)
    {t : AssignmentTask} (member : t ∈ tasks) :
    ∃ c ∈ inp.candsOf t.requirementId, t.targetDrive = c.targetDrive ∧
      (candPeak c inp.capacityMode : Int) ≤ budget c.targetDrive := by
  obtain ⟨c, among, same, _⟩ := valid.candidate t member
  have target : t.targetDrive = c.targetDrive := by rw [same]; rfl
  have durable : t.durable = candDurable c inp.capacityMode := by rw [same]; rfl
  have workspace : t.workspace = candWorkspace c inp.capacityMode := by rw [same]; rfl
  have here : t ∈ tasks.filter (·.targetDrive == t.targetDrive) :=
    List.mem_filter.mpr ⟨member, beq_self_eq_true _⟩
  have load : t.durable ≤ durableOn tasks t.targetDrive := le_total_of_mem here
  have space : t.workspace ≤ workspaceOn tasks t.targetDrive := le_peak_of_mem here
  have room := valid.capacity t member
  refine ⟨c, among, target, ?_⟩
  rw [← target, candPeak]
  omega

/-- An open replica is separated from one of its home targets. -/
theorem ValidAssignment.separated (valid : ValidAssignment inp budget tasks) (covers : inp.Covers)
    (sources : inp.SourcesTraced) {req : CopyRequirement} (listed : req ∈ inp.graph.desired)
    (replica : req.kind = .protectedReplica) (isOpen : ¬inp.Settled req.requirementId)
    {homeId : String} {home : CopyRequirement} (named : req.independentOf = some homeId)
    (found : inp.reqById[homeId]? = some home) :
    inp.separatedPair (inp.homeTargets homeId home) (inp.candsOf req.requirementId) = true := by
  obtain ⟨t, member, same⟩ := valid.exists_task listed isOpen
  obtain ⟨c, among, task, resolves⟩ := valid.candidate t member
  have target : t.targetDrive = c.targetDrive := by rw [task]; rfl
  have requirement := lookup_reqById sources.uniqueIds listed
  have homeListed := mem_desired_of_lookup found
  have traced := sources.traced req listed replica isOpen homeId home named found c (same ▸ among)
  -- Whichever way the source is named, it resolves to a home target.
  have resolved : ∃ source, t.source = some source ∧
      source.driveLabel ∈ inp.homeTargets homeId home := by
    cases origin : c.source with
    | none =>
        rw [origin] at traced
        exact absurd traced id
    | some origin' =>
        rw [origin] at traced resolves
        cases origin' with
        | identity known => exact ⟨known, resolves, traced⟩
        | pendingHome pending =>
            obtain ⟨rfl, placed⟩ := traced
            obtain ⟨h, homeMember, homeSame, source⟩ := resolves
            obtain ⟨d, homeAmong, homeTask, _⟩ := valid.candidate h homeMember
            have homeTarget : h.targetDrive = d.targetDrive := by rw [homeTask]; rfl
            refine ⟨_, source, ?_⟩
            rw [homeTarget]
            exact placed d (homeSame ▸ homeAmong)
  obtain ⟨source, resolvesTo, isTarget⟩ := resolved
  obtain ⟨hd, homeFact⟩ :=
    Dict.exists_lookup_of_mem (covers _ (homeTargets_referenced homeListed isTarget))
  obtain ⟨rd, targetFact⟩ := Dict.exists_lookup_of_mem (covers _ (target_referenced among))
  refine separatedPair_eq_true.mpr ⟨_, isTarget, hd, homeFact, c, same ▸ among, rd, targetFact, ?_⟩
  exact valid.domain t member req source hd rd (same ▸ requirement) replica resolvesTo homeFact
    (target ▸ targetFact)

/-- What a fast refusal found rules out every complete assignment under every budget map within
    the usable maxima: a requirement above the maxima of all its candidates always, a missing or
    cyclic dependency when the settled requirements are in order, and colliding failure domains
    when the drives cover every label and open replicas copy from their own home. -/
theorem structural_sound (inp : SolverInput) {failure : GateBResult}
    (refused : inp.structural = some failure) {budget : String → Int}
    (within : inp.WithinMaxima budget) :
    (failure.code = .requirementExceedsUsableMax →
      ¬∃ tasks, CompleteAssignment inp budget tasks) ∧
    (failure.code = .graphDependencyInvariant → inp.SettledInOrder →
      ¬∃ tasks, CompleteAssignment inp budget tasks) ∧
    (failure.code = .failureDomainUnsatisfiable → inp.Covers → inp.SourcesTraced →
      ¬∃ tasks, CompleteAssignment inp budget tasks) := by
  simp only [structural, Option.or_eq_some_iff] at refused
  rcases refused with first | ⟨_, second | ⟨_, third | ⟨_, fourth | ⟨_, fifth⟩⟩⟩⟩
  · obtain ⟨req, _, failed⟩ := List.exists_of_findSome?_eq_some first
    rcases blockedFailure_finding failed with code | code <;>
      (rw [code]; exact ⟨by simp, by simp, by simp⟩)
  · obtain ⟨req, listed, failed⟩ := List.exists_of_findSome?_eq_some second
    obtain ⟨code, dep, named, absent⟩ := missingDependency_finding failed
    rw [code]
    refine ⟨by simp, fun _ inOrder => ?_, by simp⟩
    rintro ⟨tasks, complete⟩
    exact absent (complete.dependency_present inOrder (mem_sortBy.mp listed) named)
  · obtain ⟨code, id, cycle⟩ := dependencyCycle_finding third
    rw [code]
    refine ⟨by simp, fun _ inOrder => ?_, by simp⟩
    rintro ⟨tasks, complete⟩
    exact complete.acyclic inOrder id cycle
  · obtain ⟨req, listed, failed⟩ := List.exists_of_findSome?_eq_some fourth
    obtain ⟨code, replica, isOpen, homeId, home, named, found, collides⟩ :=
      failureDomain_finding failed
    rw [code]
    refine ⟨by simp, by simp, fun _ covers sources => ?_⟩
    rintro ⟨tasks, complete⟩
    have separated := complete.separated covers sources (mem_sortBy.mp listed) replica isOpen
      named found
    rw [collides] at separated
    cases separated
  · obtain ⟨req, listed, failed⟩ := List.exists_of_findSome?_eq_some fifth
    obtain ⟨code, isOpen, exceeds⟩ := exceedsUsableMax_finding failed
    rw [code]
    refine ⟨fun _ => ?_, by simp, by simp⟩
    rintro ⟨tasks, complete⟩
    obtain ⟨t, member, same⟩ := complete.exists_task (mem_sortBy.mp listed) isOpen
    obtain ⟨c, among, _, fits⟩ := complete.candPeak_le member
    obtain ⟨mx, known, above⟩ := exceeds c (same ▸ among)
    have bounded := within c.targetDrive mx known
    omega

end Soundness

section Order

variable {inp : SolverInput} {budget : String → Int} {tasks : List AssignmentTask}

theorem SolverInput.Ordered.mem {seen : List String} (ordered : inp.Ordered seen) {rid dep : String}
    (member : rid ∈ seen) (follows : inp.followedDependency rid = some dep) : dep ∈ seen := by
  induction ordered with
  | nil => exact absurd member List.not_mem_nil
  | cons _ first ih =>
      rcases List.mem_cons.mp member with rfl | later
      · exact List.mem_cons_of_mem _ (first dep follows)
      · exact List.mem_cons_of_mem _ (ih later)

/-- Counted from the end of the list, a dependency comes before what needs it. -/
theorem SolverInput.Ordered.idxOf_lt {seen : List String} (ordered : inp.Ordered seen)
    {rid dep : String} (member : rid ∈ seen) (follows : inp.followedDependency rid = some dep) :
    seen.reverse.idxOf dep < seen.reverse.idxOf rid := by
  induction ordered with
  | nil => exact absurd member List.not_mem_nil
  | @cons last rest earlier first ih =>
      rw [List.reverse_cons]
      by_cases again : rid ∈ rest
      · have needed := earlier.mem again follows
        rw [List.idxOf_append_of_mem (List.mem_reverse.mpr again),
          List.idxOf_append_of_mem (List.mem_reverse.mpr needed)]
        exact ih again
      · obtain rfl : rid = last := (List.mem_cons.mp member).resolve_right again
        have needed := first dep follows
        rw [List.idxOf_append_of_notMem (mt List.mem_reverse.mp again),
          List.idxOf_append_of_mem (List.mem_reverse.mpr needed)]
        have bound := List.idxOf_lt_length_of_mem (List.mem_reverse.mpr needed)
        omega

/-- When the cycle check passes, every valid assignment can be placed in order. -/
theorem ValidAssignment.complete_of_acyclic (valid : ValidAssignment inp budget tasks)
    (acyclic : inp.dependencyCycle = none) : CompleteAssignment inp budget tasks := by
  obtain ⟨seen, ordered, all⟩ := SolverInput.exists_ordered acyclic
  refine ⟨valid, seen.reverse.idxOf, fun t member dep follows _ => ?_⟩
  have placed := (valid.mem_ids.mp (List.mem_map_of_mem member)).1
  obtain ⟨req, listed, same⟩ := SolverInput.mem_reqById.mp placed
  exact ordered.idxOf_lt (same ▸ all req listed) follows

end Order

namespace Constructed

open PlannerInput

variable {u : Archive.Unicode} {inp : PlannerInput} {solver : SolverInput}

/-- Only replicas depend on another requirement, and homes on none. -/
theorem settledInOrder (built : Constructed u inp solver) : solver.SettledInOrder where
  uniqueIds := built.uniqueIds
  known := by
    intro rid satisfied
    obtain ⟨_, paired⟩ := Dict.mem_ofPairs.mp satisfied
    obtain ⟨item, listed, same⟩ := List.mem_map.mp paired
    rw [built.candidates] at listed
    obtain ⟨req, desired, _, id⟩ := mem_satisfied.mp (List.mem_map_of_mem listed)
    exact SolverInput.mem_reqById.mpr
      ⟨req, built.graph ▸ desired, id.trans (congrArg Prod.fst same)⟩
  present := by
    intro req desired _ dep named
    rw [built.graph] at desired
    obtain ⟨repo, listed, ofRepo⟩ := mem_desired.mp desired
    obtain ⟨replica, rfl⟩ := independentOf_of_desired ofRepo named
    obtain ⟨_, home, homeOfRepo, id⟩ := replica_of_desired ofRepo replica
    refine SolverInput.mem_reqById.mpr ⟨home, ?_, id⟩
    rw [built.graph]
    exact mem_desired.mpr ⟨repo, listed, homeOfRepo⟩
  acyclic := by
    intro rid cycle
    obtain ⟨_, _, last⟩ := Relation.TransGen.tail'_iff.mp cycle
    obtain ⟨_, first, _⟩ := Relation.TransGen.head'_iff.mp cycle
    obtain ⟨req, desired, id, named⟩ := SolverInput.exists_dependent last
    obtain ⟨other, otherDesired, _, otherNamed⟩ := SolverInput.exists_dependent first
    rw [built.graph] at desired otherDesired
    obtain ⟨repo, _, ofRepo⟩ := mem_desired.mp desired
    obtain ⟨_, _, otherOfRepo⟩ := mem_desired.mp otherDesired
    -- The id is that of a replica, as it depends on something, and that of a home.
    have replicaId := id.symm.trans (id_of_dependent ofRepo named)
    have chars := congrArg String.toList
      (replicaId.symm.trans (independentOf_of_desired otherOfRepo otherNamed).2)
    simp [String.toList_append] at chars

/-- A home with complete copies is reached on the drives that hold them. -/
theorem homeTargets_of_complete (built : Constructed u inp solver) {home : CopyRequirement}
    (desired : home ∈ inp.requirements.desired) {held : Holding}
    (complete : held ∈ inp.complete u home) :
    held.driveLabel ∈ solver.homeTargets home.requirementId home := by
  have unique : ((inp.candidates u inp.requirements).satisfied.map
      Satisfaction.requirementId).Nodup := by
    refine ((sortBy_perm _ _).map _).nodup_iff.mpr ?_
    rw [List.map_map]
    exact nodup_requirements.sublist (List.filter_sublist.map CopyRequirement.requirementId)
  have recorded : inp.satisfaction u home ∈ (inp.candidates u inp.requirements).satisfied := by
    refine mem_sortBy.mpr (List.mem_map_of_mem (List.mem_filter.mpr ⟨desired, ?_⟩))
    simpa using List.ne_nil_of_mem complete
  have found : solver.candidates.satisfied.find? (·.requirementId == home.requirementId) =
      some (inp.satisfaction u home) := by
    rw [built.candidates]
    exact (find?_key_eq_some unique).mpr ⟨recorded, rfl⟩
  have copied : held.driveLabel ∈
      (inp.satisfaction u home).copies.map SatisfiedCopy.driveLabel := by
    rw [satisfaction, List.map_map]
    exact List.mem_map_of_mem (mem_sortBy.mpr complete)
  rw [SolverInput.homeTargets, found]
  dsimp only
  rw [if_neg]
  · exact copied
  · simpa using List.ne_nil_of_mem copied

/-- A home without a complete copy is reached on its eligible drives. -/
theorem homeTargets_of_pending (built : Constructed u inp solver) {home : CopyRequirement}
    (desired : home ∈ inp.requirements.desired) (pending : inp.complete u home = []) :
    solver.homeTargets home.requirementId home = home.eligibleDrives := by
  have none : solver.candidates.satisfied.find? (·.requirementId == home.requirementId) =
      none := by
    rw [List.find?_eq_none]
    intro item listed same
    rw [built.candidates] at listed
    obtain ⟨req, reqDesired, done, id⟩ := mem_satisfied.mp (List.mem_map_of_mem listed)
    obtain rfl : req = home := List.inj_on_of_nodup_map nodup_requirements reqDesired desired
      (id.trans (eq_of_beq same))
    exact done pending
  rw [SolverInput.homeTargets, none]
  rfl

/-- The sources of an open replica are the complete copies of its home, or the home itself while it
    has none and is to be placed on its eligible drives. -/
theorem sourcesTraced (built : Constructed u inp solver) : solver.SourcesTraced where
  uniqueIds := built.uniqueIds
  traced := by
    intro req desired replica isOpen homeId home named found c among
    obtain ⟨item, listed, id, member, _⟩ := SolverInput.mem_candsOf among
    obtain ⟨owner, ownerDesired, _, ownerId, same⟩ := built.exists_requirement listed
    rw [built.graph] at desired
    obtain rfl : owner = req := List.inj_on_of_nodup_map nodup_requirements ownerDesired desired
      (ownerId.symm.trans id)
    obtain ⟨held, finish, ⟨other, _⟩ | ⟨_, source, from_, rfl⟩⟩ :=
      mem_candidatesOf.mp ((same c).mp member)
    · exact absurd replica other
    obtain ⟨rfl, homeDesired⟩ : home.requirementId = homeId ∧
        home ∈ inp.requirements.desired := by
      obtain ⟨entry, entryListed, paired⟩ := List.mem_map.mp (Dict.mem_of_lookup_ofPairs found)
      obtain ⟨rfl, rfl⟩ := Prod.mk.inj paired
      exact ⟨rfl, built.graph ▸ entryListed⟩
    have sameRepo : owner.repoId = home.repoId := by
      obtain ⟨repo, listedRepo, ofRepo⟩ := mem_desired.mp desired
      obtain ⟨depends, other, otherOfRepo, otherId⟩ := replica_of_desired ofRepo replica
      obtain rfl : other = home := List.inj_on_of_nodup_map nodup_requirements
        (mem_desired.mpr ⟨repo, listedRepo, otherOfRepo⟩) homeDesired
        (otherId.trans (Option.some.inj (depends.symm.trans named)))
      rw [repoId_of_desired ofRepo, repoId_of_desired otherOfRepo]
    rw [SolverInput.reqById, built.graph] at found
    cases source with
    | identity proven =>
        have proved : proven ∈ inp.homeSources u inp.requirements owner := by
          cases sources : inp.homeSources u inp.requirements owner with
          | nil => simp [replicaSources, sources] at from_
          | cons first rest => simpa [replicaSources, sources] using from_
        rw [homeSources, named, Option.bind_some, found] at proved
        obtain ⟨label, kept, rfl⟩ := List.mem_map.mp proved
        obtain ⟨pooled, copied⟩ := List.mem_filter.mp kept
        have atLabel : ∀ source : SourceIdentity, source.driveLabel = label →
            source.driveLabel ∈ solver.homeTargets home.requirementId home := by
          rintro source rfl
          simp only [provenCopy, Bool.and_eq_true, List.all_eq_true, beq_iff_eq, sameRepo] at copied
          have held : inp.holding u home source.driveLabel ∈ inp.complete u home := by
            refine mem_complete.mpr ⟨_, pooled, rfl, ?_, ?_⟩
            · rw [holding, List.filter_eq_nil_iff]
              intro mf listedFile
              simp [copied.2 mf listedFile]
            · rw [holding, List.eq_nil_iff_forall_not_mem]
              intro mf absent
              obtain ⟨listedFile, missing⟩ := List.mem_filter.mp (mem_sortBy.mp absent)
              simp [copied.2 mf listedFile] at missing
          exact built.homeTargets_of_complete homeDesired held
        refine atLabel _ ?_
        split <;> rfl
    | pendingHome pending =>
        obtain ⟨_, same, _⟩ := replicaSources_of_pending from_
        rw [named, Option.getD_some] at same
        refine ⟨same, fun c placed => ?_⟩
        obtain ⟨group, groupListed, groupId, inGroup, _⟩ := SolverInput.mem_candsOf placed
        obtain ⟨req, reqDesired, open', reqId, sameCands⟩ := built.exists_requirement groupListed
        obtain rfl : req = home := List.inj_on_of_nodup_map nodup_requirements reqDesired
          homeDesired (reqId.symm.trans groupId)
        rw [built.homeTargets_of_pending homeDesired open']
        obtain ⟨held', finish', fetched⟩ := mem_candidatesOf.mp ((sameCands c).mp inGroup)
        obtain ⟨label, _, rfl, _, _, eligible⟩ := mem_finishable.mp finish'
        rcases fetched with ⟨_, rfl⟩ | ⟨_, _, _, rfl⟩ <;> exact eligible

end Constructed

section Refused

theorem SolverInput.withinMaxima_of_listed {inp : SolverInput} {budget : String → Int}
    (listed : ∀ item ∈ inp.maxUsableForEpoch, ∀ mx ∈ item.2, budget item.1 ≤ mx) :
    inp.WithinMaxima budget := by
  intro label mx known
  rw [SolverInput.maximum, Option.join_eq_some_iff] at known
  exact listed _ (Dict.mem_of_lookup_ofPairs known) mx rfl

/-- The home is larger than its drive could ever hold. -/
def oversizedInput : SolverInput :=
  { pairInput with maxUsableForEpoch := [("alpha", some 5), ("beta", some 20)] }

/-- The replica's home is no requirement of the graph. -/
def orphanInput : SolverInput :=
  { pairInput with
    graph := ⟨[⟨"protected_replica:m", "m", .protectedReplica, ["beta"], some "protected_home:m"⟩]⟩ }

/-- Home and replica can only go to partitions of one filesystem. -/
def collidingInput : SolverInput :=
  { pairInput with
    drives := [
      ⟨"alpha", "primary", true, 20, some "fs-a", none, none, "active", "enabled"⟩,
      ⟨"beta", "replica", false, 20, some "fs-a", none, none, "active", "enabled"⟩] }

theorem orphanInput_settledInOrder : orphanInput.SettledInOrder where
  uniqueIds := by decide
  known := fun _ satisfied => absurd satisfied (by simp [SolverInput.satisfiedIds, orphanInput, pairInput])
  present := by
    rintro req _ (satisfied | blocked)
    · simp [SolverInput.satisfiedIds, orphanInput, pairInput] at satisfied
    · simp [SolverInput.blockedById, orphanInput, pairInput] at blocked
  acyclic := by
    rintro rid _ (satisfied | blocked)
    · simp [SolverInput.satisfiedIds, orphanInput, pairInput] at satisfied
    · simp [SolverInput.blockedById, orphanInput, pairInput] at blocked

theorem collidingInput_sourcesTraced : collidingInput.SourcesTraced where
  uniqueIds := by decide
  traced := by
    intro req listed replica _ homeId home named found c among
    simp only [collidingInput, pairInput, List.mem_cons, List.not_mem_nil, or_false] at listed
    rcases listed with rfl | rfl
    · cases replica
    · obtain rfl := Option.some.inj named
      have only : collidingInput.reqById["protected_home:m"]? =
          some ⟨"protected_home:m", "m", .protectedHome, ["alpha"], none⟩ := by decide
      obtain rfl := Option.some.inj (only.symm.trans found)
      have alone : collidingInput.candsOf "protected_replica:m" = [
          ⟨"protected_replica:m", .replicate, "beta", some (.pendingHome "protected_home:m"),
            some "protected_home:m", [], [], ⟨4, 4, 4, 4, []⟩, ⟨4⟩⟩] := by decide
      obtain rfl := List.mem_singleton.mp (alone ▸ among)
      exact ⟨rfl, by decide⟩

theorem structural_sound_refused :
    (¬∃ tasks, CompleteAssignment oversizedInput (fun _ => 5) tasks) ∧
    (¬∃ tasks, CompleteAssignment orphanInput (fun _ => 20) tasks) ∧
    (¬∃ tasks, CompleteAssignment collidingInput (fun _ => 20) tasks) := by
  refine ⟨?_, ?_, ?_⟩
  · exact (structural_sound oversizedInput rfl
      (SolverInput.withinMaxima_of_listed (by decide))).1 (by decide)
  · exact (structural_sound orphanInput rfl
      (SolverInput.withinMaxima_of_listed (by decide))).2.1 (by decide) orphanInput_settledInOrder
  · exact (structural_sound collidingInput rfl
      (SolverInput.withinMaxima_of_listed (by decide))).2.2 (by decide)
      (by unfold SolverInput.Covers; decide) collidingInput_sourcesTraced

/-- A satisfied replica whose home is no requirement any more. -/
def settledOrphanInput : SolverInput :=
  { orphanInput with
    candidates :=
      { satisfied := [⟨"protected_replica:m", [⟨"beta", [], none⟩]⟩]
        byRequirement := []
        drift := []
        blocked := [] } }

def strayCandidate : Candidate :=
  ⟨"protected_replica:m", .replicate, "beta", some (.identity ⟨"gamma", none, none⟩), none, [], [],
    ⟨4, 4, 4, 4, []⟩, ⟨4⟩⟩

/-- The home is on a drive of the replica's only filesystem, and the replica copies from elsewhere. -/
def strayInput : SolverInput :=
  { pairInput with
    candidates :=
      { satisfied := [⟨"protected_home:m", [⟨"alpha", [], none⟩]⟩]
        byRequirement := [("protected_replica:m", [strayCandidate])]
        drift := []
        blocked := [] }
    drives := [
      ⟨"alpha", "primary", true, 20, some "fs-a", none, none, "active", "enabled"⟩,
      ⟨"beta", "replica", false, 20, some "fs-a", none, none, "active", "enabled"⟩,
      ⟨"gamma", "primary", true, 20, some "fs-c", none, none, "active", "enabled"⟩] }

def strayTask : AssignmentTask :=
  taskOf "guaranteed" "protected_replica:m" strayCandidate (some ⟨"gamma", none, none⟩)

theorem strayInput_requirement : strayInput.reqById[strayTask.requirementId]? =
    some ⟨"protected_replica:m", "m", .protectedReplica, ["beta"], some "protected_home:m"⟩ := by
  decide

theorem strayInput_followed :
    strayInput.followedDependency strayTask.requirementId = some "protected_home:m" := by
  decide

theorem strayInput_valid : ValidAssignment strayInput (fun _ => 20) [strayTask] where
  ids := by decide
  candidate := by
    intro t member
    obtain rfl := List.mem_singleton.mp member
    exact ⟨strayCandidate, by decide, rfl, rfl⟩
  capacity := by decide
  dependency := by
    intro t member req dep found named
    obtain rfl := List.mem_singleton.mp member
    obtain rfl := Option.some.inj (strayInput_requirement.symm.trans found)
    obtain rfl := Option.some.inj named
    exact .inr (by decide)
  domain := by
    intro t member req source hd rd _ _ resolved homeFact targetFact
    obtain rfl := List.mem_singleton.mp member
    obtain rfl := Option.some.inj resolved
    have home : strayInput.driveMap["gamma"]? =
        some ⟨"gamma", "primary", true, 20, some "fs-c", none, none, "active", "enabled"⟩ := by decide
    have target : strayInput.driveMap[strayTask.targetDrive]? =
        some ⟨"beta", "replica", false, 20, some "fs-a", none, none, "active", "enabled"⟩ := by decide
    obtain rfl := Option.some.inj (home.symm.trans homeFact)
    obtain rfl := Option.some.inj (target.symm.trans targetFact)
    decide

/-- The settled orphan is refused although nothing is left to place, and the stray replica although
    it may be placed apart from the drive it copies from. -/
theorem refused_with_assignment :
    (¬∀ inp : SolverInput, inp.Covers → inp.WithinMaxima inp.executableFree →
      (∃ failure, inp.structural = some failure ∧ failure.code = .graphDependencyInvariant) →
        ∀ budget, inp.WithinMaxima budget → ¬∃ tasks, CompleteAssignment inp budget tasks) ∧
    ¬∀ inp : SolverInput, inp.Covers → inp.WithinMaxima inp.executableFree →
      (∃ failure, inp.structural = some failure ∧ failure.code = .failureDomainUnsatisfiable) →
        ∀ budget, inp.WithinMaxima budget → ¬∃ tasks, CompleteAssignment inp budget tasks := by
  constructor
  · intro claim
    refine claim settledOrphanInput (by unfold SolverInput.Covers; decide)
      (SolverInput.withinMaxima_of_listed (by decide)) ⟨_, rfl, by decide⟩ (fun _ => 20)
      (SolverInput.withinMaxima_of_listed (by decide)) ⟨[], ?_⟩
    have valid : ValidAssignment settledOrphanInput (fun _ => 20) [] :=
      ⟨by decide, nofun, nofun, nofun, nofun⟩
    exact ⟨valid, fun _ => 0, nofun⟩
  · intro claim
    refine claim strayInput (by unfold SolverInput.Covers; decide)
      (SolverInput.withinMaxima_of_listed (by decide)) ⟨_, rfl, by decide⟩ (fun _ => 20)
      (SolverInput.withinMaxima_of_listed (by decide))
      ⟨[strayTask], strayInput_valid, fun _ => 0, ?_⟩
    intro t member dep follows placed
    obtain rfl := List.mem_singleton.mp member
    obtain rfl := Option.some.inj (strayInput_followed.symm.trans follows)
    exact absurd placed (by decide)

end Refused

end Modelark.Placement
