import Modelark.Placement.Structural

/-!
# Dependency order

The cycle check leaves the requirements in an order in which every dependency comes first. Hence
among the requirements that are still unassigned there is always one whose dependency is not.
-/

namespace Modelark.Placement

open Library Planning

namespace SolverInput

variable {inp : SolverInput}

/-- Most recent first: every followed dependency of an id is further down the list. -/
inductive Ordered (inp : SolverInput) : List String → Prop
  | nil : Ordered inp []
  | cons {rid rest} : Ordered inp rest →
      (∀ dep, inp.followedDependency rid = some dep → dep ∈ rest) → Ordered inp (rid :: rest)

/-- A visit that meets no cycle extends the order by the requirement and its dependencies. -/
theorem visit_ordered {fuel : Nat} {rid : String} {state after : VisitState}
    (visited : inp.visit fuel rid state = (false, after)) (ordered : Ordered inp state.seen) :
    Ordered inp after.seen ∧ rid ∈ after.seen ∧ state.seen ⊆ after.seen := by
  induction fuel generalizing rid state after with
  | zero => cases visited
  | succ fuel ih =>
      rw [visit] at visited
      split_ifs at visited with seen visiting
      · obtain rfl := (Prod.mk.inj visited).2
        exact ⟨ordered, seen, List.Subset.refl _⟩
      · cases visited
      · cases dependency : inp.followedDependency rid with
        | none =>
            rw [dependency] at visited
            obtain rfl := (Prod.mk.inj visited).2
            refine ⟨.cons ordered ?_, List.mem_cons_self .., List.subset_cons_self ..⟩
            intro dep follows
            rw [dependency] at follows
            cases follows
        | some dep =>
            rw [dependency] at visited
            dsimp only at visited
            split at visited
            · cases visited
            · rename_i inner below
              obtain rfl := (Prod.mk.inj visited).2
              obtain ⟨innerOrdered, reached, grown⟩ := ih below ordered
              refine ⟨.cons innerOrdered ?_, List.mem_cons_self .., ?_⟩
              · intro dep' follows
                rw [dependency, Option.some.injEq] at follows
                exact follows ▸ reached
              · exact List.Subset.trans grown (List.subset_cons_self ..)

theorem firstCycle_ordered {reqs : List CopyRequirement} {state : VisitState}
    (none : inp.firstCycle reqs state = none) (ordered : Ordered inp state.seen) :
    ∃ seen, Ordered inp seen ∧ state.seen ⊆ seen ∧ ∀ req ∈ reqs, req.requirementId ∈ seen := by
  induction reqs generalizing state with
  | nil => exact ⟨_, ordered, List.Subset.refl _, nofun⟩
  | cons req rest ih =>
      rw [firstCycle] at none
      split at none
      · cases none
      · rename_i after visited
        obtain ⟨afterOrdered, reached, grown⟩ := visit_ordered visited ordered
        obtain ⟨seen, listed, more, all⟩ := ih none afterOrdered
        refine ⟨seen, listed, List.Subset.trans grown more, ?_⟩
        intro other member
        rcases List.mem_cons.mp member with rfl | later
        · exact more reached
        · exact all other later

/-- Without a cycle, all requirements have a place in one order. -/
theorem exists_ordered (acyclic : inp.dependencyCycle = none) :
    ∃ seen, Ordered inp seen ∧ ∀ req ∈ inp.graph.desired, req.requirementId ∈ seen := by
  obtain ⟨seen, ordered, _, all⟩ :=
    firstCycle_ordered (Option.map_eq_none_iff.mp acyclic) .nil
  exact ⟨seen, ordered, fun req member => all req (mem_sortBy.mpr member)⟩

/-- If some listed id is unassigned, one of them has no unassigned dependency. -/
theorem Ordered.exists_ready {seen : List String} (ordered : Ordered inp seen)
    {Unassigned : String → Prop} {rid : String} (member : rid ∈ seen)
    (unassigned : Unassigned rid) :
    ∃ rid, Unassigned rid ∧
      ∀ dep, inp.followedDependency rid = some dep → ¬Unassigned dep := by
  induction ordered generalizing rid with
  | nil => exact absurd member List.not_mem_nil
  | @cons last rest _ follows ih =>
      by_cases earlier : ∃ other ∈ rest, Unassigned other
      · obtain ⟨other, listed, waiting⟩ := earlier
        exact ih listed waiting
      · rcases List.mem_cons.mp member with rfl | listed
        · exact ⟨rid, unassigned, fun dep needs waiting =>
            earlier ⟨dep, follows dep needs, waiting⟩⟩
        · exact absurd ⟨rid, listed, unassigned⟩ earlier

section Fuel

/-- With fuel for one more id than there are requirements, further fuel changes nothing. -/
theorem visit_fuel {fuel : Nat} {rid : String} {state : VisitState}
    (distinct : state.visiting.Nodup) (known : ∀ id ∈ state.visiting, id ∈ inp.reqById)
    (enough : inp.graph.desired.length < fuel + state.visiting.length) :
    inp.visit (fuel + 1) rid state = inp.visit fuel rid state := by
  induction fuel generalizing rid state with
  | zero =>
      have listed : state.visiting ⊆ inp.graph.desired.map CopyRequirement.requirementId := by
        intro id member
        obtain ⟨req, found⟩ := Dict.mem_ofPairs.mp (known id member)
        obtain ⟨req', among, same⟩ := List.mem_map.mp found
        exact List.mem_map.mpr ⟨req', among, congrArg Prod.fst same⟩
      have short := (List.subperm_of_subset distinct listed).length_le
      rw [List.length_map] at short
      omega
  | succ fuel ih =>
      rw [visit, visit.eq_def inp (fuel + 1)]
      dsimp only
      split_ifs with seen visiting
      · rfl
      · rfl
      · cases dependency : inp.followedDependency rid with
        | none => rfl
        | some dep =>
            have here : rid ∈ inp.reqById := by
              rw [Dict.mem_iff_isSome]
              cases found : inp.reqById[rid]? with
              | none => simp [followedDependency, found] at dependency
              | some req => rfl
            have deeper := @ih dep { state with visiting := rid :: state.visiting }
              (List.nodup_cons.mpr ⟨visiting, distinct⟩)
              (List.forall_mem_cons.mpr ⟨here, known⟩)
              (by rw [List.length_cons]; omega)
            dsimp only
            rw [deeper]

end Fuel

end SolverInput

end Modelark.Placement
