import Modelark.Placement.Nodes
import Modelark.Placement.GateB

/-!
# Valid assignments

What a complete assignment has to satisfy, stated on its tasks and the input alone, and the
promises of candidate construction that the solver relies on.
-/

namespace Modelark.Placement

open Library Planning DepthFirst

/-- Candidates are filed under their own requirement, and a pending home is the requirement's own
    dependency, which is not satisfied yet. -/
structure SolverInput.Filed (inp : SolverInput) : Prop where
  keyed : ∀ item ∈ inp.candidates.byRequirement, ∀ c ∈ item.2, c.requirementId = item.1
  pending : ∀ item ∈ inp.candidates.byRequirement, ∀ c ∈ item.2, ∀ home,
    c.source = some (.pendingHome home) → home ∉ inp.satisfiedIds ∧
      ∃ req, inp.reqById[c.requirementId]? = some req ∧ req.independentOf = some home

/-- What candidate construction promises of the input it hands to the solver. -/
structure SolverInput.WellFormed (inp : SolverInput) : Prop extends inp.Filed where
  uniqueIds : (inp.graph.desired.map CopyRequirement.requirementId).Nodup
  /-- Candidates of a requirement are unique per target, source and kind. -/
  distinct : ∀ item ∈ inp.candidates.byRequirement, ∀ c ∈ item.2, ∀ c' ∈ item.2,
    c.targetDrive = c'.targetDrive → c.source = c'.source → c.taskKind = c'.taskKind → c = c'
  /-- The sources of a replica are all proven homes, or all its pending home. -/
  unmixed : ∀ item ∈ inp.candidates.byRequirement, ∀ c ∈ item.2, ∀ c' ∈ item.2, ∀ home,
    c.source = some (.pendingHome home) → c'.source = some (.pendingHome home)
  namedDependency : ∀ req ∈ inp.graph.desired, req.independentOf ≠ some ""

/-- The source of a task is the one its candidate names; a pending home is the target of the
    home's own task. -/
def Resolves (tasks : List AssignmentTask) : Option Source → Option SourceIdentity → Prop
  | some (.identity named), source => source = some named
  | some (.pendingHome home), source =>
      ∃ h ∈ tasks, h.requirementId = home ∧ source = some ⟨h.targetDrive, none, none⟩
  | none, source => source = none

/-- A valid complete assignment under a budget map. -/
structure ValidAssignment (inp : SolverInput) (budget : String → Int)
    (tasks : List AssignmentTask) : Prop where
  /-- One task for every open requirement, in requirement order, and no other task. -/
  ids : tasks.map AssignmentTask.requirementId = inp.unsat
  /-- Every task is one of its requirement's candidates with its source resolved. -/
  candidate : ∀ t ∈ tasks, ∃ c ∈ inp.candsOf t.requirementId,
    t = taskOf inp.capacityMode t.requirementId c t.source ∧ Resolves tasks c.source t.source
  capacity : ∀ t ∈ tasks,
    ((durableOn tasks t.targetDrive + workspaceOn tasks t.targetDrive : Nat) : Int) ≤
      budget t.targetDrive
  dependency : ∀ t ∈ tasks, ∀ req dep, inp.reqById[t.requirementId]? = some req →
    req.independentOf = some dep →
      dep ∈ tasks.map AssignmentTask.requirementId ∨ dep ∈ inp.satisfiedIds
  domain : ∀ t ∈ tasks, ∀ req source hd rd, inp.reqById[t.requirementId]? = some req →
    req.kind = .protectedReplica → t.source = some source →
      inp.driveMap[source.driveLabel]? = some hd → inp.driveMap[t.targetDrive]? = some rd →
        sameFailureDomain hd rd = false

/-- The budget a drive has for new work: zero when its evidence is not executable or it has no
    budget entry. -/
def SolverInput.executableFree (inp : SolverInput) (lab : String) : Int :=
  match inp.evidenceMap[lab]? with
  | some ⟨false⟩ => 0
  | _ => ((Dict.ofPairs inp.executableBudget : Dict String Int)[lab]?).getD 0

namespace SolverInput

variable {inp : SolverInput}

theorem mem_unsat {rid : String} : rid ∈ inp.unsat ↔
    (∃ req ∈ inp.graph.desired, req.requirementId = rid) ∧
      rid ∉ inp.satisfiedIds ∧ rid ∉ inp.blockedById := by
  simp only [unsat, mem_sortBy, List.mem_filter, List.mem_map, decide_eq_true_eq]

theorem nodup_unsat (unique : (inp.graph.desired.map CopyRequirement.requirementId).Nodup) :
    inp.unsat.Nodup :=
  (sortBy_perm id _).nodup_iff.mpr (unique.filter _)

theorem sorted_unsat : inp.unsat.Pairwise (· ≤ ·) :=
  pairwise_sortBy id _

/-- A listed candidate comes from a group of the candidate set. -/
theorem mem_candsOf {rid : String} {c : Candidate} (member : c ∈ inp.candsOf rid) :
    ∃ item ∈ inp.candidates.byRequirement, item.1 = rid ∧ c ∈ item.2 ∧ inp.candsOf rid = item.2 := by
  rw [candsOf, Dict.getD_eq] at member
  cases found : inp.candsByReq[rid]? with
  | none =>
      rw [found] at member
      exact absurd member List.not_mem_nil
  | some cands =>
      rw [found] at member
      refine ⟨(rid, cands), Dict.mem_of_lookup_ofPairs found, rfl, member, ?_⟩
      rw [candsOf, Dict.getD_eq, found, Option.getD_some]

theorem Filed.requirementId (filed : inp.Filed) {rid : String} {c : Candidate}
    (member : c ∈ inp.candsOf rid) : c.requirementId = rid := by
  obtain ⟨item, listed, rfl, among, _⟩ := mem_candsOf member
  exact filed.keyed item listed c among

theorem length_candsOf_le (rid : String) :
    (inp.candsOf rid).length ≤ total (fun item => item.2.length) inp.candidates.byRequirement := by
  cases cands : inp.candsOf rid with
  | nil => exact Nat.zero_le _
  | cons c rest =>
      have first : c ∈ inp.candsOf rid := by
        rw [cands]
        exact List.mem_cons_self ..
      obtain ⟨item, listed, _, _, same⟩ := mem_candsOf first
      rw [← cands, same]
      exact le_total_of_mem (f := fun item : String × List Candidate => item.2.length) listed

variable (inp) in
/-- Zeroing the non-executable drives leaves the executable budget of every drive. -/
theorem freeMap_getD (lab : String) : inp.freeMap.getD lab 0 = inp.executableFree lab := by
  have zeroed : ∀ (items : List (String × DriveEvidenceFact)) (free : Dict String Int),
      (items.map Prod.fst).Nodup →
      (items.foldl (fun free item => if item.2.executable then free else free.insert item.1 0)
        free)[lab]? = if (lab, ⟨false⟩) ∈ items then some 0 else free[lab]? := by
    intro items
    induction items with
    | nil => intro free _; rfl
    | cons item items ih =>
        intro free distinct
        rw [List.foldl_cons, ih _ (List.nodup_cons.mp distinct).2]
        obtain ⟨label, ⟨executable⟩⟩ := item
        by_cases later : (lab, ⟨false⟩) ∈ items
        · rw [if_pos later, if_pos (List.mem_cons_of_mem _ later)]
        rw [if_neg later]
        cases executable with
        | true => simp [later]
        | false =>
            rw [if_neg Bool.false_ne_true, Dict.lookup_insert]
            by_cases here : label = lab
            · subst here
              simp
            · simp [here, later, Ne.symm here]
  rw [Dict.getD_eq, freeMap, zeroed _ _ (Dict.nodup_keys_toList _), executableFree]
  simp only [Dict.mem_toList]
  cases found : inp.evidenceMap[lab]? with
  | none => simp
  | some evidence =>
      obtain ⟨executable⟩ := evidence
      cases executable <;> simp

end SolverInput

end Modelark.Placement
