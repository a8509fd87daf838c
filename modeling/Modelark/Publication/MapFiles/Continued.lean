import Modelark.Publication.MapFiles.Carried

/-!
# Candidates that are continued

A candidate that is begun again, wherever it was left, sees the same plan, and the actions that are its own:
those that were journalled since.
-/

namespace Modelark.Publication.MapFiles

open Library
open Revision (Failure)

variable {O D : Type} [DecidableEq O] [DecidableEq D] {naming : Naming O D} {plan : Plan O}
variable {operation : Operation} {step : Step O D} {steps : List (Step O D)} {ids : List String}
variable {receipts : List (String × String)} {u w acted left : World O D} {proof : Receipt O}

/-- The rows since a world are those of this candidate's actions, and can be read. -/
def New (naming : Naming O D) (plan : Plan O) (ids : List String) (u w : World O D) : Prop :=
  ∀ (key : String) (row : Row O D), w.journal[key]? = some row → u.journal[key]? = some row ∨
    (u.journal[key]? = none ∧ row.kind = .mapStage ∧ key ∈ ids ∧
      ∃ record, readAction naming plan.operationId w key = .ok record ∧ record.intent.base = plan.base)

theorem new_staged (begun : Begun naming plan operation step receipts w) (member : idOf naming plan step ∈ ids)
    (same : acted = { begunWorld naming plan operation step receipts w with scratch := acted.scratch }) :
    New naming plan ids w acted := by
  intro key row found
  by_cases named : idOf naming plan step = key
  · subst named
    rw [found_begun same] at found
    cases found
    exact .inr ⟨begun.fresh, rfl, member, _, read_begun begun same, rfl⟩
  · left
    rw [same] at found
    rw [← found, begunWorld, World.write_journal, Dict.lookup_insert_of_ne _ _ named]

theorem new_settled (begun : Begun naming plan operation step receipts w) (member : idOf naming plan step ∈ ids)
    (same : acted = { begunWorld naming plan operation step receipts w with scratch := acted.scratch }) :
    New naming plan ids w (settledWorld naming plan operation step receipts w acted proof) := by
  intro key row found
  rw [settledWorld, World.write_journal, Dict.lookup_insert] at found
  split at found
  · rename_i named
    subst named
    cases found
    exact .inr ⟨begun.fresh, rfl, member, _, read_settled begun same, rfl⟩
  · rename_i named
    left
    rw [same] at found
    rw [← found, begunWorld, World.write_journal, Dict.lookup_insert_of_ne _ _ named]

omit [DecidableEq O] in
/-- What is new since a world and is kept after it is new since that world. -/
theorem New.trans {v : World O D} (first : New naming plan ids u v) (beyond : Beyond naming plan u v)
    (kept : Beyond naming plan v w) (second : New naming plan ids v w) : New naming plan ids u w := by
  intro key row found
  rcases second key row found with old | ⟨absent, rest⟩
  · rcases first key row old with older | ⟨fresh, kind, member, record, read, base⟩
    · exact .inl older
    · refine .inr ⟨fresh, kind, member, record, ?_, base⟩
      exact readAction_mono kept.keeps (found.trans old.symm) read
  · exact .inr ⟨beyond.fresh absent, rest⟩

theorem Passed.new (passed : Passed naming plan operation steps receipts w left)
    (lawful : ∀ step ∈ steps, Lawful naming plan step) (named : ∀ step ∈ steps, idOf naming plan step ∈ ids) :
    New naming plan ids w left := by
  induction passed with
  | before => exact fun _ _ found => .inl found
  | begun step steps receipts w begun => exact new_staged begun (named step List.mem_cons_self) rfl
  | acted step steps receipts w acted proof begun performed =>
      exact new_staged begun (named step List.mem_cons_self)
        ((lawful step List.mem_cons_self).frame _ _ _ _ performed).1
  | later step steps receipts w acted proof left begun performed passed ih =>
      have others : ∀ other ∈ steps, Lawful naming plan other := fun other member =>
        lawful other (List.mem_cons_of_mem _ member)
      have first := lawful step List.mem_cons_self
      exact (new_settled begun (named step List.mem_cons_self) (first.frame _ _ _ _ performed).1).trans
        (first.beyond begun performed).2 (passed.beyond others)
        (ih others fun other member => named other (List.mem_cons_of_mem _ member))

/-- The index is as it was, or the action that changes it is journalled since. -/
def IndexKept (naming : Naming O D) (plan : Plan O) (u w : World O D) : Prop :=
  w.scratch.index = u.scratch.index ∨
    (u.journal[plan.actionId naming "index"]? = none ∧ w.journal[plan.actionId naming "index"]?.isSome = true)

omit [DecidableEq O] [DecidableEq D] in
theorem IndexKept.trans {v : World O D} (first : IndexKept naming plan u v) (beyond : Beyond naming plan u v)
    (kept : Beyond naming plan v w) (second : IndexKept naming plan v w) : IndexKept naming plan u w := by
  rcases second with same | ⟨absent, present⟩
  · rcases first with same' | ⟨absent, present⟩
    · exact .inl (same.trans same')
    · obtain ⟨row, found⟩ := Option.isSome_iff_exists.mp present
      exact .inr ⟨absent, by rw [kept.rows _ _ found]; rfl⟩
  · exact .inr ⟨beyond.fresh absent, present⟩

theorem Lawful.indexKept (lawful : Lawful naming plan step) (begun : Begun naming plan operation step receipts w)
    (performed : Performs step (stepRecord naming plan operation step receipts)
      (begunWorld naming plan operation step receipts w) acted proof) :
    IndexKept naming plan w acted ∧
      IndexKept naming plan w (settledWorld naming plan operation step receipts w acted proof) := by
  have same := (lawful.frame _ _ _ _ performed).1
  rcases lawful.index _ _ _ _ performed with named | index
  · have found := found_begun same
    have absent := begun.fresh
    rw [idOf, named] at found absent
    refine ⟨.inr ⟨absent, by rw [found]; rfl⟩, .inr ⟨absent, ?_⟩⟩
    have written := Dict.lookup_insert_self acted.journal (plan.actionId naming "index")
      ((stepRow naming plan operation step receipts w).withReceipt naming operation (idOf naming plan step) proof
        acted.revision)
    rw [settledWorld, World.write_journal, idOf, named]
    rw [idOf, named] at written
    rw [written]
    rfl
  · exact ⟨.inl index, .inl index⟩

theorem Passed.indexKept (passed : Passed naming plan operation steps receipts w left)
    (lawful : ∀ step ∈ steps, Lawful naming plan step) : IndexKept naming plan w left := by
  induction passed with
  | before => exact .inl rfl
  | begun => exact .inl rfl
  | acted step steps receipts w acted proof begun performed =>
      exact ((lawful step List.mem_cons_self).indexKept begun performed).1
  | later step steps receipts w acted proof left begun performed passed ih =>
      have others : ∀ other ∈ steps, Lawful naming plan other := fun other member =>
        lawful other (List.mem_cons_of_mem _ member)
      have first := lawful step List.mem_cons_self
      exact (first.indexKept begun performed).2.trans (first.beyond begun performed).2 (passed.beyond others)
        (ih others)

section Survey

variable {arguments : Arguments O} {known : List String}

/-- What a survey that returns has checked. -/
structure Surveyed (naming : Naming O D) (arguments : Arguments O) (w : World O D) (plan : Plan O)
    (known : List String) : Prop where
  opening : ∃ opening, opened naming w.held arguments = .ok opening ∧
    merge naming w.held arguments.batchId opening = .ok plan
  index : ∃ index, listed w.scratch.index = .ok index ∧ plan.admits index = true ∧
    (plan.delta.isEmpty || index != plan.expected || known.contains (plan.actionId naming "index")) = true
  apart : apart (plan.expected.map TreeEntry.path) = true
  existing : plan.existing naming w arguments.resume = .ok known
  expected : known.all (plan.expectedActions naming w.held).contains = true

theorem survey_eq_ok : survey naming arguments w = .ok (plan, known) ↔
    Surveyed naming arguments w plan known := by
  simp only [survey, bind_eq_ok, require_eq_ok, pure_eq_ok, Prod.mk.injEq]
  constructor
  · rintro ⟨opening, first, index, read, plan', merged, _, admitted, _, apart, known', existing, _, among, _,
      intended, rfl, rfl⟩
    exact ⟨⟨opening, first, merged⟩, ⟨index, read, admitted, intended⟩, apart, existing, among⟩
  · rintro ⟨⟨opening, first, merged⟩, ⟨index, read, admitted, intended⟩, apart, existing, among⟩
    exact ⟨opening, first, index, read, plan, merged, (), admitted, (), apart, known, existing, (), among, (),
      intended, rfl, rfl⟩

omit [DecidableEq D] in
/-- The actions of a plan's candidate are known by what they are bound to. -/
theorem merge_own {opening : Opening O} {batchId : String}
    (merged : merge naming w.held batchId opening = .ok plan) :
    plan.base.files.isSome = true ∧ plan.base.expectedPhase.id = plan.batchId := by
  simp only [merge, bind_eq_ok, pure_eq_ok] at merged
  obtain ⟨_, _, _, _, _, _, _, _, _, _, rfl⟩ := merged
  exact ⟨rfl, rfl⟩

/-- An action is recognised when it can be read and is bound to the same. -/
theorem recognise_own (own : plan.base.files.isSome = true ∧ plan.base.expectedPhase.id = plan.batchId)
    {record : Record O D} {entry : String × Row O D}
    (read : readAction naming plan.operationId w entry.1 = .ok record) (base : record.intent.base = plan.base) :
    plan.recognise naming w true entry = .ok (some entry.1) := by
  have mine : plan.isOwn record.intent = true := by simp [Plan.isOwn, base, own.1, own.2]
  simp only [Plan.recognise, read, ok_bind, mine, ite_true, base, beq_self_eq_true, require]
  rfl

/-- Before the first action of a candidate nothing is recognised. -/
theorem recognise_first {entry : String × Row O D} {result : Option String}
    (recognised : plan.recognise naming w false entry = .ok result) :
    result = none ∧ ∃ record, readAction naming plan.operationId w entry.1 = .ok record ∧
      plan.isOwn record.intent = false := by
  simp only [Plan.recognise, bind_eq_ok] at recognised
  obtain ⟨record, read, rest⟩ := recognised
  split at rest
  · simp only [bind_eq_ok, require_eq_ok, Bool.false_eq_true, false_and, exists_false] at rest
  · rename_i foreign
    exact ⟨(pure_eq_ok.mp rest).symm, record, read, by simpa using foreign⟩

omit [DecidableEq O] [DecidableEq D] in
theorem mem_staged {entry : String × Row O D} :
    entry ∈ w.journal.toList.filter (·.2.kind == .mapStage) ↔
      w.journal[entry.1]? = some entry.2 ∧ entry.2.kind = .mapStage := by
  rw [List.mem_filter, beq_iff_eq, ← Dict.mem_toList]

/-- A survey that finds nothing of its candidate finds, later on, what was journalled since. -/
theorem survey_later (first : survey naming { arguments with resume := false } u = .ok (plan, known))
    (beyond : Beyond naming plan u w) (new : New naming plan (plan.expectedActions naming u.held) u w)
    (indexKept : IndexKept naming plan u w) :
    ∃ known', survey naming { arguments with resume := true } w = .ok (plan, known') ∧
      ∀ key, key ∈ known' ↔ w.journal[key]?.isSome = true ∧ u.journal[key]? = none := by
  obtain ⟨⟨opening, opened', merged⟩, ⟨index, read, admitted, intended⟩, apart', existing, among⟩ :=
    survey_eq_ok.mp first
  have own := merge_own merged
  obtain ⟨each, result⟩ := collect_eq_ok.mp existing
  -- what was there before is of other candidates, and what is new is of this one
  have old : ∀ entry : String × Row O D, u.journal[entry.1]? = some entry.2 → entry.2.kind = .mapStage →
      w.journal[entry.1]? = some entry.2 → plan.recognise naming w true entry = .ok none := by
    intro entry found kind later
    obtain ⟨kept, recognised⟩ := each entry (mem_staged.mpr ⟨found, kind⟩)
    obtain ⟨_, record, read, foreign⟩ := recognise_first recognised
    have read' := readAction_mono beyond.keeps (later.trans found.symm) read
    simp only [Plan.recognise, read', ok_bind, foreign, Bool.false_eq_true, ite_false]
    rfl
  have fresh : ∀ entry : String × Row O D, w.journal[entry.1]? = some entry.2 → u.journal[entry.1]? = none →
      entry.2.kind = .mapStage ∧ entry.1 ∈ plan.expectedActions naming u.held ∧
        plan.recognise naming w true entry = .ok (some entry.1) := by
    intro entry found absent
    rcases new entry.1 entry.2 found with older | ⟨_, kind, member, record, read, base⟩
    · rw [absent] at older
      cases older
    · exact ⟨kind, member, recognise_own own read base⟩
  have every : ∀ entry ∈ w.journal.toList.filter (·.2.kind == .mapStage),
      ∃ kept, plan.recognise naming w true entry = .ok kept := by
    intro entry member
    obtain ⟨found, kind⟩ := mem_staged.mp member
    cases before : u.journal[entry.1]? with
    | none => exact ⟨_, (fresh entry found before).2.2⟩
    | some row =>
        have same : row = entry.2 := Option.some.inj ((beyond.rows _ _ before).symm.trans found)
        exact ⟨_, old entry (by rw [before, same]) kind found⟩
  let known' := (w.journal.toList.filter (·.2.kind == .mapStage)).filterMap fun entry =>
    (plan.recognise naming w true entry).toOption.join
  have members : ∀ key, key ∈ known' ↔ w.journal[key]?.isSome = true ∧ u.journal[key]? = none := by
    intro key
    rw [List.mem_filterMap]
    constructor
    · rintro ⟨entry, member, kept⟩
      obtain ⟨found, kind⟩ := mem_staged.mp member
      cases before : u.journal[entry.1]? with
      | none =>
          rw [(fresh entry found before).2.2] at kept
          cases kept
          rw [found]
          exact ⟨rfl, before⟩
      | some row =>
          have same : row = entry.2 := Option.some.inj ((beyond.rows _ _ before).symm.trans found)
          rw [old entry (by rw [before, same]) kind found] at kept
          cases kept
    · rintro ⟨present, absent⟩
      obtain ⟨row, found⟩ := Option.isSome_iff_exists.mp present
      obtain ⟨kind, _, recognised⟩ := fresh (key, row) found absent
      exact ⟨(key, row), mem_staged.mpr ⟨found, kind⟩, by rw [recognised]; rfl⟩
  refine ⟨known', survey_eq_ok.mpr ⟨⟨opening, ?_, ?_⟩, ?_, apart', ?_, ?_⟩, members⟩
  · rw [beyond.held]
    exact opened'
  · rw [beyond.held]
    exact merged
  · obtain ⟨index', read', admitted'⟩ := beyond.scratch.admits read admitted
    refine ⟨index', read', admitted', ?_⟩
    rcases indexKept with same | ⟨absent, present⟩
    · rw [same, read] at read'
      cases read'
      simp only [Bool.or_eq_true, bne_iff_ne, ne_eq, List.contains_eq_mem, decide_eq_true_eq] at intended ⊢
      rcases intended with (none' | other) | listed'
      · exact .inl (.inl none')
      · exact .inl (.inr other)
      · exfalso
        rw [result, List.mem_filterMap] at listed'
        obtain ⟨entry, member, kept⟩ := listed'
        obtain ⟨found, recognised⟩ := each entry member
        rw [recognised, (recognise_first recognised).1] at kept
        cases kept
    · simp only [Bool.or_eq_true, List.contains_eq_mem, decide_eq_true_eq]
      exact .inr ((members _).mpr ⟨present, absent⟩)
  · exact collect_eq_ok.mpr ⟨every, rfl⟩
  · rw [List.all_eq_true]
    intro key member
    obtain ⟨present, absent⟩ := (members key).mp member
    obtain ⟨row, found⟩ := Option.isSome_iff_exists.mp present
    rw [beyond.held]
    simpa using (fresh (key, row) found absent).2.1

end Survey

end Modelark.Publication.MapFiles
