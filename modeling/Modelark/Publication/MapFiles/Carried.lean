import Modelark.Publication.MapFiles.Resumed

/-!
# Runs of steps

A run that was never interrupted passes boundaries between its steps. Wherever it is left, the steps before
are recognised, one step is resumed, and the steps after are carried out as they would have been.
-/

namespace Modelark.Publication.MapFiles

open Library
open Revision (Failure)

variable {O D : Type} {naming : Naming O D} {plan : Plan O}
variable {operation : Operation} {known : List String} {step : Step O D} {steps : List (Step O D)}
variable {receipts : List (String × String)} {last : Option (Receipt O)} {u w acted final left : World O D}
variable {proof : Receipt O} {crash : World O D → Prop}

/-- A later world, with all rows as they were. -/
structure Beyond (naming : Naming O D) (plan : Plan O) (u w : World O D) : Prop where
  held : w.held = u.held
  rows : ∀ (key : String) (row : Row O D), u.journal[key]? = some row → w.journal[key]? = some row
  revision : u.revision ≤ w.revision
  scratch : Grown naming.git plan u.scratch w.scratch

theorem Beyond.refl (w : World O D) : Beyond naming plan w w :=
  ⟨rfl, fun _ _ found => found, Nat.le_refl _, Grown.refl _⟩

theorem Beyond.trans {v : World O D} (first : Beyond naming plan u v) (second : Beyond naming plan v w) :
    Beyond naming plan u w where
  held := second.held.trans first.held
  rows key row found := second.rows key row (first.rows key row found)
  revision := first.revision.trans second.revision
  scratch := first.scratch.trans second.scratch

theorem Beyond.keeps (beyond : Beyond naming plan u w) : Keeps u w :=
  ⟨beyond.held, fun key row found _ => beyond.rows key row found, beyond.revision⟩

/-- What is new in a journal was not there before. -/
theorem Beyond.fresh (beyond : Beyond naming plan u w) {key : String} (absent : w.journal[key]? = none) :
    u.journal[key]? = none := by
  cases found : u.journal[key]? with
  | none => rfl
  | some row =>
      rw [beyond.rows key row found] at absent
      cases absent

theorem beyond_begun (fresh : w.journal[idOf naming plan step]? = none) :
    Beyond naming plan w (begunWorld naming plan operation step receipts w) := by
  refine ⟨rfl, fun key row found => ?_, by simp [begunWorld], Grown.refl _⟩
  have apart : idOf naming plan step ≠ key := by
    rintro rfl
    rw [fresh] at found
    cases found
  rw [begunWorld, World.write_journal, Dict.lookup_insert_of_ne _ _ apart]
  exact found

theorem beyond_staged (beyond : Beyond naming plan w u) (grown : Grown naming.git plan u.scratch acted.scratch)
    (same : acted = { u with scratch := acted.scratch }) : Beyond naming plan w acted := by
  rw [same]
  exact ⟨beyond.held, beyond.rows, beyond.revision, beyond.scratch.trans grown⟩

theorem beyond_settled (fresh : w.journal[idOf naming plan step]? = none)
    (grown : Grown naming.git plan w.scratch acted.scratch)
    (same : acted = { begunWorld naming plan operation step receipts w with scratch := acted.scratch }) :
    Beyond naming plan w (settledWorld naming plan operation step receipts w acted proof) := by
  have between : Beyond naming plan w acted := beyond_staged (beyond_begun fresh) grown same
  refine ⟨between.held, fun key row found => ?_, ?_, grown⟩
  · have apart : idOf naming plan step ≠ key := by
      rintro rfl
      rw [fresh] at found
      cases found
    rw [settledWorld, World.write_journal, Dict.lookup_insert_of_ne _ _ apart]
    exact between.rows key row found
  · have le := between.revision
    rw [settledWorld, World.write_revision]
    omega

variable [DecidableEq O] [DecidableEq D]

omit [DecidableEq O] [DecidableEq D] in
theorem Performs.unique {record : Record O D} {other : World O D} {proof' : Receipt O}
    (first : Performs step record w acted proof) (second : Performs step record w other proof') :
    acted = other ∧ proof = proof' := by
  obtain ⟨due, output, needed, ran, proven⟩ := first
  obtain ⟨due', output', needed', ran', proven'⟩ := second
  have same : due = due' := Except.ok.inj (needed.symm.trans needed')
  subst same
  cases due with
  | false =>
      obtain ⟨rfl, rfl⟩ := ran
      obtain ⟨rfl, rfl⟩ := ran'
      exact ⟨rfl, Except.ok.inj (proven.symm.trans proven')⟩
  | true =>
      simp only [ite_true] at ran ran'
      have both := Except.ok.inj (ran.symm.trans ran')
      cases both
      exact ⟨rfl, Except.ok.inj (proven.symm.trans proven')⟩

/-- Steps that are begun and carried out one after another. -/
inductive Trace (naming : Naming O D) (plan : Plan O) (operation : Operation) :
    List (Step O D) → List (String × String) → Option (Receipt O) → World O D → World O D →
      List (String × String) → Option (Receipt O) → Prop where
  | done (receipts : List (String × String)) (last : Option (Receipt O)) (w : World O D) :
      Trace naming plan operation [] receipts last w w receipts last
  | step (step : Step O D) (steps : List (Step O D)) (receipts : List (String × String))
      (last : Option (Receipt O)) (w acted : World O D) (proof : Receipt O) (final : World O D)
      (receipts' : List (String × String)) (last' : Option (Receipt O))
      (begun : Begun naming plan operation step receipts w)
      (performed : Performs step (stepRecord naming plan operation step receipts)
        (begunWorld naming plan operation step receipts w) acted proof)
      (rest : Trace naming plan operation steps
        (receipts ++ [(idOf naming plan step, sealOf naming plan operation step receipts proof)]) (some proof)
        (settledWorld naming plan operation step receipts w acted proof) final receipts' last') :
      Trace naming plan operation (step :: steps) receipts last w final receipts' last'

/-- The worlds in which steps can be left. -/
inductive Passed (naming : Naming O D) (plan : Plan O) (operation : Operation) :
    List (Step O D) → List (String × String) → World O D → World O D → Prop where
  | before (steps : List (Step O D)) (receipts : List (String × String)) (w : World O D) :
      Passed naming plan operation steps receipts w w
  | begun (step : Step O D) (steps : List (Step O D)) (receipts : List (String × String)) (w : World O D)
      (begun : Begun naming plan operation step receipts w) :
      Passed naming plan operation (step :: steps) receipts w (begunWorld naming plan operation step receipts w)
  | acted (step : Step O D) (steps : List (Step O D)) (receipts : List (String × String))
      (w acted : World O D) (proof : Receipt O) (begun : Begun naming plan operation step receipts w)
      (performed : Performs step (stepRecord naming plan operation step receipts)
        (begunWorld naming plan operation step receipts w) acted proof) :
      Passed naming plan operation (step :: steps) receipts w acted
  | later (step : Step O D) (steps : List (Step O D)) (receipts : List (String × String))
      (w acted : World O D) (proof : Receipt O) (left : World O D)
      (begun : Begun naming plan operation step receipts w)
      (performed : Performs step (stepRecord naming plan operation step receipts)
        (begunWorld naming plan operation step receipts w) acted proof)
      (rest : Passed naming plan operation steps
        (receipts ++ [(idOf naming plan step, sealOf naming plan operation step receipts proof)])
        (settledWorld naming plan operation step receipts w acted proof) left) :
      Passed naming plan operation (step :: steps) receipts w left

section Steps

variable {receipts' : List (String × String)} {last' : Option (Receipt O)}

theorem Lawful.beyond (lawful : Lawful naming plan step) (begun : Begun naming plan operation step receipts w)
    (performed : Performs step (stepRecord naming plan operation step receipts)
      (begunWorld naming plan operation step receipts w) acted proof) :
    Beyond naming plan w acted ∧
      Beyond naming plan w (settledWorld naming plan operation step receipts w acted proof) := by
  obtain ⟨same, grown⟩ := lawful.frame _ _ _ _ performed
  exact ⟨beyond_staged (beyond_begun begun.fresh) grown same, beyond_settled begun.fresh grown same⟩

theorem Passed.beyond (passed : Passed naming plan operation steps receipts w left)
    (lawful : ∀ step ∈ steps, Lawful naming plan step) : Beyond naming plan w left := by
  induction passed with
  | before => exact Beyond.refl _
  | begun step steps receipts w begun => exact beyond_begun begun.fresh
  | acted step steps receipts w acted proof begun performed =>
      exact ((lawful step List.mem_cons_self).beyond begun performed).1
  | later step steps receipts w acted proof left begun performed _ ih =>
      apply ((lawful step List.mem_cons_self).beyond begun performed).2.trans
      exact ih fun other member => lawful other (List.mem_cons_of_mem _ member)

theorem Trace.passed (trace : Trace naming plan operation steps receipts last w final receipts' last') :
    Passed naming plan operation steps receipts w final := by
  induction trace with
  | done => exact .before _ _ _
  | step step steps receipts last w acted proof final receipts' last' begun performed _ ih =>
      exact .later step steps receipts w acted proof final begun performed ih

/-- The steps of a run were not journalled before it. -/
theorem Trace.fresh (trace : Trace naming plan operation steps receipts last w final receipts' last')
    (lawful : ∀ step ∈ steps, Lawful naming plan step) :
    ∀ step ∈ steps, w.journal[idOf naming plan step]? = none := by
  induction trace with
  | done => simp
  | step step steps receipts last w acted proof final receipts' last' begun performed _ ih =>
      intro other member
      rcases List.mem_cons.mp member with rfl | member
      · exact begun.fresh
      · have beyond := ((lawful step List.mem_cons_self).beyond begun performed).2
        exact beyond.fresh (ih (fun other member => lawful other (List.mem_cons_of_mem _ member)) other member)

omit [DecidableEq O] [DecidableEq D] in
theorem perform_eq_ok {record : Record O D} (ran : (perform step record).run w = (acted, .ok proof)) :
    Performs step record w acted proof := by
  obtain ⟨_, due, looked, ran⟩ := Program.run_bind_eq_ok ran
  obtain ⟨needed, rfl⟩ := Program.run_look_eq_ok looked
  cases due with
  | false =>
      obtain ⟨proven, rfl⟩ := Program.run_look_eq_ok ran
      exact ⟨false, none, needed, ⟨rfl, rfl⟩, proven⟩
  | true =>
      simp only [ite_true] at ran
      obtain ⟨_, output, native, ran⟩ := Program.run_bind_eq_ok ran
      obtain ⟨proven, rfl⟩ := Program.run_look_eq_ok ran
      exact ⟨true, output, needed, Program.run_atomic_eq_ok native, proven⟩

/-- The actions of this candidate that are journalled so far depend on fewer receipts than there are. -/
def Behind (plan : Plan O) (receipts : List (String × String)) (w : World O D) : Prop :=
  ∀ (key : String) (row : Row O D), w.journal[key]? = some row → row.kind = .mapStage →
    plan.isOwn row.frozen.intent = true → row.frozen.intent.after.length < receipts.length

omit [DecidableEq O] [DecidableEq D] in
theorem isOwn_intent (own : plan.base.files.isSome = true ∧ plan.base.expectedPhase.id = plan.batchId) :
    plan.isOwn (plan.intent naming step receipts) = true := by
  simp [Plan.isOwn, Plan.intent, own.1, own.2]

omit [DecidableEq O] in
/-- An action is not journalled under the identifier of another one. -/
theorem fresh_of_prepare (distinct : Function.Injective naming.intent)
    (own : plan.base.files.isSome = true ∧ plan.base.expectedPhase.id = plan.batchId)
    (behind : Behind plan receipts w)
    (prepared : prepareAction naming plan.operationId (idOf naming plan step) .mapStage
      (plan.intent naming step receipts) w = .ok (acted, ())) :
    w.journal[idOf naming plan step]? = none := by
  cases found : w.journal[idOf naming plan step]? with
  | none => rfl
  | some row =>
      obtain ⟨intent, kind⟩ := prepareAction_stored distinct found prepared
      have short := behind _ row found kind (by rw [intent]; exact isOwn_intent own)
      rw [intent] at short
      exact absurd short (Nat.lt_irrefl _)

theorem journalled_eq_ok {value : (String × String) × Receipt O} (distinct : Function.Injective naming.intent)
    (own : plan.base.files.isSome = true ∧ plan.base.expectedPhase.id = plan.batchId)
    (lawful : Lawful naming plan step) (behind : Behind plan receipts w) (bound : w.held.operation = .ok operation)
    (absent : idOf naming plan step ∉ known)
    (ran : (journalled naming plan known step receipts).run w = (final, .ok value)) :
    ∃ acted, Begun naming plan operation step receipts w ∧
      Performs step (stepRecord naming plan operation step receipts)
        (begunWorld naming plan operation step receipts w) acted value.2 ∧
      final = settledWorld naming plan operation step receipts w acted value.2 ∧
      value.1 = (idOf naming plan step, sealOf naming plan operation step receipts value.2) := by
  have parts : journalled naming plan known step receipts =
      (Program.lift step.ready).bind fun _ => (prepare naming plan known step receipts).bind fun record =>
        (perform step record).bind fun proof => (verified naming plan record proof).bind fun receipt =>
          pure (receipt, proof) := rfl
  rw [parts] at ran
  obtain ⟨start, _, lifted, begins⟩ := Program.run_bind_eq_ok ran
  obtain ⟨ready, rfl⟩ := Program.run_lift_eq_ok lifted
  obtain ⟨after, record, prepared, performs⟩ := Program.run_bind_eq_ok begins
  rw [prepare] at prepared
  obtain ⟨_, _, looked, chosen⟩ := Program.run_bind_eq_ok prepared
  obtain ⟨unchanged, rfl⟩ := Program.run_look_eq_ok looked
  simp only [List.contains_eq_mem, absent, decide_false, Bool.false_eq_true, ite_false] at chosen
  obtain ⟨_, _, written, reads⟩ := Program.run_bind_eq_ok chosen
  have wrote := Program.run_atomic_eq_ok written
  obtain ⟨read, rfl⟩ := Program.run_look_eq_ok reads
  have fresh := fresh_of_prepare distinct own behind wrote
  obtain ⟨valid, rfl⟩ := prepareAction_eq_ok bound fresh wrote
  have begun : Begun naming plan operation step receipts _ := ⟨ready, unchanged, bound, fresh, valid⟩
  have same : record = stepRecord naming plan operation step receipts :=
    Except.ok.inj (read.symm.trans (read_begun begun rfl))
  subst same
  obtain ⟨acted, proof, ran', verifies⟩ := Program.run_bind_eq_ok performs
  have performed := perform_eq_ok ran'
  have staged := (lawful.frame _ _ _ _ performed).1
  obtain ⟨_, receipt, settles, ends⟩ := Program.run_bind_eq_ok verifies
  have meets : (verified naming plan (stepRecord naming plan operation step receipts) proof).Meets
      (fun _ => True) (fun _ _ => False) _ acted := verified_meets_pending begun staged trivial trivial
  obtain ⟨receipt', after, reached, _, rfl, rfl⟩ := meets.returns
  rw [reached] at settles
  cases settles
  cases ends
  exact ⟨acted, begun, performed, rfl, rfl⟩

omit [DecidableEq O] [DecidableEq D] in
theorem Behind.settled (behind : Behind plan receipts w)
    (same : acted = { begunWorld naming plan operation step receipts w with scratch := acted.scratch })
    (receipt : String × String) :
    Behind plan (receipts ++ [receipt]) (settledWorld naming plan operation step receipts w acted proof) := by
  intro key row found kind own
  rw [settledWorld, World.write_journal, Dict.lookup_insert] at found
  rw [List.length_append, List.length_singleton]
  split at found
  · cases found
    exact Nat.lt_succ_self _
  · rename_i apart
    have old : w.journal[key]? = some row := by
      rw [same] at found
      rw [← found, begunWorld, World.write_journal, Dict.lookup_insert_of_ne _ _ apart]
    exact Nat.lt_succ_of_lt (behind key row old kind own)

/-- A run that returned, with nothing journalled before it, is one of steps that were all begun. -/
theorem trace_of_run (distinct : Function.Injective naming.intent)
    (own : plan.base.files.isSome = true ∧ plan.base.expectedPhase.id = plan.batchId)
    (lawful : ∀ step ∈ steps, Lawful naming plan step) (behind : Behind plan receipts w)
    (bound : w.held.operation = .ok operation) (absent : ∀ step ∈ steps, idOf naming plan step ∉ known)
    (ran : (carry naming plan known steps receipts last).run w = (final, .ok (receipts', last'))) :
    Trace naming plan operation steps receipts last w final receipts' last' ∧ Behind plan receipts' final := by
  induction steps generalizing receipts last w with
  | nil =>
      cases ran
      exact ⟨.done _ _ _, behind⟩
  | cons step steps ih =>
      obtain ⟨middle, value, first, rest⟩ := Program.run_bind_eq_ok ran
      obtain ⟨acted, begun, performed, rfl, receipt⟩ := journalled_eq_ok distinct own
        (lawful step List.mem_cons_self) behind bound (absent step List.mem_cons_self) first
      have same := ((lawful step List.mem_cons_self).frame _ _ _ _ performed).1
      rw [receipt] at rest
      obtain ⟨trace, behind'⟩ := ih (fun other member => lawful other (List.mem_cons_of_mem _ member))
        (behind.settled same _) (by rw [settledWorld, World.write_held, same]; exact bound)
        (fun other member => absent other (List.mem_cons_of_mem _ member)) rest
      exact ⟨.step _ _ _ _ _ _ _ _ _ _ begun performed trace, behind'⟩

/-- The course of a step that is done again as it was done. -/
theorem course_of_performs (lawful : Lawful naming plan step) (repeatable : Repeatable step)
    (begun : Begun naming plan operation step receipts w)
    (performed : Performs step (stepRecord naming plan operation step receipts)
      (begunWorld naming plan operation step receipts w) acted proof) :
    Course naming plan operation step receipts w
      (fun other => other = begunWorld naming plan operation step receipts w ∨ other = acted)
      (fun proof' other => proof' = proof ∧ other = acted) where
  begun := begun
  first := .inl rfl
  stage other place := by
    rcases place with rfl | rfl
    · rfl
    · exact (lawful.frame _ _ _ _ performed).1
  onward other place := by
    refine ⟨acted, proof, ?_, .inr rfl, rfl, rfl⟩
    rcases place with rfl | rfl
    · exact performed
    · exact repeatable _ _ _ _ rfl performed
  settled := by
    rintro _ _ ⟨rfl, rfl⟩
    exact ⟨.inr rfl, lawful.recognised _ _ _ _ rfl performed⟩

/-- A step that is over is recognised in every later world. -/
theorem journalled_meets_later (lawful : Lawful naming plan step)
    (begun : Begun naming plan operation step receipts w)
    (performed : Performs step (stepRecord naming plan operation step receipts)
      (begunWorld naming plan operation step receipts w) acted proof)
    (beyond : Beyond naming plan (settledWorld naming plan operation step receipts w acted proof) left)
    (listed : idOf naming plan step ∈ known) (here : crash left) :
    (journalled naming plan known step receipts).Meets crash (fun _ _ => False)
      (fun value now => value =
        ((idOf naming plan step, sealOf naming plan operation step receipts proof), proof) ∧ now = left) left := by
  have same := (lawful.frame _ _ _ _ performed).1
  have unchanged : plan.unchanged naming left.held = .ok () := by
    rw [beyond.held, settledWorld, World.write_held, same]
    exact begun.unchanged
  have found : left.journal[idOf naming plan step]? =
      (settledWorld naming plan operation step receipts w acted proof).journal[idOf naming plan step]? := by
    have row := Dict.lookup_insert_self acted.journal (idOf naming plan step)
      ((stepRow naming plan operation step receipts w).withReceipt naming operation (idOf naming plan step)
        proof acted.revision)
    exact (beyond.rows _ _ row).trans row.symm
  have read := readAction_mono beyond.keeps found (read_settled begun same)
  exact journalled_meets_done begun.ready unchanged listed read rfl rfl rfl
    (lawful.recognised _ _ _ _ rfl performed _ _ _ beyond.scratch rfl) here

/-- Steps that are over are recognised in every later world. -/
theorem carry_meets_later (trace : Trace naming plan operation steps receipts last w final receipts' last')
    (lawful : ∀ step ∈ steps, Lawful naming plan step) (beyond : Beyond naming plan final left)
    (listed : ∀ step ∈ steps, idOf naming plan step ∈ known) (here : crash left) :
    (carry naming plan known steps receipts last).Meets crash (fun _ _ => False)
      (fun value now => value = (receipts', last') ∧ now = left) left := by
  induction trace with
  | done => exact Program.meets_pure here ⟨rfl, rfl⟩
  | step step steps receipts last w acted proof final receipts' last' begun performed rest ih =>
      have others : ∀ other ∈ steps, Lawful naming plan other := fun other member =>
        lawful other (List.mem_cons_of_mem _ member)
      have after := (rest.passed.beyond others).trans beyond
      apply (journalled_meets_later (lawful step List.mem_cons_self) begun performed after
        (listed step List.mem_cons_self) here).onward
      exact ih others beyond fun other member => listed other (List.mem_cons_of_mem _ member)

omit [DecidableEq O] [DecidableEq D] in
/-- A step journals nothing but itself. -/
theorem settled_absent {key : String} (same : acted =
    { begunWorld naming plan operation step receipts w with scratch := acted.scratch })
    (absent : (settledWorld naming plan operation step receipts w acted proof).journal[key]? = none) :
    acted.journal[key]? = none ∧ (begunWorld naming plan operation step receipts w).journal[key]? = none := by
  rw [settledWorld, World.write_journal, Dict.lookup_insert] at absent
  split at absent
  · cases absent
  · refine ⟨absent, ?_⟩
    rw [same] at absent
    exact absent

/-- The steps go on after one that is resumed, none of them having been begun. -/
theorem carry_meets_first (lawful : Lawful naming plan step) (repeatable : Repeatable step)
    (begun : Begun naming plan operation step receipts w)
    (performed : Performs step (stepRecord naming plan operation step receipts)
      (begunWorld naming plan operation step receipts w) acted proof)
    (place : Course.Left naming plan operation step receipts w
      (fun other => other = begunWorld naming plan operation step receipts w ∨ other = acted)
      (fun proof' other => proof' = proof ∧ other = acted) left)
    (listed : idOf naming plan step ∈ known ↔ left.journal[idOf naming plan step]?.isSome = true)
    (crashes : ∀ left, Passed naming plan operation (step :: steps) receipts w left → crash left)
    (rest : (carry naming plan known steps
      (receipts ++ [(idOf naming plan step, sealOf naming plan operation step receipts proof)])
        (some proof)).Meets crash (fun _ _ => False) (fun value now => value = (receipts', last') ∧ now = final)
      (settledWorld naming plan operation step receipts w acted proof)) :
    (carry naming plan known (step :: steps) receipts last).Meets crash (fun _ _ => False)
      (fun value now => value = (receipts', last') ∧ now = final) left := by
  have course := course_of_performs lawful repeatable begun performed
  have kept : ∀ left, Course.Left naming plan operation step receipts w
      (fun other => other = begunWorld naming plan operation step receipts w ∨ other = acted)
      (fun proof' other => proof' = proof ∧ other = acted) left → crash left := by
    intro left place
    cases place with
    | before => exact crashes _ (.before _ _ _)
    | between _ here =>
        rcases here with rfl | rfl
        · exact crashes _ (.begun _ _ _ _ begun)
        · exact crashes _ (.acted _ _ _ _ _ _ begun performed)
    | over' _ _ came =>
        rw [came.1, came.2]
        exact crashes _ (.later _ _ _ _ _ _ _ begun performed (.before _ _ _))
  apply (course.meets place listed kept).seq
  intro value now reached
  obtain ⟨other, came, receipt, same⟩ := reached
  rw [came.1] at receipt same
  rw [came.2] at same
  rw [same, receipt, came.1]
  exact rest

/-- Steps come to the same from wherever they were left. -/
theorem carry_meets (trace : Trace naming plan operation steps receipts last w final receipts' last')
    (lawful : ∀ step ∈ steps, Lawful naming plan step ∧ Repeatable step)
    (passed : Passed naming plan operation steps receipts w left)
    (listed : ∀ step ∈ steps, idOf naming plan step ∈ known ↔
      left.journal[idOf naming plan step]?.isSome = true)
    (crashes : ∀ left, Passed naming plan operation steps receipts w left → crash left) :
    (carry naming plan known steps receipts last).Meets crash (fun _ _ => False)
      (fun value now => value = (receipts', last') ∧ now = final) left := by
  induction trace generalizing left with
  | done =>
      cases passed
      exact Program.meets_pure (crashes _ (.before _ _ _)) ⟨rfl, rfl⟩
  | step step steps receipts last w acted proof final receipts' last' begun performed rest ih =>
      have others : ∀ other ∈ steps, Lawful naming plan other ∧ Repeatable other := fun other member =>
        lawful other (List.mem_cons_of_mem _ member)
      have later : ∀ other ∈ steps, idOf naming plan other ∈ known ↔
          left.journal[idOf naming plan other]?.isSome = true := fun other member =>
        listed other (List.mem_cons_of_mem _ member)
      obtain ⟨lawful', repeatable⟩ := lawful step List.mem_cons_self
      have same := (lawful'.frame _ _ _ _ performed).1
      have unbegun := rest.fresh fun other member => (others other member).1
      have onward : ∀ left, Passed naming plan operation steps
          (receipts ++ [(idOf naming plan step, sealOf naming plan operation step receipts proof)])
          (settledWorld naming plan operation step receipts w acted proof) left → crash left :=
        fun left passed => crashes left (.later _ _ _ _ _ _ _ begun performed passed)
      -- the steps after one that is not over have not been begun
      have afterwards : (∀ other ∈ steps, left.journal[idOf naming plan other]? = none) →
          (carry naming plan known steps
            (receipts ++ [(idOf naming plan step, sealOf naming plan operation step receipts proof)])
              (some proof)).Meets crash (fun _ _ => False)
            (fun value now => value = (receipts', last') ∧ now = final)
            (settledWorld naming plan operation step receipts w acted proof) := by
        intro absent
        apply ih others (.before _ _ _) _ onward
        intro other member
        rw [later other member, unbegun other member, absent other member]
      have first (place : Course.Left naming plan operation step receipts w
            (fun other => other = begunWorld naming plan operation step receipts w ∨ other = acted)
            (fun proof' other => proof' = proof ∧ other = acted) left)
          (absent : ∀ other ∈ steps, left.journal[idOf naming plan other]? = none) :
          (carry naming plan known (step :: steps) receipts last).Meets crash (fun _ _ => False)
            (fun value now => value = (receipts', last') ∧ now = final) left :=
        carry_meets_first lawful' repeatable begun performed place (listed step List.mem_cons_self) crashes
          (afterwards absent)
      cases passed with
      | before =>
          apply first .before
          exact fun other member => (lawful'.beyond begun performed).2.fresh (unbegun other member)
      | begun =>
          apply first (.between _ (.inl rfl))
          exact fun other member => (settled_absent same (unbegun other member)).2
      | acted _ _ _ _ _ proof' _ performed' =>
          obtain ⟨rfl, rfl⟩ := performed.unique performed'
          apply first (.between _ (.inr rfl))
          exact fun other member => (settled_absent same (unbegun other member)).1
      | later _ _ _ _ acted' proof' _ _ performed' passed' =>
          obtain ⟨rfl, rfl⟩ := performed.unique performed'
          have after := passed'.beyond fun other member => (others other member).1
          have there := after.rows _ _ (Dict.lookup_insert_self _ _ _)
          have known' : idOf naming plan step ∈ known := by
            rw [listed step List.mem_cons_self, there]
            rfl
          apply (journalled_meets_later lawful' begun performed after known' (onward _ passed')).onward
          exact ih others passed' later onward

end Steps

end Modelark.Publication.MapFiles
