import Modelark.Publication.MapFiles.Laws

/-!
# Steps that are resumed

A step goes on from wherever it was interrupted: before its intent was journalled, before or after its
native command, or before or after its receipt. It comes to what it would have come to without.
-/

namespace Modelark.Publication.MapFiles

open Library
open Revision (Failure)

variable {O D : Type} [DecidableEq O] [DecidableEq D] {naming : Naming O D} {plan : Plan O}
variable {operation : Operation} {known : List String} {step : Step O D} {after : List (String × String)}
variable {w : World O D} {record : Record O D} {proof : Receipt O} {crash : World O D → Prop}

omit [DecidableEq O] [DecidableEq D] in
theorem perform_meets {acted : World O D} (performed : Performs step record w acted proof) (here : crash w)
    (then' : crash acted) :
    (perform step record).Meets crash (fun _ _ => False) (fun value now => value = proof ∧ now = acted) w := by
  obtain ⟨due, output, needed, ran, proven⟩ := performed
  refine Program.meets_look_bind needed here ?_
  cases due with
  | false =>
      obtain ⟨rfl, rfl⟩ := ran
      exact Program.meets_look_of_ok proven here ⟨rfl, rfl⟩
  | true =>
      simp only [ite_true] at ran ⊢
      exact Program.meets_atomic_bind ran here (Program.meets_look_of_ok proven then' ⟨rfl, rfl⟩)

/-- The identifier of a step's action. -/
abbrev idOf (naming : Naming O D) (plan : Plan O) (step : Step O D) : String :=
  plan.actionId naming step.name

/-- An action that is journalled already is recognised. -/
theorem prepare_meets_known (unchanged : plan.unchanged naming w.held = .ok ())
    (listed : idOf naming plan step ∈ known)
    (read : readAction naming plan.operationId w (idOf naming plan step) = .ok record)
    (intent : record.intent = plan.intent naming step after) (kind : record.kind = .mapStage)
    (here : crash w) :
    (prepare naming plan known step after).Meets crash (fun _ _ => False)
      (fun value now => value = record ∧ now = w) w := by
  refine Program.meets_look_bind unchanged here ?_
  simp only [List.contains_eq_mem, listed, decide_true, ite_true]
  refine Program.meets_look_of_ok ?_ here ⟨rfl, rfl⟩
  simp [read, intent, kind, require]

/-- What has to hold for a step to be begun: nothing of it is journalled. -/
structure Begun (naming : Naming O D) (plan : Plan O) (operation : Operation) (step : Step O D)
    (after : List (String × String)) (w : World O D) : Prop where
  ready : step.ready = .ok ()
  unchanged : plan.unchanged naming w.held = .ok ()
  bound : w.held.operation = .ok operation
  fresh : w.journal[idOf naming plan step]? = none
  valid : validateIntent naming plan.operationId w (plan.intent naming step after) operation true = .ok ()

section Begun

variable (naming plan operation step after w)

/-- The row of a step that was begun. -/
def stepRow : Row O D :=
  pendingRow naming plan.operationId operation (idOf naming plan step) .mapStage (plan.intent naming step after)
    w.revision

/-- The world in which a step was begun. -/
def begunWorld : World O D :=
  w.write (idOf naming plan step) (stepRow naming plan operation step after w)

/-- The record of a step that was begun. -/
def stepRecord : Record O D :=
  ⟨idOf naming plan step, .mapStage, plan.intent naming step after, naming.intent
    ⟨plan.operationId, operation.digest, idOf naming plan step, .mapStage, plan.intent naming step after⟩, none⟩

/-- The digest of a step's receipt. -/
def sealOf (proof : Receipt O) : String :=
  naming.receipt ⟨operation.digest, idOf naming plan step,
    (stepRecord naming plan operation step after).intentDigest, proof⟩

/-- The world after a step, what the native command did being in the stage. -/
def settledWorld (acted : World O D) (proof : Receipt O) : World O D :=
  acted.write (idOf naming plan step) ((stepRow naming plan operation step after w).withReceipt naming operation
    (idOf naming plan step) proof acted.revision)

end Begun

omit [DecidableEq O] [DecidableEq D] in
theorem found_begun {acted : World O D} (same : acted =
    { begunWorld naming plan operation step after w with scratch := acted.scratch }) :
    acted.journal[idOf naming plan step]? = some (stepRow naming plan operation step after w) := by
  rw [same]
  exact Dict.lookup_insert_self _ _ _

section Step

variable (begun : Begun naming plan operation step after w) {acted : World O D}
include begun

theorem read_begun (same : acted =
    { begunWorld naming plan operation step after w with scratch := acted.scratch }) :
    readAction naming plan.operationId acted (idOf naming plan step) =
      .ok (stepRecord naming plan operation step after) := by
  rw [same]
  exact readAction_prepared begun.bound begun.fresh begun.valid

theorem read_settled (same : acted =
    { begunWorld naming plan operation step after w with scratch := acted.scratch }) :
    readAction naming plan.operationId (settledWorld naming plan operation step after w acted proof)
      (idOf naming plan step) = .ok { stepRecord naming plan operation step after with
        receipt := some (proof, sealOf naming plan operation step after proof) } := by
  have bound : acted.held.operation = .ok operation := by
    rw [same]
    exact begun.bound
  exact readAction_verified bound (found_begun same) (read_begun begun same) rfl

theorem prepare_meets_fresh (absent : idOf naming plan step ∉ known) (here : crash w)
    (then' : crash (begunWorld naming plan operation step after w)) :
    (prepare naming plan known step after).Meets crash (fun _ _ => False)
      (fun value now => value = stepRecord naming plan operation step after ∧
        now = begunWorld naming plan operation step after w) w := by
  refine Program.meets_look_bind begun.unchanged here ?_
  simp only [List.contains_eq_mem, absent, decide_false, Bool.false_eq_true, ite_false]
  refine Program.meets_atomic_bind (prepareAction_fresh begun.bound begun.fresh begun.valid) here ?_
  exact Program.meets_look_of_ok (read_begun begun rfl) then' ⟨rfl, rfl⟩

theorem verified_meets_pending (same : acted =
    { begunWorld naming plan operation step after w with scratch := acted.scratch }) (here : crash acted)
    (then' : crash (settledWorld naming plan operation step after w acted proof)) :
    (verified naming plan (stepRecord naming plan operation step after) proof).Meets crash (fun _ _ => False)
      (fun value now => value = (idOf naming plan step, sealOf naming plan operation step after proof) ∧
        now = settledWorld naming plan operation step after w acted proof) acted := by
  have held : acted.held = w.held := by
    rw [same]
    rfl
  have unchanged : plan.unchanged naming acted.held = .ok () := by
    rw [held]
    exact begun.unchanged
  have bound : acted.held.operation = .ok operation := by
    rw [held]
    exact begun.bound
  refine Program.meets_look_bind unchanged here ?_
  refine Program.meets_atomic_bind
    (verifyAction_pending bound (found_begun same) (read_begun begun same) rfl) here ?_
  exact Program.meets_look_bind (read_settled begun same) then' (Program.meets_pure then' ⟨rfl, rfl⟩)

end Step

theorem verified_meets_done {digest : String} (unchanged : plan.unchanged naming w.held = .ok ())
    (read : readAction naming plan.operationId w record.actionId = .ok record)
    (receipt : record.receipt = some (proof, digest)) (here : crash w) :
    (verified naming plan record proof).Meets crash (fun _ _ => False)
      (fun value now => value = (record.actionId, digest) ∧ now = w) w := by
  refine Program.meets_look_bind unchanged here ?_
  simp only [receipt]
  have same : require (proof == proof) (Conversion.refused "PUBLICATION_MAP_FILE_RECEIPT_CHANGED") = .ok () := by
    simp [require]
  refine Program.meets_lift_bind same ?_
  exact Program.meets_look_bind read here (Program.meets_pure here ⟨by rw [receipt]; rfl, rfl⟩)

/-- A step whose receipt is there comes to the same, and changes nothing. -/
theorem journalled_meets_done {digest : String} (ready : step.ready = .ok ())
    (unchanged : plan.unchanged naming w.held = .ok ()) (listed : idOf naming plan step ∈ known)
    (read : readAction naming plan.operationId w (idOf naming plan step) = .ok record)
    (intent : record.intent = plan.intent naming step after) (kind : record.kind = .mapStage)
    (receipt : record.receipt = some (proof, digest)) (performed : Performs step record w w proof)
    (here : crash w) :
    (journalled naming plan known step after).Meets crash (fun _ _ => False)
      (fun value now => value = ((idOf naming plan step, digest), proof) ∧ now = w) w := by
  have named : record.actionId = idOf naming plan step := by
    simp only [readAction, bind_eq_ok, pure_eq_ok] at read
    obtain ⟨_, _, _, loaded, _, _, rfl⟩ := read
    obtain ⟨_, _, shape⟩ := load_eq_ok.mp loaded
    exact congrArg Record.actionId (readRow_receipt shape)
  refine Program.meets_lift_bind ready ?_
  refine (prepare_meets_known unchanged listed read intent kind here).onward ?_
  refine (perform_meets performed here here).onward ?_
  refine (verified_meets_done unchanged (by rw [named]; exact read) receipt here).onward ?_
  exact Program.meets_pure here ⟨by rw [named], rfl⟩

/-- What is done of a step when it is interrupted, and when it is over: `acting` is said of the worlds between
    its intent and its receipt, and `out` of the proofs and worlds that it can come to. -/
structure Course (naming : Naming O D) (plan : Plan O) (operation : Operation) (step : Step O D)
    (after : List (String × String)) (w : World O D) (acting : World O D → Prop)
    (out : Receipt O → World O D → Prop) : Prop where
  begun : Begun naming plan operation step after w
  first : acting (begunWorld naming plan operation step after w)
  stage : ∀ acted, acting acted →
    acted = { begunWorld naming plan operation step after w with scratch := acted.scratch }
  onward : ∀ acted, acting acted → ∃ later proof,
    Performs step (stepRecord naming plan operation step after) acted later proof ∧ acting later ∧
      out proof later
  settled : ∀ proof acted, out proof acted → acting acted ∧ ∀ later verified digest,
    Grown naming.git plan acted.scratch later.scratch → verified.receipt = some (proof, digest) →
      Performs step verified later later proof

/-- The worlds in which a step can be left. -/
inductive Course.Left (naming : Naming O D) (plan : Plan O) (operation : Operation) (step : Step O D)
    (after : List (String × String)) (w : World O D) (acting : World O D → Prop)
    (out : Receipt O → World O D → Prop) : World O D → Prop where
  | before : Left naming plan operation step after w acting out w
  | between (acted : World O D) (here : acting acted) : Left naming plan operation step after w acting out acted
  | over' (proof : Receipt O) (acted : World O D) (came : out proof acted) :
      Left naming plan operation step after w acting out
        (settledWorld naming plan operation step after w acted proof)

section Course

variable {acting : World O D → Prop} {out : Receipt O → World O D → Prop}
variable (course : Course naming plan operation step after w acting out)
include course

/-- From wherever a step was left, it comes to its end. -/
theorem Course.meets {left : World O D}
    (here : Course.Left naming plan operation step after w acting out left)
    (listed : idOf naming plan step ∈ known ↔ left.journal[idOf naming plan step]?.isSome = true)
    (crashes : ∀ left, Course.Left naming plan operation step after w acting out left → crash left) :
    (journalled naming plan known step after).Meets crash (fun _ _ => False)
      (fun value now => ∃ acted, out value.2 acted ∧
        value.1 = (idOf naming plan step, sealOf naming plan operation step after value.2) ∧
        now = settledWorld naming plan operation step after w acted value.2) left := by
  have begun := course.begun
  -- what is left of a step that was begun
  have rest : ∀ acted, acting acted →
      ((perform step (stepRecord naming plan operation step after)).bind fun proof =>
        (verified naming plan (stepRecord naming plan operation step after) proof).bind fun receipt =>
          (pure (receipt, proof) : Program (World O D) Failure _)).Meets crash (fun _ _ => False)
        (fun value now => ∃ acted, out value.2 acted ∧
          value.1 = (idOf naming plan step, sealOf naming plan operation step after value.2) ∧
          now = settledWorld naming plan operation step after w acted value.2) acted := by
    intro acted place
    obtain ⟨later, proof, performed, still, came⟩ := course.onward acted place
    refine (perform_meets performed (crashes _ (.between _ place)) (crashes _ (.between _ still))).onward ?_
    refine (verified_meets_pending begun (course.stage _ still) (crashes _ (.between _ still))
      (crashes _ (.over' _ _ came))).onward ?_
    exact Program.meets_pure (crashes _ (.over' _ _ came)) ⟨_, came, rfl, rfl⟩
  have here' := here
  cases here with
  | before =>
      have absent : idOf naming plan step ∉ known := by
        rw [listed, begun.fresh]
        simp
      refine Program.meets_lift_bind begun.ready ?_
      exact (prepare_meets_fresh begun absent (crashes _ .before) (crashes _ (.between _ course.first))).onward
        (rest _ course.first)
  | between acted place =>
      have same := course.stage _ place
      have found := found_begun same
      have member : idOf naming plan step ∈ known := by
        rw [listed, found]
        rfl
      have unchanged : plan.unchanged naming left.held = .ok () := by
        rw [same]
        exact begun.unchanged
      refine Program.meets_lift_bind begun.ready ?_
      exact (prepare_meets_known unchanged member (read_begun begun same) rfl rfl (crashes _ here')).onward
        (rest _ place)
  | over' proof acted came =>
      obtain ⟨place, again⟩ := course.settled proof acted came
      have same := course.stage _ place
      have member : idOf naming plan step ∈ known := by
        rw [listed, settledWorld, World.write_journal, Dict.lookup_insert_self]
        rfl
      have unchanged : plan.unchanged naming
          (settledWorld naming plan operation step after w acted proof).held = .ok () := by
        rw [settledWorld, World.write_held, same]
        exact begun.unchanged
      apply (journalled_meets_done begun.ready unchanged member (read_settled begun same) rfl rfl rfl
        (again _ _ _ (Grown.refl _) rfl) (crashes _ here')).mono (fun _ kept => kept) (fun _ _ kept => kept)
      intro value now reached
      rw [reached.1, reached.2]
      exact ⟨acted, came, rfl, rfl⟩

end Course

end Modelark.Publication.MapFiles
