import Modelark.Publication.MapFiles.Continued

/-!
# Candidates that are interrupted

A candidate that returned has begun and carried out all its steps, one after another. Where it could be left
it is gone on with, and comes to the same entries and the same tree; only its last commit may be another.
-/

namespace Modelark.Publication.MapFiles

open Library
open Revision (Failure)
open Conversion (refused)

variable {O D : Type} [DecidableEq O] [DecidableEq D] {naming : Naming O D} {plan : Plan O}
variable {operation : Operation} {known : List String} {steps : List (Step O D)}
variable {receipts : List (String × String)} {last : Option (Receipt O)} {u w m left final : World O D}
variable {arguments : Arguments O} {c : FileCandidate O}

theorem Trace.has {receipts' : List (String × String)} {last' : Option (Receipt O)}
    (trace : Trace naming plan operation steps receipts last w final receipts' last')
    (lawful : ∀ step ∈ steps, Lawful naming plan step) :
    ∀ step ∈ steps, final.journal[idOf naming plan step]?.isSome = true := by
  induction trace with
  | done => simp
  | step step steps receipts last w acted proof final receipts' last' begun performed rest ih =>
      have others : ∀ other ∈ steps, Lawful naming plan other := fun other member =>
        lawful other (List.mem_cons_of_mem _ member)
      intro other member
      rcases List.mem_cons.mp member with rfl | member
      · rw [(rest.passed.beyond others).rows _ _ (Dict.lookup_insert_self _ _ _)]
        rfl
      · exact ih others other member

theorem mem_steps {held : Held O} (made : plan.steps naming held = .ok steps) {step : Step O D}
    (member : step ∈ steps) :
    (∃ source ∈ plan.sources, ∃ repository, drive held source.driveLabel = .ok repository ∧
      step = plan.fetchStep naming source repository) ∨
    (plan.delta.isEmpty = false ∧ (step = plan.indexStep naming ∨ step = plan.treeStep naming)) := by
  simp only [Plan.steps, bind_eq_ok, pure_eq_ok] at made
  obtain ⟨fetches, mapped, rfl⟩ := made
  rcases List.mem_append.mp member with fetch | rest
  · left
    obtain ⟨source, among, found⟩ := exists_of_mem_mapM mapped fetch
    simp only [bind_eq_ok, pure_eq_ok] at found
    obtain ⟨repository, there, rfl⟩ := found
    exact ⟨source, among, repository, there, rfl⟩
  · right
    split at rest
    · cases rest
    · rename_i new
      exact ⟨by simpa using new, by simpa using rest⟩

theorem steps_lawful {held : Held O}
    (made : plan.steps naming held = .ok steps) : ∀ step ∈ steps, Lawful naming plan step ∧ Repeatable step := by
  intro step member
  rcases mem_steps made member with ⟨source, _, repository, _, rfl⟩ | ⟨_, rfl | rfl⟩
  · exact ⟨fetchStep_lawful, fetchStep_repeatable⟩
  · exact ⟨indexStep_lawful, indexStep_repeatable⟩
  · exact ⟨treeStep_lawful, treeStep_repeatable⟩

theorem steps_expected {held : Held O} (made : plan.steps naming held = .ok steps) :
    ∀ step ∈ steps, idOf naming plan step ∈ plan.expectedActions naming held := by
  intro step member
  rw [Plan.expectedActions, List.mem_append]
  rcases mem_steps made member with ⟨source, among, repository, there, rfl⟩ | ⟨new, rfl | rfl⟩
  · left
    have uuid : Plan.annexUuid held source = repository.profile.annexUuid := by
      rw [drive] at there
      split at there
      · rename_i found
        cases there
        rw [Plan.annexUuid, found]
        rfl
      · cases there
    exact List.mem_map.mpr ⟨source, among, by rw [uuid]; rfl⟩
  · right
    simp [new, idOf, Plan.indexStep]
  · right
    simp [new, idOf, Plan.treeStep]

section Commit

variable {newTree : O} {acted : World O D} {proof : Receipt O}

/-- The worlds between the intent of a commit and its receipt. -/
def Committing (naming : Naming O D) (plan : Plan O) (operation : Operation) (newTree : O)
    (receipts : List (String × String)) (w acted : World O D) : Prop :=
  acted = { begunWorld naming plan operation (plan.commitStep naming newTree) receipts w with
    scratch := acted.scratch } ∧
  acted.scratch.index = w.scratch.index ∧ Grown naming.git plan w.scratch acted.scratch

/-- What a commit can come to: a commit of the tree, known by its receipt. -/
def Committed (naming : Naming O D) (plan : Plan O) (operation : Operation) (newTree : O)
    (receipts : List (String × String)) (w : World O D) (proof : Receipt O) (acted : World O D) : Prop :=
  Committing naming plan operation newTree receipts w acted ∧
  (∃ head, proof = .committed head newTree plan.before.headOid) ∧
  ∀ later verified digest, Grown naming.git plan acted.scratch later.scratch →
    verified.receipt = some (proof, digest) →
      Performs (plan.commitStep naming newTree) verified later later proof

/-- The worlds in which a commit can be left. -/
abbrev CommitLeft (naming : Naming O D) (plan : Plan O) (operation : Operation) (newTree : O)
    (receipts : List (String × String)) (w : World O D) : World O D → Prop :=
  Course.Left naming plan operation (plan.commitStep naming newTree) receipts w
    (Committing naming plan operation newTree receipts w) (Committed naming plan operation newTree receipts w)

theorem committed_of_performs {from' : World O D}
    (committing : Committing naming plan operation newTree receipts w from')
    (performed : Performs (plan.commitStep naming newTree)
      (stepRecord naming plan operation (plan.commitStep naming newTree) receipts) from' acted proof) :
    Committed naming plan operation newTree receipts w proof acted := by
  have lawful : Lawful naming plan (plan.commitStep naming newTree) := commitStep_lawful
  obtain ⟨same, grown⟩ := lawful.frame _ _ _ _ performed
  obtain ⟨_, head, _, _, _, _, _, shape⟩ := commitStep_performs rfl performed
  refine ⟨⟨?_, ?_, committing.2.2.trans grown⟩, ⟨head, shape⟩, lawful.recognised _ _ _ _ rfl performed⟩
  · rw [same, committing.1]
  · rcases lawful.index _ _ _ _ performed with named | index
    · exact absurd (show "commit" = "index" from named) (by decide)
    · exact index.trans committing.2.1

/-- A commit that was interrupted is made again, perhaps as another one. -/
theorem commit_course (begun : Begun naming plan operation (plan.commitStep naming newTree) receipts w)
    (performed : Performs (plan.commitStep naming newTree)
      (stepRecord naming plan operation (plan.commitStep naming newTree) receipts)
      (begunWorld naming plan operation (plan.commitStep naming newTree) receipts w) acted proof) :
    Course naming plan operation (plan.commitStep naming newTree) receipts w
      (Committing naming plan operation newTree receipts w)
      (Committed naming plan operation newTree receipts w) where
  begun := begun
  first := ⟨rfl, rfl, Grown.refl _⟩
  stage _ committing := committing.1
  onward between committing := by
    obtain ⟨scratch, later, again, _, _⟩ := commitStep_more rfl performed committing.2.2
    rw [← committing.1] at again
    have committed := committed_of_performs committing again
    exact ⟨_, later, again, committed.1, committed⟩
  settled _ _ committed := ⟨committed.1, committed.2.2⟩

end Commit

/-- What a candidate that returned has done. -/
structure Finished (naming : Naming O D) (plan : Plan O) (operation : Operation) (steps : List (Step O D))
    (receipts : List (String × String)) (last : Option (Receipt O)) (w m : World O D)
    (c : FileCandidate O) : Prop where
  made : plan.steps naming w.held = .ok steps
  trace : Trace naming plan operation steps [] none w m receipts last
  unchanged : plan.unchanged naming w.held = .ok ()
  index : listed m.scratch.index = .ok plan.expected
  kept : plan.delta.isEmpty = true → c.newTree = plan.before.treeOid
  new : plan.delta.isEmpty = false → lastTree last = .ok c.newTree ∧ ∃ acted proof,
    Begun naming plan operation (plan.commitStep naming c.newTree) receipts m ∧
    Performs (plan.commitStep naming c.newTree)
      (stepRecord naming plan operation (plan.commitStep naming c.newTree) receipts)
      (begunWorld naming plan operation (plan.commitStep naming c.newTree) receipts m) acted proof
  result : c = {
    operationId := plan.operationId
    batchId := plan.batchId
    bindingDigest := plan.operationDigest
    stageProfileDigest := naming.profile w.held.stage.profile
    before := plan.before
    newHead := c.newHead
    newTree := c.newTree
    entries := plan.expected
    delta := plan.delta
    selection := plan.selection
    actionReceipts := c.actionReceipts }

theorem finished_of_run (distinct : Function.Injective naming.intent)
    (own : plan.base.files.isSome = true ∧ plan.base.expectedPhase.id = plan.batchId)
    (bound : w.held.operation = .ok operation) (behind : Behind plan [] w)
    (ran : (proceed naming plan []).run w = (final, .ok c)) :
    ∃ steps receipts last m, Finished naming plan operation steps receipts last w m c := by
  have parts : proceed naming plan [] = (Program.look fun w => plan.steps naming w.held).bind fun steps =>
      (carry naming plan [] steps [] none).bind fun carried =>
        (conclude naming plan [] carried.1 carried.2).bind fun concluded =>
          Program.look (closing naming plan concluded) := rfl
  rw [parts] at ran
  obtain ⟨start, steps, looked, carries⟩ := Program.run_bind_eq_ok ran
  obtain ⟨made, started⟩ := Program.run_look_eq_ok looked
  rw [started] at carries
  obtain ⟨m, ⟨receipts, last⟩, carried, concludes⟩ := Program.run_bind_eq_ok carries
  obtain ⟨v, concluded, concluding, looks⟩ := Program.run_bind_eq_ok concludes
  obtain ⟨saw, rfl⟩ := Program.run_look_eq_ok looks
  simp only [closing, bind_eq_ok, require_eq_ok, beq_iff_eq, pure_eq_ok] at saw
  obtain ⟨_, unchanged, index, read, _, same, rfl⟩ := saw
  subst same
  have lawful := steps_lawful made
  obtain ⟨trace, behind'⟩ := trace_of_run distinct own (fun step member => (lawful step member).1) behind bound
    (by simp) carried
  have held := (trace.passed.beyond fun step member => (lawful step member).1).held
  refine ⟨steps, receipts, last, m, ?_⟩
  rw [conclude] at concluding
  cases empty : plan.delta.isEmpty with
  | true =>
      simp only [empty, ite_true] at concluding
      cases concluding
      rw [held] at unchanged
      exact ⟨made, trace, unchanged, read, fun _ => rfl, fun some' => by simp [empty] at some', by rw [held]⟩
  | false =>
      simp only [empty, Bool.false_eq_true, ite_false] at concluding
      obtain ⟨still, newTree, lifted, commits⟩ := Program.run_bind_eq_ok concluding
      obtain ⟨treed, stayed⟩ := Program.run_lift_eq_ok lifted
      rw [stayed] at commits
      obtain ⟨_, done, committed, heads⟩ := Program.run_bind_eq_ok commits
      obtain ⟨_, newHead, found, ends⟩ := Program.run_bind_eq_ok heads
      obtain ⟨_, rfl⟩ := Program.run_lift_eq_ok found
      cases ends
      have lawful' : Lawful naming plan (plan.commitStep naming newTree) := commitStep_lawful
      obtain ⟨acted, begun, performed, rfl, _⟩ := journalled_eq_ok distinct own lawful' behind'
        (by rw [held]; exact bound) (by simp) committed
      have same := (lawful'.frame _ _ _ _ performed).1
      have held' : (settledWorld naming plan operation (plan.commitStep naming newTree) receipts m acted
          done.2).held = w.held := by
        rw [settledWorld, World.write_held, same, ← held]
        rfl
      have index : acted.scratch.index = m.scratch.index := by
        rcases lawful'.index _ _ _ _ performed with named | index
        · exact absurd (show "commit" = "index" from named) (by decide)
        · exact index
      rw [held'] at unchanged
      refine ⟨made, trace, unchanged, ?_, fun none' => by simp [empty] at none',
        fun _ => ⟨treed, acted, _, begun, performed⟩, by rw [held']⟩
      rw [← index]
      exact read

section Stopped

variable {newTree : O}

/-- The worlds in which a candidate can be left: among its steps, or at its commit. -/
inductive Stopped (naming : Naming O D) (plan : Plan O) (operation : Operation) (steps : List (Step O D))
    (receipts : List (String × String)) (w m : World O D) (newTree : O) : World O D → Prop where
  | among (left : World O D) (passed : Passed naming plan operation steps [] w left) :
      Stopped naming plan operation steps receipts w m newTree left
  | committing (left : World O D) (new : plan.delta.isEmpty = false)
      (place : CommitLeft naming plan operation newTree receipts m left) :
      Stopped naming plan operation steps receipts w m newTree left

theorem commitLeft_later (begun : Begun naming plan operation (plan.commitStep naming newTree) receipts w)
    {ids : List String} (member : idOf naming plan (plan.commitStep naming newTree) ∈ ids)
    (place : CommitLeft naming plan operation newTree receipts w left) :
    Beyond naming plan w left ∧ New naming plan ids w left ∧ IndexKept naming plan w left := by
  cases place with
  | before => exact ⟨Beyond.refl _, fun _ _ found => .inl found, .inl rfl⟩
  | between _ here =>
      exact ⟨beyond_staged (beyond_begun begun.fresh) here.2.2 here.1, new_staged begun member here.1,
        .inl here.2.1⟩
  | over' _ acted came =>
      exact ⟨beyond_settled begun.fresh came.1.2.2 came.1.1, new_settled begun member came.1.1,
        .inl came.1.2.1⟩

variable (finished : Finished naming plan operation steps receipts last w m c)
include finished

theorem Finished.lawful : ∀ step ∈ steps, Lawful naming plan step := fun step member =>
  (steps_lawful finished.made step member).1

theorem Finished.later (stopped : Stopped naming plan operation steps receipts w m c.newTree left) :
    Beyond naming plan w left ∧ New naming plan (plan.expectedActions naming w.held) w left ∧
      IndexKept naming plan w left := by
  have lawful := finished.lawful
  have expected := steps_expected finished.made
  cases stopped with
  | among passed => exact ⟨passed.beyond lawful, passed.new lawful expected, passed.indexKept lawful⟩
  | committing new place =>
      obtain ⟨_, acted, proof, begun, performed⟩ := finished.new new
      have passed := finished.trace.passed
      have first := passed.beyond lawful
      have member : idOf naming plan (plan.commitStep naming c.newTree) ∈
          plan.expectedActions naming w.held := by
        rw [Plan.expectedActions, List.mem_append]
        right
        simp [new, idOf, Plan.commitStep]
      obtain ⟨beyond, more, index⟩ := commitLeft_later begun member place
      exact ⟨first.trans beyond, (passed.new lawful expected).trans first beyond more,
        (passed.indexKept lawful).trans first beyond index⟩

/-- Whichever candidate looks at a world in which one was left finds the actions that were journalled since. -/
theorem Finished.surveyed (first : survey naming { arguments with resume := false } w = .ok (plan, []))
    (stopped : Stopped naming plan operation steps receipts w m c.newTree left) :
    ∃ known, survey naming { arguments with resume := true } left = .ok (plan, known) ∧
      ∀ key, key ∈ known ↔ left.journal[key]?.isSome = true ∧ w.journal[key]? = none := by
  obtain ⟨beyond, new, index⟩ := finished.later stopped
  exact survey_later first beyond new index

/-- The commit that ends a candidate, from wherever that was left. -/
theorem Finished.concludes (stopped : Stopped naming plan operation steps receipts w m c.newTree left)
    (over' : plan.delta.isEmpty = true → left = m)
    (place : plan.delta.isEmpty = false → CommitLeft naming plan operation c.newTree receipts m left)
    (listed' : plan.delta.isEmpty = false → (idOf naming plan (plan.commitStep naming c.newTree) ∈ known ↔
      left.journal[idOf naming plan (plan.commitStep naming c.newTree)]?.isSome = true)) :
    (conclude naming plan known receipts last).Meets
      (Stopped naming plan operation steps receipts w m c.newTree) (fun _ _ => False)
      (fun value now => Stopped naming plan operation steps receipts w m c.newTree now ∧
        value.1 = c.newTree ∧ now.held = w.held ∧ listed now.scratch.index = .ok plan.expected) left := by
  have lawful := finished.lawful
  have first := finished.trace.passed.beyond lawful
  rw [conclude]
  cases empty : plan.delta.isEmpty with
  | true =>
      rw [over' empty]
      rw [over' empty] at stopped
      simp only [ite_true]
      exact Program.meets_pure stopped ⟨stopped, (finished.kept empty).symm, first.held, finished.index⟩
  | false =>
      simp only [Bool.false_eq_true, ite_false]
      obtain ⟨treed, acted, proof, begun, performed⟩ := finished.new empty
      have course := commit_course begun performed
      refine Program.meets_lift_bind treed ?_
      apply (course.meets (place empty) (listed' empty) fun _ here => .committing _ empty here).seq
      intro value now reached
      obtain ⟨acted', came, _, rfl⟩ := reached
      have committing := came.1
      obtain ⟨head, shape⟩ := came.2.1
      have same : value.2.head = .ok head := by
        rw [shape]
        rfl
      have here : Stopped naming plan operation steps receipts w m c.newTree (settledWorld naming plan operation
          (plan.commitStep naming c.newTree) receipts m acted' value.2) := .committing _ empty (.over' _ _ came)
      refine Program.meets_lift_bind same (Program.meets_pure here ⟨here, rfl, ?_, ?_⟩)
      · rw [settledWorld, World.write_held, committing.1]
        exact first.held
      · exact committing.2.2.expected finished.index

/-- The last look at the stage, when all is done. -/
theorem Finished.closes {value : O × O × List (String × String)} {now : World O D}
    (stopped : Stopped naming plan operation steps receipts w m c.newTree now) (tree : value.1 = c.newTree)
    (held : now.held = w.held) (index : listed now.scratch.index = .ok plan.expected) :
    (Program.look (closing naming plan value)).Meets
      (Stopped naming plan operation steps receipts w m c.newTree) (fun _ _ => False)
      (fun value _ => value = { c with newHead := value.newHead, actionReceipts := value.actionReceipts })
      now := by
  have saw : closing naming plan value now = .ok {
      operationId := plan.operationId
      batchId := plan.batchId
      bindingDigest := plan.operationDigest
      stageProfileDigest := naming.profile now.held.stage.profile
      before := plan.before
      newHead := value.2.1
      newTree := value.1
      entries := plan.expected
      delta := plan.delta
      selection := plan.selection
      actionReceipts := value.2.2 } := by
    simp only [closing, held, finished.unchanged, index, ok_bind, beq_self_eq_true]
    rfl
  refine Program.meets_look_of_ok saw stopped ?_
  rw [finished.result, tree, held]

/-- A candidate goes on from wherever it was left, and comes to the same but for the commit. -/
theorem Finished.meets (stopped : Stopped naming plan operation steps receipts w m c.newTree left)
    (members : ∀ key, key ∈ known ↔ left.journal[key]?.isSome = true ∧ w.journal[key]? = none) :
    (proceed naming plan known).Meets (Stopped naming plan operation steps receipts w m c.newTree)
      (fun _ _ => False)
      (fun value _ => value = { c with newHead := value.newHead, actionReceipts := value.actionReceipts })
      left := by
  have laws := steps_lawful finished.made
  have lawful := finished.lawful
  have held := (finished.later stopped).1.held
  have fresh := finished.trace.fresh lawful
  have has := finished.trace.has lawful
  have unbegun : plan.delta.isEmpty = false →
      m.journal[idOf naming plan (plan.commitStep naming c.newTree)]? = none := by
    intro new
    obtain ⟨_, _, _, begun, _⟩ := finished.new new
    exact begun.fresh
  have absent : plan.delta.isEmpty = false →
      w.journal[idOf naming plan (plan.commitStep naming c.newTree)]? = none :=
    fun new => (finished.trace.passed.beyond lawful).fresh (unbegun new)
  -- the commit's identifier is of none of the steps before it
  have other : plan.delta.isEmpty = false → ∀ step ∈ steps,
      idOf naming plan step ≠ idOf naming plan (plan.commitStep naming c.newTree) := by
    intro new step member same
    have present := has step member
    rw [same, unbegun new] at present
    cases present
  have listed' : ∀ step ∈ steps, idOf naming plan step ∈ known ↔
      left.journal[idOf naming plan step]?.isSome = true := by
    intro step member
    rw [members, fresh step member]
    simp
  refine Program.meets_look_bind (by rw [held]; exact finished.made) stopped ?_
  have here := stopped
  cases stopped with
  | among passed =>
      -- none of the commit is journalled yet
      have none' : plan.delta.isEmpty = false →
          left.journal[idOf naming plan (plan.commitStep naming c.newTree)]? = none := by
        intro new
        cases found : left.journal[idOf naming plan (plan.commitStep naming c.newTree)]? with
        | none => rfl
        | some row =>
            have ids : ∀ step ∈ steps, idOf naming plan step ∈ steps.map (idOf naming plan) :=
              fun step member => List.mem_map_of_mem member
            rcases passed.new lawful ids _ _ found with old | ⟨_, _, member, _⟩
            · rw [absent new] at old
              cases old
            · obtain ⟨step, member, same⟩ := List.mem_map.mp member
              exact absurd same (other new step member)
      have crashes : ∀ left, Passed naming plan operation steps [] w left →
          Stopped naming plan operation steps receipts w m c.newTree left := fun left passed => .among left passed
      have carried := carry_meets finished.trace laws passed listed' crashes
      apply carried.onward
      apply (finished.concludes (.among _ finished.trace.passed) (fun _ => rfl) (fun _ => .before)
        _).seq
      · intro value now reached
        exact finished.closes reached.1 reached.2.1 reached.2.2.1 reached.2.2.2
      · intro new
        rw [members, none' new, unbegun new]
        simp
  | committing new place =>
      obtain ⟨_, _, _, begun, _⟩ := finished.new new
      have later := (commitLeft_later begun (List.mem_singleton_self _) place).1
      have known' : ∀ step ∈ steps, idOf naming plan step ∈ known := by
        intro step member
        obtain ⟨row, found⟩ := Option.isSome_iff_exists.mp (has step member)
        rw [listed' step member, later.rows _ _ found]
        rfl
      have carried := carry_meets_later finished.trace lawful later known' here
      apply carried.onward
      apply (finished.concludes here (fun empty => by rw [new] at empty; cases empty) (fun _ => place)
        _).seq
      · intro value now reached
        exact finished.closes reached.1 reached.2.1 reached.2.2.1 reached.2.2.2
      · intro new
        rw [members, absent new]
        simp

end Stopped

section Calls

omit [DecidableEq D] in
theorem opened_bound {held : Held O} {opening : Opening O} (opened' : opened naming held arguments = .ok opening) :
    ∃ operation, held.operation = .ok operation := by
  simp only [opened, receiptRows, bind_eq_ok] at opened'
  obtain ⟨_, _, _, ⟨operation, bound, _⟩, _⟩ := opened'
  exact ⟨operation, bound⟩

/-- A candidate that looks at a first world finds no action of its own. -/
theorem survey_first (first : survey naming { arguments with resume := false } w = .ok (plan, known)) :
    known = [] ∧ Behind plan [] w := by
  obtain ⟨_, _, _, existing, _⟩ := survey_eq_ok.mp first
  obtain ⟨each, result⟩ := collect_eq_ok.mp existing
  constructor
  · rw [result, List.filterMap_eq_nil_iff]
    intro entry member
    obtain ⟨kept, recognised⟩ := each entry member
    rw [recognised, (recognise_first recognised).1]
    rfl
  · intro key row found kind own
    obtain ⟨kept, recognised⟩ := each (key, row) (mem_staged.mpr ⟨found, kind⟩)
    obtain ⟨_, record, read, foreign⟩ := recognise_first recognised
    simp only [readAction, bind_eq_ok, pure_eq_ok] at read
    obtain ⟨_, _, _, loaded, _, _, rfl⟩ := read
    obtain ⟨row', found', shape⟩ := load_eq_ok.mp loaded
    have same : row' = row := Option.some.inj (found'.symm.trans found)
    rw [readRow_receipt shape, same] at foreign
    rw [own] at foreign
    cases foreign

/-- Where nothing of a candidate is found it does not matter whether it is begun or resumed. -/
theorem survey_without (first : survey naming { arguments with resume := false } w = .ok (plan, known)) :
    survey naming { arguments with resume := true } w = .ok (plan, known) := by
  obtain ⟨opening, index, apart', existing, among⟩ := survey_eq_ok.mp first
  refine survey_eq_ok.mpr ⟨opening, index, apart', ?_, among⟩
  obtain ⟨each, result⟩ := collect_eq_ok.mp existing
  have same : ∀ entry ∈ w.journal.toList.filter (·.2.kind == .mapStage),
      plan.recognise naming w true entry = plan.recognise naming w false entry := by
    intro entry member
    obtain ⟨kept, recognised⟩ := each entry member
    obtain ⟨rfl, record, read, foreign⟩ := recognise_first recognised
    rw [recognised, Plan.recognise, read, ok_bind, foreign]
    rfl
  refine collect_eq_ok.mpr ⟨fun entry member => ?_, ?_⟩
  · rw [same entry member]
    exact each entry member
  · rw [result]
    exact List.filterMap_congr fun entry member => by rw [same entry member]

/-- The calls of a candidate with its arguments. -/
def Begins (naming : Naming O D) (arguments : Arguments O) (_ : World O D)
    (program : Program (World O D) Failure (FileCandidate O)) : Prop :=
  ∃ resume, program = candidate naming { arguments with resume }

/-- What a candidate does first, and then. -/
theorem candidate_parts : candidate naming arguments =
    (Program.look (survey naming arguments)).bind fun found => proceed naming found.1 found.2 := rfl

theorem candidate_finished (distinct : Function.Injective naming.intent)
    (ran : (candidate naming { arguments with resume := false }).run w = (final, .ok c)) :
    ∃ plan operation steps receipts last m, survey naming { arguments with resume := false } w = .ok (plan, []) ∧
      Finished naming plan operation steps receipts last w m c := by
  rw [candidate_parts] at ran
  obtain ⟨start, ⟨plan, known⟩, looked, proceeds⟩ := Program.run_bind_eq_ok ran
  obtain ⟨first, same⟩ := Program.run_look_eq_ok looked
  rw [same] at proceeds
  obtain ⟨rfl, behind⟩ := survey_first first
  obtain ⟨opening, opened', merged⟩ := (survey_eq_ok.mp first).opening
  obtain ⟨operation, bound⟩ := opened_bound opened'
  obtain ⟨steps, receipts, last, m, finished⟩ :=
    finished_of_run distinct (merge_own merged) bound behind proceeds
  exact ⟨plan, operation, steps, receipts, last, m, first, finished⟩

variable (finished : Finished naming plan operation steps receipts last w m c)
  (first : survey naming { arguments with resume := false } w = .ok (plan, []))
include finished first

/-- Wherever a candidate was left, it comes to the same when it is resumed. -/
theorem Finished.resumed (stopped : Stopped naming plan operation steps receipts w m c.newTree left) :
    (candidate naming { arguments with resume := true }).Meets
      (Stopped naming plan operation steps receipts w m c.newTree) (fun _ _ => False)
      (fun value _ => value = { c with newHead := value.newHead, actionReceipts := value.actionReceipts })
      left := by
  obtain ⟨known, found, members⟩ := finished.surveyed first stopped
  rw [candidate_parts]
  exact Program.meets_look_bind found stopped (finished.meets stopped members)

/-- However often a candidate is begun, resumed and interrupted, it is left where one can be left. -/
theorem Finished.onward {later : Program.Moment (World O D) Failure (FileCandidate O)}
    (onward : Program.Onward (Begins naming arguments) ⟨none, w⟩ later) :
    Stopped naming plan operation steps receipts w m c.newTree later.state := by
  have each : ∀ left program, Stopped naming plan operation steps receipts w m c.newTree left →
      Begins naming arguments left program → program.Meets
        (Stopped naming plan operation steps receipts w m c.newTree) (fun _ _ => True) (fun _ _ => True)
        left := by
    rintro left _ stopped ⟨resume, rfl⟩
    cases resume with
    | true =>
        exact (finished.resumed first stopped).mono (fun _ kept => kept) (fun _ _ _ => trivial)
          fun _ _ _ => trivial
    | false =>
        rw [candidate_parts]
        apply Program.Meets.bind
        apply Program.meets_look stopped (fun _ _ => trivial)
        rintro ⟨plan', known'⟩ saw
        obtain ⟨known, found, members⟩ := finished.surveyed first stopped
        cases (survey_without saw).symm.trans found
        exact (finished.meets stopped members).mono (fun _ kept => kept) (fun _ _ _ => trivial)
          fun _ _ _ => trivial
  exact (onward.holds each ⟨.among _ (.before _ _ _), fun _ impossible => nomatch impossible⟩).1

end Calls

end Modelark.Publication.MapFiles
