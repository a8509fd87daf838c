import Modelark.Publication.MapFiles.Kept

/-!
# Laws of the steps

Every step leaves what the steps before it have brought onto the stage, observes the same of it when it is
looked at later, and can be done again when it was interrupted before its receipt.
-/

namespace Modelark.Publication.MapFiles

open Library
open Revision (Failure)

variable {O D : Type} [DecidableEq O] [DecidableEq D] {naming : Naming O D} {plan : Plan O}

section Adds

variable {lookup : List (GitObject O) → O → Option (GitObject O)} {x y z : Scratch O}

omit [DecidableEq O] in
theorem adds_refl (x : Scratch O) : x.Adds lookup x :=
  ⟨fun _ _ found => found, fun _ _ found => found⟩

omit [DecidableEq O] in
theorem adds_trans (first : x.Adds lookup y) (second : y.Adds lookup z) : x.Adds lookup z :=
  ⟨fun ref oid found => second.refs ref oid (first.refs ref oid found),
    fun oid object found => second.objects oid object (first.objects oid object found)⟩

end Adds

/-- Nothing that was fetched or written is lost, and the index is as it was or as it is to be. -/
structure Grown (git : Git O) (plan : Plan O) (x y : Scratch O) : Prop where
  adds : x.Adds git.lookup y
  index : listed y.index = listed x.index ∨ listed y.index = .ok plan.expected

section Grown

variable {git : Git O} {x y z : Scratch O}

omit [DecidableEq O] in
theorem Grown.refl (x : Scratch O) : Grown git plan x x :=
  ⟨adds_refl x, .inl rfl⟩

omit [DecidableEq O] in
theorem Grown.trans (first : Grown git plan x y) (second : Grown git plan y z) : Grown git plan x z where
  adds := adds_trans first.adds second.adds
  index := by
    rcases second.index with same | done
    · rw [same]
      exact first.index
    · exact .inr done

theorem Grown.admits (grown : Grown git plan x y) {index : List (TreeEntry O)}
    (read : listed x.index = .ok index) (admitted : plan.admits index = true) :
    ∃ index, listed y.index = .ok index ∧ plan.admits index = true := by
  rcases grown.index with same | done
  · exact ⟨index, same.trans read, admitted⟩
  · exact ⟨plan.expected, done, by simp [Plan.admits]⟩

omit [DecidableEq O] in
theorem Grown.expected (grown : Grown git plan x y) (read : listed x.index = .ok plan.expected) :
    listed y.index = .ok plan.expected := by
  rcases grown.index with same | done
  · exact same.trans read
  · exact done

omit [DecidableEq O] in
theorem Grown.of_same (same : y.index = x.index) (adds : x.Adds git.lookup y) : Grown git plan x y :=
  ⟨adds, .inl (by rw [same])⟩

end Grown

section Objects

variable {git : Git O} {before after : List (GitObject O)} {oid : O}
variable (more : ∀ (oid : O) (object : GitObject O), git.lookup before oid = some object →
  git.lookup after oid = some object)
include more

omit [DecidableEq O] in
theorem readBlob_mono {limit : Nat} {data : Conversion.Bytes}
    (read : git.readBlob before oid limit = .ok data) : git.readBlob after oid limit = .ok data := by
  rw [Git.readBlob] at read ⊢
  cases found : git.lookup before oid with
  | none =>
      rw [found] at read
      cases read
  | some object =>
      rw [found] at read
      rw [more _ _ found]
      exact read

omit [DecidableEq O] in
theorem readCommit_mono {commit : O × List O × String} (read : git.readCommit before oid = .ok commit) :
    git.readCommit after oid = .ok commit := by
  rw [Git.readCommit] at read ⊢
  cases found : git.lookup before oid with
  | none =>
      rw [found] at read
      cases read
  | some object =>
      rw [found] at read
      rw [more _ _ found]
      exact read

omit [DecidableEq O] in
theorem readTree_mono {entries : List (TreeEntry O)} (read : git.readTree before oid = .ok entries) :
    git.readTree after oid = .ok entries := by
  rw [Git.readTree] at read ⊢
  cases found : git.lookup before oid with
  | none =>
      rw [found] at read
      cases read
  | some object =>
      rw [found] at read
      rw [more _ _ found]
      exact read

end Objects

omit [DecidableEq O] in
theorem readCommit_eq_ok {git : Git O} {objects : List (GitObject O)} {oid tree : O} {parents : List O}
    {message : String} : git.readCommit objects oid = .ok (tree, parents, message) ↔
      ∃ date, git.lookup objects oid = some (.commit tree parents message date) := by
  rw [Git.readCommit]
  constructor
  · intro read
    split at read
    · rename_i date found
      cases read
      exact ⟨date, found⟩
    · cases read
  · rintro ⟨date, found⟩
    rw [found]

/-- A step is carried out if that is still needed, and is observed. -/
def Performs (step : Step O D) (record : Record O D) (w after : World O D) (proof : Receipt O) : Prop :=
  ∃ due output, step.needed record w = .ok due ∧
    (if due then step.native record w = .ok (after, output) else after = w ∧ output = none) ∧
    step.proof record output after = .ok proof

/-- The laws of a step. -/
structure Lawful (naming : Naming O D) (plan : Plan O) (step : Step O D) : Prop where
  /-- A step touches only the stage, and loses nothing of it. -/
  frame : ∀ record w after proof, Performs step record w after proof →
    after = { w with scratch := after.scratch } ∧ Grown naming.git plan w.scratch after.scratch
  /-- Only one step changes the index. -/
  index : ∀ record w after proof, Performs step record w after proof →
    step.name = "index" ∨ after.scratch.index = w.scratch.index
  /-- What was observed once is observed later, and nothing is carried out for it. -/
  recognised : ∀ record w after proof, record.receipt = none → Performs step record w after proof →
    ∀ later verified digest, Grown naming.git plan after.scratch later.scratch →
      verified.receipt = some (proof, digest) → Performs step verified later later proof

/-- A step that was interrupted before its receipt comes to the same when it is done again. -/
def Repeatable (step : Step O D) : Prop :=
  ∀ record w after proof, record.receipt = none → Performs step record w after proof →
    Performs step record after after proof

/-- A native command changes the stage alone. -/
theorem runAction_eq_ok {command : Command O} {stdin : List (TreeEntry O)}
    {admitted : Held O → Except Failure Unit}
    {act : Scratch O → Except Failure (Scratch O × Option O)} {record : Record O D} {w after : World O D}
    {output : Option O}
    (ran : plan.runAction naming command stdin admitted act record w = .ok (after, output)) :
    ∃ scratch, act w.scratch = .ok (scratch, output) ∧ after = { w with scratch } ∧
      ∀ scratch' scratch'' output', act scratch' = .ok (scratch'', output') →
        plan.runAction naming command stdin admitted act record { w with scratch := scratch' } =
          .ok ({ w with scratch := scratch'' }, output') := by
  simp only [Plan.runAction, bind_eq_ok, pure_eq_ok, Prod.mk.injEq] at ran
  obtain ⟨current, read, _, intended, _, kind, _, admission, ⟨scratch, printed⟩, acted, rfl, rfl⟩ := ran
  refine ⟨scratch, acted, rfl, fun scratch' scratch'' output' again => ?_⟩
  simp only [Plan.runAction, bind_eq_ok, pure_eq_ok, Prod.mk.injEq]
  exact ⟨current, read, (), intended, (), kind, (), admission, (scratch'', output'), again, rfl, rfl⟩

section Fetch

variable {source : SourceFiles O} {repository : Repository O}

theorem fetchStep_performs {record : Record O D} {w after : World O D} {proof : Receipt O}
    (performed : Performs (plan.fetchStep naming source repository) record w after proof) :
    after = { w with scratch := after.scratch } ∧ after.scratch.index = w.scratch.index ∧
      Grown naming.git plan w.scratch after.scratch ∧
      after.scratch.refs[plan.quarantineRef repository.profile.annexUuid]? = some source.headOid ∧
      thread (fun _ item => checkBlob naming after.scratch.objects repository item) () source.files = .ok () ∧
      (∃ index, listed after.scratch.index = .ok index ∧ plan.admits index = true) ∧
      proof = .fetched (plan.quarantineRef repository.profile.annexUuid) source.headOid
        (naming.selection plan.selection) := by
  obtain ⟨due, output, needed, ran, proven⟩ := performed
  simp only [Plan.fetchStep, bind_eq_ok, require_eq_ok, beq_iff_eq, pure_eq_ok] at proven
  obtain ⟨_, ref, _, blobs, index, read, _, admitted, same⟩ := proven
  have observed : (∃ index, listed after.scratch.index = .ok index ∧ plan.admits index = true) :=
    ⟨index, read, admitted⟩
  cases due with
  | false =>
      obtain ⟨rfl, _⟩ := ran
      exact ⟨rfl, rfl, Grown.refl _, ref, blobs, observed, same.symm⟩
  | true =>
      simp only [ite_true, Plan.fetchStep] at ran
      obtain ⟨scratch, acted, rfl, _⟩ := runAction_eq_ok ran
      simp only [bind_eq_ok, pure_eq_ok, Prod.mk.injEq] at acted
      obtain ⟨fetched, brought, rfl, _⟩ := acted
      simp only [Plan.fetchStep, Except.ok.injEq, Bool.and_eq_true, Option.isNone_iff_eq_none] at needed
      obtain ⟨same', adds⟩ := naming.git.fetchAdds needed.1 brought
      exact ⟨rfl, same', Grown.of_same same' adds, ref, blobs, observed, same.symm⟩

omit [DecidableEq O] [DecidableEq D] in
theorem checkBlob_mono {before after : List (GitObject O)}
    (more : ∀ (oid : O) (object : GitObject O), naming.git.lookup before oid = some object →
      naming.git.lookup after oid = some object) {item : FileSelection O}
    (checked : checkBlob naming before repository item = .ok ()) :
    checkBlob naming after repository item = .ok () := by
  simp only [checkBlob, bind_eq_ok] at checked ⊢
  obtain ⟨staged, read, rest⟩ := checked
  exact ⟨staged, readBlob_mono more read, rest⟩

/-- What was observed of a fetch is observed later. -/
theorem fetchStep_again {record verified : Record O D}
    {w after later : World O D} {proof : Receipt O}
    (performed : Performs (plan.fetchStep naming source repository) record w after proof)
    (grown : Grown naming.git plan after.scratch later.scratch) :
    Performs (plan.fetchStep naming source repository) verified later later proof := by
  obtain ⟨_, _, _, ref, blobs, ⟨index, read, admitted⟩, rfl⟩ := fetchStep_performs performed
  obtain ⟨index', read', admitted'⟩ := grown.admits read admitted
  have found := grown.adds.refs _ _ ref
  have checked : thread (fun _ item => checkBlob naming later.scratch.objects repository item) ()
      source.files = .ok () := by
    apply thread_checks
    intro item member
    exact checkBlob_mono grown.adds.objects (of_thread_checks blobs item member)
  refine ⟨false, none, by simp [Plan.fetchStep, found], ⟨rfl, rfl⟩, ?_⟩
  simp only [Plan.fetchStep, bind_eq_ok, require_eq_ok, beq_iff_eq, pure_eq_ok]
  exact ⟨(), found, (), checked, index', read', (), admitted', trivial⟩

theorem fetchStep_lawful :
    Lawful naming plan (plan.fetchStep naming source repository) where
  frame _ _ _ _ performed := ⟨(fetchStep_performs performed).1, (fetchStep_performs performed).2.2.1⟩
  index _ _ _ _ performed := .inr (fetchStep_performs performed).2.1
  recognised _ _ _ _ _ performed _ _ _ grown _ := fetchStep_again performed grown

theorem fetchStep_repeatable :
    Repeatable (plan.fetchStep naming source repository) :=
  fun _ _ _ _ _ performed => fetchStep_again performed (Grown.refl _)

end Fetch

theorem indexStep_performs {record : Record O D} {w after : World O D} {proof : Receipt O}
    (performed : Performs (plan.indexStep naming) record w after proof) :
    after = { w with scratch := after.scratch } ∧ Grown naming.git plan w.scratch after.scratch ∧
      listed after.scratch.index = .ok plan.expected ∧ proof = .indexed plan.expected := by
  obtain ⟨due, output, _, ran, proven⟩ := performed
  simp only [Plan.indexStep, bind_eq_ok, require_eq_ok, beq_iff_eq, pure_eq_ok] at proven
  obtain ⟨_, read, _, rfl, same⟩ := proven
  cases due with
  | false =>
      obtain ⟨rfl, _⟩ := ran
      exact ⟨rfl, Grown.refl _, read, same.symm⟩
  | true =>
      simp only [ite_true, Plan.indexStep] at ran
      obtain ⟨scratch, acted, rfl, _⟩ := runAction_eq_ok ran
      simp only [bind_eq_ok, pure_eq_ok, Prod.mk.injEq] at acted
      obtain ⟨updated, wrote, rfl, _⟩ := acted
      exact ⟨rfl, ⟨naming.git.updateIndexAdds wrote, .inr read⟩, read, same.symm⟩

theorem indexStep_again {record verified : Record O D} {w after later : World O D} {proof : Receipt O}
    (performed : Performs (plan.indexStep naming) record w after proof)
    (grown : Grown naming.git plan after.scratch later.scratch) :
    Performs (plan.indexStep naming) verified later later proof := by
  obtain ⟨_, _, read, rfl⟩ := indexStep_performs performed
  have read' := grown.expected read
  refine ⟨false, none, ?_, ⟨rfl, rfl⟩, ?_⟩
  · simp [Plan.indexStep, read', require, Plan.admits]
  · simp [Plan.indexStep, read', require]

theorem indexStep_lawful : Lawful naming plan (plan.indexStep naming) where
  frame _ _ _ _ performed := ⟨(indexStep_performs performed).1, (indexStep_performs performed).2.1⟩
  index _ _ _ _ _ := .inl rfl
  recognised _ _ _ _ _ performed _ _ _ grown _ := indexStep_again performed grown

theorem indexStep_repeatable : Repeatable (plan.indexStep naming) :=
  fun _ _ _ _ _ performed => indexStep_again performed (Grown.refl _)

/-- A command that leaves the index as it is. -/
theorem ran_adds {command : Command O} {stdin : List (TreeEntry O)} {admitted : Held O → Except Failure Unit}
    {act : Scratch O → Except Failure (Scratch O × Option O)} {record : Record O D} {w after : World O D}
    {output : Option O} {due : Bool}
    (adds : ∀ x y output, act x = .ok (y, output) → y.index = x.index ∧ x.Adds naming.git.lookup y)
    (ran : if due then plan.runAction naming command stdin admitted act record w = .ok (after, output)
      else after = w ∧ output = none) :
    after = { w with scratch := after.scratch } ∧ after.scratch.index = w.scratch.index ∧
      w.scratch.Adds naming.git.lookup after.scratch := by
  cases due with
  | false =>
      obtain ⟨rfl, _⟩ := ran
      exact ⟨rfl, rfl, adds_refl _⟩
  | true =>
      simp only [ite_true] at ran
      obtain ⟨scratch, acted, rfl, _⟩ := runAction_eq_ok ran
      exact ⟨rfl, adds _ _ _ acted⟩

theorem treeStep_performs {record : Record O D} {w after : World O D} {proof : Receipt O}
    (pending : record.receipt = none) (performed : Performs (plan.treeStep naming) record w after proof) :
    ∃ scratch tree, naming.git.writeTree w.scratch = .ok (scratch, tree) ∧
      after = { w with scratch } ∧
      (plan.treeStep naming).native record w = .ok (after, some tree) ∧
      naming.git.readTree scratch.objects tree = .ok plan.expected ∧
      listed scratch.index = .ok plan.expected ∧ proof = .treed tree plan.expected := by
  obtain ⟨due, output, needed, ran, proven⟩ := performed
  simp only [Plan.treeStep, pending, Option.isNone_none, Except.ok.injEq] at needed
  subst needed
  simp only [ite_true] at ran
  have native := ran
  simp only [Plan.treeStep] at ran
  obtain ⟨scratch, acted, rfl, _⟩ := runAction_eq_ok ran
  simp only [bind_eq_ok, pure_eq_ok, Prod.mk.injEq] at acted
  obtain ⟨⟨written, tree⟩, wrote, rfl, rfl⟩ := acted
  simp only [Plan.treeStep, printed, pending, bind_eq_ok, Except.ok.injEq, require_eq_ok, Bool.and_eq_true,
    beq_iff_eq, pure_eq_ok] at proven
  obtain ⟨_, rfl, _, entries, _, index, _, ⟨rfl, rfl⟩, same⟩ := proven
  exact ⟨written, tree, wrote, rfl, native, entries, index, same.symm⟩

/-- What was observed of a tree is observed later. -/
theorem treeStep_proof {x : Scratch O} {tree : O} {later : World O D} {record : Record O D} {output : Option O}
    (entries : naming.git.readTree x.objects tree = .ok plan.expected)
    (index : listed x.index = .ok plan.expected) (grown : Grown naming.git plan x later.scratch)
    (known : printed Receipt.tree record output = .ok tree) :
    (plan.treeStep naming).proof record output later = .ok (.treed tree plan.expected) := by
  simp only [Plan.treeStep, known, bind_eq_ok, Except.ok.injEq, require_eq_ok, Bool.and_eq_true, beq_iff_eq,
    pure_eq_ok]
  exact ⟨tree, rfl, plan.expected, readTree_mono grown.adds.objects entries, plan.expected,
    grown.expected index, (), ⟨rfl, rfl⟩, rfl⟩

theorem treeStep_adds {record : Record O D} {w after : World O D} {proof : Receipt O}
    (performed : Performs (plan.treeStep naming) record w after proof) :
    after = { w with scratch := after.scratch } ∧ after.scratch.index = w.scratch.index ∧
      w.scratch.Adds naming.git.lookup after.scratch := by
  obtain ⟨due, output, _, ran, _⟩ := performed
  simp only [Plan.treeStep] at ran
  refine ran_adds ?_ ran
  intro x y output acted
  simp only [bind_eq_ok, pure_eq_ok, Prod.mk.injEq] at acted
  obtain ⟨⟨written, tree⟩, wrote, rfl, _⟩ := acted
  exact naming.git.writeTreeAdds wrote

theorem treeStep_lawful : Lawful naming plan (plan.treeStep naming) where
  frame record w after proof performed := by
    obtain ⟨same, index, adds⟩ := treeStep_adds performed
    exact ⟨same, Grown.of_same index adds⟩
  index record w after proof performed := .inr (treeStep_adds performed).2.1
  recognised record w after proof pending performed later verified digest grown receipt := by
    obtain ⟨scratch, tree, _, rfl, _, entries, index, rfl⟩ := treeStep_performs pending performed
    refine ⟨false, none, by simp [Plan.treeStep, receipt], ⟨rfl, rfl⟩, ?_⟩
    exact treeStep_proof entries index grown (by simp [printed, receipt, Receipt.tree])

/-- The same tree is written again. -/
theorem treeStep_repeatable : Repeatable (plan.treeStep naming : Step O D) := by
  intro record w after proof pending performed
  obtain ⟨scratch, tree, wrote, rfl, native, entries, index, rfl⟩ := treeStep_performs pending performed
  have again := naming.git.writeTreeAgain wrote
  simp only [Plan.treeStep] at native
  obtain ⟨_, _, _, rerun⟩ := runAction_eq_ok native
  refine ⟨true, some tree, by simp [Plan.treeStep, pending], ?_, ?_⟩
  · simp only [ite_true, Plan.treeStep]
    exact rerun scratch scratch (some tree) (by simp [again])
  · exact treeStep_proof entries index (Grown.refl _) (by simp [printed, pending])

section Commit

variable {newTree : O}

theorem commitStep_performs {record : Record O D} {w after : World O D} {proof : Receipt O}
    (pending : record.receipt = none)
    (performed : Performs (plan.commitStep naming newTree) record w after proof) :
    ∃ scratch head, naming.git.commitTree w.scratch newTree plan.before.headOid plan.message =
        .ok (scratch, head) ∧ after = { w with scratch } ∧
      (plan.commitStep naming newTree).native record w = .ok (after, some head) ∧
      naming.git.readCommit scratch.objects head =
        .ok (newTree, [plan.before.headOid], plan.message ++ "\n") ∧
      listed scratch.index = .ok plan.expected ∧ proof = .committed head newTree plan.before.headOid := by
  obtain ⟨due, output, needed, ran, proven⟩ := performed
  simp only [Plan.commitStep, pending, Option.isNone_none, Except.ok.injEq] at needed
  subst needed
  simp only [ite_true] at ran
  have native := ran
  simp only [Plan.commitStep] at ran
  obtain ⟨scratch, acted, rfl, _⟩ := runAction_eq_ok ran
  simp only [bind_eq_ok, pure_eq_ok, Prod.mk.injEq] at acted
  obtain ⟨⟨written, head⟩, wrote, rfl, rfl⟩ := acted
  simp only [Plan.commitStep, printed, pending, bind_eq_ok, Except.ok.injEq, require_eq_ok, Bool.and_eq_true,
    beq_iff_eq, pure_eq_ok] at proven
  obtain ⟨_, rfl, ⟨tree, parents, body⟩, read, _, index, _, ⟨⟨⟨rfl, rfl⟩, rfl⟩, rfl⟩, same⟩ := proven
  exact ⟨written, head, wrote, rfl, native, read, index, same.symm⟩

theorem commitStep_proof {x : Scratch O} {head : O} {later : World O D} {record : Record O D}
    {output : Option O}
    (read : naming.git.readCommit x.objects head =
      .ok (newTree, [plan.before.headOid], plan.message ++ "\n"))
    (index : listed x.index = .ok plan.expected) (grown : Grown naming.git plan x later.scratch)
    (known : printed Receipt.head record output = .ok head) :
    (plan.commitStep naming newTree).proof record output later =
      .ok (.committed head newTree plan.before.headOid) := by
  simp only [Plan.commitStep, known, bind_eq_ok, Except.ok.injEq, require_eq_ok, Bool.and_eq_true, beq_iff_eq,
    pure_eq_ok]
  exact ⟨head, rfl, _, readCommit_mono grown.adds.objects read, plan.expected, grown.expected index, (),
    ⟨⟨⟨rfl, rfl⟩, rfl⟩, rfl⟩, rfl⟩

/-- Wherever a commit was made, another one can be made. -/
theorem commitStep_more {record : Record O D}
    {w after : World O D} {proof : Receipt O} (pending : record.receipt = none)
    (performed : Performs (plan.commitStep naming newTree) record w after proof) {x : Scratch O}
    (grown : Grown naming.git plan w.scratch x) :
    ∃ scratch proof, Performs (plan.commitStep naming newTree) record { w with scratch := x }
      { w with scratch } proof ∧ Grown naming.git plan x scratch ∧ proof.tree = .ok newTree := by
  obtain ⟨old, first, wrote, rfl, native, read, index, _⟩ := commitStep_performs pending performed
  obtain ⟨date, found⟩ := readCommit_eq_ok.mp read
  obtain ⟨scratch, head, date', again, made⟩ := naming.git.commitTreeAgain wrote found grown.adds
  obtain ⟨same, adds⟩ := naming.git.commitTreeAdds again
  have unchanged : listed w.scratch.index = .ok plan.expected := by
    rw [← (naming.git.commitTreeAdds wrote).1]
    exact index
  simp only [Plan.commitStep] at native
  obtain ⟨_, _, _, rerun⟩ := runAction_eq_ok native
  refine ⟨scratch, .committed head newTree plan.before.headOid,
    ⟨true, some head, by simp [Plan.commitStep, pending], ?_, ?_⟩, Grown.of_same same adds, rfl⟩
  · simp only [ite_true, Plan.commitStep]
    exact rerun x scratch (some head) (by simp [again])
  · exact commitStep_proof (readCommit_eq_ok.mpr ⟨date', made⟩) (by rw [same]; exact grown.expected unchanged)
      (Grown.refl _) (by simp [printed, pending])

theorem commitStep_adds {record : Record O D} {w after : World O D} {proof : Receipt O}
    (performed : Performs (plan.commitStep naming newTree) record w after proof) :
    after = { w with scratch := after.scratch } ∧ after.scratch.index = w.scratch.index ∧
      w.scratch.Adds naming.git.lookup after.scratch := by
  obtain ⟨due, output, _, ran, _⟩ := performed
  simp only [Plan.commitStep] at ran
  refine ran_adds ?_ ran
  intro x y output acted
  simp only [bind_eq_ok, pure_eq_ok, Prod.mk.injEq] at acted
  obtain ⟨⟨written, head⟩, wrote, rfl, _⟩ := acted
  exact naming.git.commitTreeAdds wrote

theorem commitStep_lawful : Lawful naming plan (plan.commitStep naming newTree) where
  frame record w after proof performed := by
    obtain ⟨same, index, adds⟩ := commitStep_adds performed
    exact ⟨same, Grown.of_same index adds⟩
  index record w after proof performed := .inr (commitStep_adds performed).2.1
  recognised record w after proof pending performed later verified digest grown receipt := by
    obtain ⟨scratch, head, _, rfl, _, read, index, rfl⟩ := commitStep_performs pending performed
    refine ⟨false, none, by simp [Plan.commitStep, receipt], ⟨rfl, rfl⟩, ?_⟩
    exact commitStep_proof read index grown (by simp [printed, receipt, Receipt.head])

end Commit

end Modelark.Publication.MapFiles
