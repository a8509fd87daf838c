import Modelark.Publication.MapFiles.Candidate

/-!
# What later worlds keep

An action that can be read once can be read in every later world: the actions that it depends on stay
verified. So the journal's calls have the results that their checks at the beginning promise.
-/

namespace Modelark.Publication.MapFiles

open Library
open Revision (Failure)
open Conversion (refused)

variable {O D : Type} {naming : Naming O D} {operationId : String} {u w : World O D}
variable {actionId operationDigest : String} {record : Record O D} {row : Row O D} {intent : Intent O}
variable {operation : Operation}

/-- The receipt of a verified row, with its digest. -/
def Row.receipt (row : Row O D) : Option (Receipt O × String) :=
  match row.status with
  | .prepared => none
  | .verified frozen digest _ => some (frozen.receipt, digest)

/-- What a later world keeps of the journal: what is verified. -/
structure Keeps (u w : World O D) : Prop where
  held : w.held = u.held
  rows : ∀ (key : String) (row : Row O D), u.journal[key]? = some row → row.receipt.isSome = true →
    w.journal[key]? = some row
  revision : u.revision ≤ w.revision

theorem Keeps.refl : Keeps w w := ⟨rfl, fun _ _ found _ => found, Nat.le_refl _⟩

/-- A world with a row more, or with a row in another status, at its next revision. -/
def World.write (w : World O D) (actionId : String) (row : Row O D) : World O D :=
  { w with journal := w.journal.insert actionId row, revision := w.revision + 1 }

@[simp] theorem World.write_held : (w.write actionId row).held = w.held := rfl

@[simp] theorem World.write_scratch : (w.write actionId row).scratch = w.scratch := rfl

@[simp] theorem World.write_revision : (w.write actionId row).revision = w.revision + 1 := rfl

@[simp] theorem World.write_journal : (w.write actionId row).journal = w.journal.insert actionId row := rfl

/-- A row that is not verified may be written over. -/
theorem keeps_write (pending : ∀ old, w.journal[actionId]? = some old → old.receipt = none) :
    Keeps w (w.write actionId row) := by
  refine ⟨rfl, fun key old found verified => ?_, by simp⟩
  have apart : actionId ≠ key := by
    rintro rfl
    rw [pending old found] at verified
    cases verified
  rw [World.write_journal, Dict.lookup_insert_of_ne _ _ apart]
  exact found

section Reading

variable [DecidableEq D]

theorem readRow_receipt {revision : Nat}
    (read : readRow naming operationId actionId operationDigest revision row = .ok record) :
    record = ⟨actionId, row.kind, row.frozen.intent, row.intentDigest, row.receipt⟩ := by
  simp only [readRow, bind_eq_ok] at read
  obtain ⟨_, _, _, _, _, _, read⟩ := read
  rw [Row.receipt]
  cases status : row.status with
  | prepared =>
      rw [status] at read
      exact (pure_eq_ok.mp read).symm
  | verified frozen digest verifiedRevision =>
      rw [status] at read
      simp only [bind_eq_ok, pure_eq_ok] at read
      obtain ⟨_, _, _, _, same⟩ := read
      exact same.symm

/-- A row that is read is bound to its own intent. -/
theorem readRow_bound {revision : Nat}
    (read : readRow naming operationId actionId operationDigest revision row = .ok record) :
    row.intentDigest = naming.intent row.frozen ∧ row.frozen.kind = row.kind := by
  simp only [readRow, bind_eq_ok, require_eq_ok, Bool.and_eq_true, beq_iff_eq] at read
  obtain ⟨_, digest, _, bound, _⟩ := read
  exact ⟨digest.symm, bound.2⟩

theorem readRow_mono {revision later : Nat} (le : revision ≤ later)
    (read : readRow naming operationId actionId operationDigest revision row = .ok record) :
    readRow naming operationId actionId operationDigest later row = .ok record := by
  simp only [readRow, bind_eq_ok, require_eq_ok, Bool.and_eq_true, decide_eq_true_eq] at read ⊢
  obtain ⟨first, digest, second, bound, third, prepared, read⟩ := read
  refine ⟨first, digest, second, bound, third, ⟨prepared.1, by omega⟩, ?_⟩
  split at read
  · exact read
  · simp only [bind_eq_ok, require_eq_ok, Bool.and_eq_true, decide_eq_true_eq] at read ⊢
    obtain ⟨fourth, proven, fifth, checks, same⟩ := read
    exact ⟨fourth, proven, fifth, ⟨⟨⟨⟨checks.1.1.1.1, by omega⟩, checks.1.1.2⟩, checks.1.2⟩, checks.2⟩, same⟩

theorem load_eq_ok : load naming operationId w actionId operationDigest = .ok record ↔
    ∃ row, w.journal[actionId]? = some row ∧
      readRow naming operationId actionId operationDigest w.revision row = .ok record := by
  rw [load]
  cases w.journal[actionId]? <;> simp

theorem load_mono (keeps : Keeps u w) (same : w.journal[actionId]? = u.journal[actionId]?)
    (loaded : load naming operationId u actionId operationDigest = .ok record) :
    load naming operationId w actionId operationDigest = .ok record := by
  rw [load_eq_ok] at loaded ⊢
  obtain ⟨row, found, read⟩ := loaded
  exact ⟨row, same.trans found, readRow_mono keeps.revision read⟩

theorem dependency_mono (keeps : Keeps u w) {seen next : List String} {after : String × String}
    (checked : dependency naming operationId u operationDigest seen after = .ok next) :
    dependency naming operationId w operationDigest seen after = .ok next := by
  simp only [dependency, bind_eq_ok, require_eq_ok, pure_eq_ok] at checked ⊢
  obtain ⟨first, fresh, prior, loaded, second, proven, same⟩ := checked
  refine ⟨first, fresh, prior, ?_, second, proven, same⟩
  obtain ⟨row, found, read⟩ := load_eq_ok.mp loaded
  have verified : row.receipt.isSome = true := by
    rw [readRow_receipt read] at proven
    cases receipt : row.receipt with
    | none =>
        rw [receipt] at proven
        cases proven
    | some _ => rfl
  rw [load_eq_ok]
  exact ⟨row, keeps.rows _ row found verified, readRow_mono keeps.revision read⟩

theorem dependencies_mono (keeps : Keeps u w) {seen result : List String} {after : List (String × String)}
    (checked : thread (dependency naming operationId u operationDigest) seen after = .ok result) :
    thread (dependency naming operationId w operationDigest) seen after = .ok result := by
  induction after generalizing seen with
  | nil => exact checked
  | cons first after ih =>
      simp only [thread_cons, bind_eq_ok] at checked ⊢
      obtain ⟨next, one, rest⟩ := checked
      exact ⟨next, dependency_mono keeps one, ih rest⟩

theorem validateIntent_mono (keeps : Keeps u w) {inPhase : Bool}
    (valid : validateIntent naming operationId u intent operation inPhase = .ok ()) :
    validateIntent naming operationId w intent operation inPhase = .ok () := by
  simp only [validateIntent, bind_eq_ok] at valid ⊢
  obtain ⟨first, profiles, valid⟩ := valid
  refine ⟨first, profiles, ?_⟩
  split at valid
  · simp only [bind_eq_ok] at valid ⊢
    obtain ⟨second, root, seen, checked, phase⟩ := valid
    exact ⟨second, root, seen, dependencies_mono keeps checked, by rw [keeps.held]; exact phase⟩
  · cases valid

/-- The phase is not asked for of an action that is verified. -/
theorem validateIntent_verified (valid : validateIntent naming operationId w intent operation true = .ok ()) :
    validateIntent naming operationId w intent operation false = .ok () := by
  simp only [validateIntent, bind_eq_ok] at valid ⊢
  obtain ⟨first, profiles, valid⟩ := valid
  refine ⟨first, profiles, ?_⟩
  split at valid
  · simp only [bind_eq_ok] at valid ⊢
    obtain ⟨second, root, seen, checked, _⟩ := valid
    exact ⟨second, root, seen, checked, rfl⟩
  · cases valid

theorem readAction_mono (keeps : Keeps u w) (same : w.journal[actionId]? = u.journal[actionId]?)
    (read : readAction naming operationId u actionId = .ok record) :
    readAction naming operationId w actionId = .ok record := by
  simp only [readAction, bind_eq_ok, pure_eq_ok] at read ⊢
  obtain ⟨operation, bound, found, loaded, _, valid, rfl⟩ := read
  exact ⟨operation, by rw [keeps.held]; exact bound, found, load_mono keeps same loaded, (),
    validateIntent_mono keeps valid, rfl⟩

variable {kind : ActionKind}

/-- The row of an action that is being prepared. -/
def pendingRow (naming : Naming O D) (operationId : String) (operation : Operation) (actionId : String)
    (kind : ActionKind) (intent : Intent O) (revision : Nat) : Row O D :=
  let frozen : Frozen O := ⟨operationId, operation.digest, actionId, kind, intent⟩
  ⟨kind, frozen, naming.intent frozen, revision + 1, .prepared⟩

/-- The row of an action that is being verified. -/
def Row.withReceipt (naming : Naming O D) (operation : Operation) (actionId : String) (receipt : Receipt O)
    (revision : Nat) (row : Row O D) : Row O D :=
  let frozen : Sealed O D := ⟨operation.digest, actionId, row.intentDigest, receipt⟩
  { row with status := .verified frozen (naming.receipt frozen) (revision + 1) }

/-- A new action is journalled when its intent is valid, and can be read then. -/
theorem prepareAction_fresh (bound : w.held.operation = .ok operation) (fresh : w.journal[actionId]? = none)
    (valid : validateIntent naming operationId w intent operation true = .ok ()) :
    prepareAction naming operationId actionId kind intent w =
      .ok (w.write actionId (pendingRow naming operationId operation actionId kind intent w.revision), ()) := by
  have absent : w.journal.contains actionId = false := by
    rw [← Bool.not_eq_true, Std.ExtTreeMap.contains_iff_mem, Dict.mem_iff_isSome, fresh]
    simp
  simp only [prepareAction, bound, absent, ok_bind, valid]
  rfl

theorem prepareAction_eq_ok {after : World O D} (bound : w.held.operation = .ok operation)
    (fresh : w.journal[actionId]? = none)
    (prepared : prepareAction naming operationId actionId kind intent w = .ok (after, ())) :
    validateIntent naming operationId w intent operation true = .ok () ∧ after =
      w.write actionId (pendingRow naming operationId operation actionId kind intent w.revision) := by
  have absent : w.journal.contains actionId = false := by
    rw [← Bool.not_eq_true, Std.ExtTreeMap.contains_iff_mem, Dict.mem_iff_isSome, fresh]
    simp
  simp only [prepareAction, bound, absent, ok_bind, Bool.false_eq_true, ite_false, bind_eq_ok, pure_eq_ok,
    Prod.mk.injEq] at prepared
  obtain ⟨_, valid, same, _⟩ := prepared
  exact ⟨valid, same.symm⟩

/-- An action that is journalled already has the intent with which it is prepared. -/
theorem prepareAction_stored (distinct : Function.Injective naming.intent) {after : World O D}
    (found : w.journal[actionId]? = some row)
    (prepared : prepareAction naming operationId actionId kind intent w = .ok (after, ())) :
    row.frozen.intent = intent ∧ row.kind = kind := by
  have present : w.journal.contains actionId = true := by
    rw [Std.ExtTreeMap.contains_iff_mem]
    exact Dict.mem_of_lookup found
  simp only [prepareAction, bind_eq_ok, present, ite_true, require_eq_ok, beq_iff_eq] at prepared
  obtain ⟨operation, _, record, loaded, _, digest, _⟩ := prepared
  obtain ⟨row', found', read⟩ := load_eq_ok.mp loaded
  have same : row' = row := Option.some.inj (found'.symm.trans found)
  subst same
  have bound := readRow_bound read
  rw [readRow_receipt read, bound.1] at digest
  rw [← bound.2, distinct digest]
  exact ⟨rfl, rfl⟩

theorem readAction_prepared (bound : w.held.operation = .ok operation) (fresh : w.journal[actionId]? = none)
    (valid : validateIntent naming operationId w intent operation true = .ok ()) :
    readAction naming operationId
      (w.write actionId (pendingRow naming operationId operation actionId kind intent w.revision)) actionId =
      .ok ⟨actionId, kind, intent, naming.intent ⟨operationId, operation.digest, actionId, kind, intent⟩,
        none⟩ := by
  have keeps : Keeps w
      (w.write actionId (pendingRow naming operationId operation actionId kind intent w.revision)) := by
    apply keeps_write
    intro old found
    rw [fresh] at found
    cases found
  simp only [readAction, World.write_held, bound, ok_bind, load, World.write_journal,
    Dict.lookup_insert_self, World.write_revision, readRow, pendingRow, beq_self_eq_true]
  simp only [require, Bool.and_self, ite_true, ok_bind, le_refl, decide_true,
    Nat.zero_lt_succ]
  rw [pendingRow] at keeps
  simp only [pure, Except.pure, ok_bind, Option.isNone_none, validateIntent_mono keeps valid]

/-- A journalled action that could be read is verified, and can be read then. -/
theorem verifyAction_pending {receipt : Receipt O} (bound : w.held.operation = .ok operation)
    (found : w.journal[actionId]? = some row) (read : readAction naming operationId w actionId = .ok record)
    (pending : record.receipt = none) :
    verifyAction naming operationId actionId record.intentDigest receipt w =
      .ok (w.write actionId (row.withReceipt naming operation actionId receipt w.revision), ()) := by
  simp only [readAction, bind_eq_ok, pure_eq_ok, bound, Except.ok.injEq] at read
  obtain ⟨_, rfl, _, loaded, _, valid, rfl⟩ := read
  obtain ⟨row', found', shape⟩ := load_eq_ok.mp loaded
  have same : row' = row := Option.some.inj (found'.symm.trans found)
  subst same
  have digest := congrArg Record.intentDigest (readRow_receipt shape)
  simp only [verifyAction, bound, loaded, ok_bind, valid, found, beq_self_eq_true]
  rw [pending]
  simp only [require, ite_true, ok_bind, digest]
  rfl

theorem readAction_verified {receipt : Receipt O} (bound : w.held.operation = .ok operation)
    (found : w.journal[actionId]? = some row) (read : readAction naming operationId w actionId = .ok record)
    (pending : record.receipt = none) :
    readAction naming operationId (w.write actionId (row.withReceipt naming operation actionId receipt w.revision))
      actionId = .ok { record with receipt := some (receipt,
        naming.receipt ⟨operation.digest, actionId, record.intentDigest, receipt⟩) } := by
  simp only [readAction, bind_eq_ok, pure_eq_ok, bound, Except.ok.injEq] at read
  obtain ⟨_, rfl, _, loaded, _, valid, rfl⟩ := read
  obtain ⟨row', found', shape⟩ := load_eq_ok.mp loaded
  have same : row' = row := Option.some.inj (found'.symm.trans found)
  subst same
  have known := readRow_receipt shape
  have prepared : row'.receipt = none := by rw [known] at pending; exact pending
  have keeps : Keeps w (w.write actionId (row'.withReceipt naming operation actionId receipt w.revision)) := by
    apply keeps_write
    intro old stored
    rw [← Option.some.inj (found'.symm.trans stored)]
    exact prepared
  rw [pending] at valid
  have valid' := validateIntent_mono keeps (validateIntent_verified valid)
  simp only [readRow, bind_eq_ok, require_eq_ok, Bool.and_eq_true, beq_iff_eq, decide_eq_true_eq] at shape
  obtain ⟨_, intentDigest, _, frozen, _, revision, _⟩ := shape
  subst known
  simp only [readAction, World.write_held, bound, ok_bind, load, World.write_journal,
    Dict.lookup_insert_self, World.write_revision, readRow, Row.withReceipt, intentDigest, frozen,
    beq_self_eq_true]
  have high : row'.preparedRevision ≤ w.revision := revision.2
  rw [Row.withReceipt] at valid'
  simp only [require, revision.1, Nat.le_succ_of_le high, Nat.lt_succ_of_le high, le_refl, decide_true,
    Bool.and_self, ite_true, ok_bind, pure, Except.pure, Option.isNone_some]
  simp only [valid', ok_bind]

end Reading

end Modelark.Publication.MapFiles
