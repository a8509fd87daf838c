import Modelark.Publication.JournaledRuns

/-!
# What a publication retains

An operation that is closed or has a file in the catalog stays in the records, bound as it was, with its
participants, its batches and its files, whatever is written later. It stays closed, and no batch or file
goes back. Only the end of a registration drops an operation, and none that has come so far.
-/

namespace Modelark.Publication

open Library Execution

variable {R : Type} {rules : Rules} {scope : Scope} {c after last : Catalog R} {w : Owned R}
variable {entered : Option (String × FilePhase)} {held : String → Prop} {operationId : String}

/-- The row of an operation later on. -/
structure OperationRow.Becomes (row later : OperationRow) : Prop where
  operationId : later.operationId = row.operationId
  libraryId : later.libraryId = row.libraryId
  kind : later.kind = row.kind
  binding : later.binding = row.binding
  closed : row.state = .closed → later.state = .closed

/-- The row of a batch later on. -/
structure BatchRow.Becomes (row later : BatchRow) : Prop where
  operationId : later.operationId = row.operationId
  intent : later.intent = row.intent
  propagated : row.phase = .propagated → later.phase = .propagated
  committed : ∀ revision, row.committedRevision = some revision → later.committedRevision = some revision

/-- The row of a file later on. -/
structure FileRow.Becomes (row later : FileRow) : Prop where
  operationId : later.operationId = row.operationId
  batchId : later.batchId = row.batchId
  intent : later.intent = row.intent
  phase : row.phase.index ≤ later.phase.index
  committed : ∀ revision, row.committedRevision = some revision → later.committedRevision = some revision

theorem OperationRow.Becomes.refl (row : OperationRow) : row.Becomes row := ⟨rfl, rfl, rfl, rfl, id⟩

theorem BatchRow.Becomes.refl (row : BatchRow) : row.Becomes row := ⟨rfl, rfl, id, fun _ => id⟩

theorem FileRow.Becomes.refl (row : FileRow) : row.Becomes row := ⟨rfl, rfl, rfl, le_rfl, fun _ => id⟩

/-- A file goes on to the phase after its own. -/
theorem FileRow.becomes_advanced {row : FileRow} {phase : FilePhase} (stored : SealedText)
    (expected : phase.expected = some row.phase) : row.Becomes (row.advanced phase stored) where
  operationId := row.advanced_operationId phase stored
  batchId := row.advanced_batchId phase stored
  intent := row.advanced_intent phase stored
  phase := by
    rw [row.advanced_phase phase stored]
    generalize row.phase = before at expected
    cases phase <;> cases expected <;> decide
  committed _ known := (row.advanced_committedRevision phase stored).trans known

/-- Every row of an operation that is held is still there, as what it may become. -/
def Lasts {ρ κ : Type} [DecidableEq κ] {key : ρ → κ} (held : String → Prop) (owner : ρ → String)
    (becomes : ρ → ρ → Prop) (table later : Table key) : Prop :=
  ∀ wanted row, table.find wanted = some row → held (owner row) →
    ∃ row', later.find wanted = some row' ∧ becomes row row'

section Tables

variable {ρ κ : Type} [DecidableEq κ] {key : ρ → κ} {owner : ρ → String} {becomes : ρ → ρ → Prop}
variable {table later : Table key}

theorem Lasts.refl (refl : ∀ row, becomes row row) : Lasts held owner becomes table table :=
  fun _ row found _ => ⟨row, found, refl row⟩

theorem Lasts.trans {final : Table key} (trans : ∀ {one other third}, becomes one other → becomes other third →
    becomes one third) (owned : ∀ {one other}, becomes one other → owner other = owner one)
    (first : Lasts held owner becomes table later) (second : Lasts held owner becomes later final) :
    Lasts held owner becomes table final := by
  intro wanted row found holds
  obtain ⟨next, found, one⟩ := first wanted row found holds
  obtain ⟨final, found, other⟩ := second wanted next found (owned one ▸ holds)
  exact ⟨final, found, trans one other⟩

theorem Lasts.mono {fewer : String → Prop} (implies : ∀ operationId, fewer operationId → held operationId)
    (lasts : Lasts held owner becomes table later) : Lasts fewer owner becomes table later :=
  fun wanted row found holds => lasts wanted row found (implies _ holds)

theorem Lasts.insert {row : ρ} (refl : ∀ row, becomes row row) (inserted : table.insert? row = some later) :
    Lasts held owner becomes table later :=
  fun _ old found _ => ⟨old, Table.find_of_insert? inserted found, refl old⟩

theorem Lasts.insertAll {rows : List ρ} (refl : ∀ row, becomes row row)
    (inserted : table.insertAll? rows = some later) : Lasts held owner becomes table later :=
  fun _ old found _ => ⟨old, Table.find_of_insertAll? inserted found, refl old⟩

/-- The rows of an operation that is not held are deleted. -/
theorem Lasts.delete (refl : ∀ row, becomes row row) (loose : ¬held operationId) :
    Lasts held owner becomes table (table.delete fun row => owner row == operationId) := by
  intro wanted row found holds
  refine ⟨row, ?_, refl row⟩
  obtain ⟨listed, same⟩ := (Table.find_eq_some _).mp found
  have apart : owner row ≠ operationId := fun same => loose (same ▸ holds)
  exact (Table.find_eq_some _).mpr ⟨List.mem_filter.mpr ⟨listed, by simpa using apart⟩, same⟩

theorem Lasts.update {where' : ρ → Bool} {change : ρ → ρ} {keeps : ∀ row, key (change row) = key row}
    (refl : ∀ row, becomes row row)
    (each : ∀ row, table.find (key row) = some row → where' row = true → becomes row (change row)) :
    Lasts held owner becomes table (table.update where' change keeps) := by
  intro wanted row found _
  refine ⟨_, by rw [Table.find_update_map, found]; rfl, ?_⟩
  dsimp only
  split_ifs with selected
  · have own : key row = wanted := ((Table.find_eq_some _).mp found).2
    exact each row (own ▸ found) selected
  · exact refl row

end Tables

/-- An operation that is closed, or has a file in the catalog. -/
def Reached (c : Catalog R) (operationId : String) : Prop :=
  ∃ row, c.records.operations.find operationId = some row ∧
    (row.state = .closed ∨ c.publishes operationId = true)

/-- What lasts of the records of the operations that are held. -/
structure Retained (held : String → Prop) (c after : Catalog R) : Prop where
  operations : Lasts held OperationRow.operationId OperationRow.Becomes
    c.records.operations after.records.operations
  participants : ∀ entry ∈ c.records.participants.rows, held entry.operationId →
    entry ∈ after.records.participants.rows
  batches : Lasts held BatchRow.operationId BatchRow.Becomes c.records.batches after.records.batches
  files : Lasts held FileRow.operationId FileRow.Becomes c.records.files after.records.files

namespace Retained

theorem of_records (same : after.records = c.records) : Retained held c after := by
  constructor
  · rw [same]
    exact .refl .refl
  · rw [same]
    exact fun _ listed _ => listed
  · rw [same]
    exact .refl .refl
  · rw [same]
    exact .refl .refl

theorem trans (first : Retained held c after) (second : Retained held after last) : Retained held c last where
  operations := .trans (fun one other => ⟨other.operationId.trans one.operationId,
    other.libraryId.trans one.libraryId, other.kind.trans one.kind, other.binding.trans one.binding,
    fun closed => other.closed (one.closed closed)⟩) (·.operationId) first.operations second.operations
  participants entry listed holds :=
    second.participants entry (first.participants entry listed holds) holds
  batches := .trans (fun one other => ⟨other.operationId.trans one.operationId, other.intent.trans one.intent,
    fun propagated => other.propagated (one.propagated propagated),
    fun revision known => other.committed revision (one.committed revision known)⟩) (·.operationId)
    first.batches second.batches
  files := .trans (fun one other => ⟨other.operationId.trans one.operationId, other.batchId.trans one.batchId,
    other.intent.trans one.intent, one.phase.trans other.phase,
    fun revision known => other.committed revision (one.committed revision known)⟩) (·.operationId)
    first.files second.files

theorem mono {fewer : String → Prop} (implies : ∀ operationId, fewer operationId → held operationId)
    (retained : Retained held c after) : Retained fewer c after where
  operations := retained.operations.mono implies
  participants entry listed holds := retained.participants entry listed (implies _ holds)
  batches := retained.batches.mono implies
  files := retained.files.mono implies

theorem setOperations {operations : Table OperationRow.operationId}
    (lasts : Lasts held OperationRow.operationId OperationRow.Becomes c.records.operations operations) :
    Retained held c (c.setOperations operations) :=
  ⟨lasts, fun _ listed _ => listed, .refl .refl, .refl .refl⟩

theorem setBatches {batches : Table BatchRow.key}
    (lasts : Lasts held BatchRow.operationId BatchRow.Becomes c.records.batches batches) :
    Retained held c (c.setBatches batches) :=
  ⟨.refl .refl, fun _ listed _ => listed, lasts, .refl .refl⟩

theorem setFiles {files : Table FileRow.fileId}
    (lasts : Lasts held FileRow.operationId FileRow.Becomes c.records.files files) :
    Retained held c (c.setFiles files) :=
  ⟨.refl .refl, fun _ listed _ => listed, .refl .refl, lasts⟩

theorem setActions {actions : Table ActionRow.key} : Retained held c (c.setActions actions) :=
  ⟨.refl .refl, fun _ listed _ => listed, .refl .refl, .refl .refl⟩

theorem change (change : Change rules c entered after) : Retained held c after := by
  cases change with
  | operation _ _ _ _ _ _ _ _ operationInserted participantsInserted batchesInserted =>
      refine ⟨.insert .refl operationInserted, ?_, .insertAll .refl batchesInserted, .refl .refl⟩
      intro entry listed _
      dsimp only
      rw [Table.rows_insertAll? participantsInserted]
      exact List.mem_append_left _ listed
  | file _ _ _ inserted => exact setFiles (.insert .refl inserted)
  | advance row phase stored drives rest found expected _ =>
      refine ⟨.refl .refl, fun _ listed _ => listed, .refl .refl, ?_⟩
      apply Lasts.update .refl
      · intro other listed selected
        have same : other.fileId = row.fileId := by
          simp only [Bool.and_eq_true, beq_iff_eq] at selected
          exact selected.1
        rw [same] at listed
        cases found.symm.trans listed
        exact FileRow.becomes_advanced stored expected
      · exact fun other => other.advanced_fileId phase stored
  | batch => exact setBatches (.update .refl fun _ _ _ => ⟨rfl, rfl, fun _ => rfl, fun _ => id⟩)
  | close =>
      refine ⟨?_, fun _ listed _ => listed, .refl .refl, .refl .refl⟩
      apply Lasts.update .refl
      · exact fun _ _ _ => ⟨rfl, rfl, rfl, rfl, fun _ => rfl⟩
      · exact fun _ => rfl
  | actions => exact setActions
  | same => exact of_records rfl

theorem finalize {marker : Marker} {revision : Nat}
    (finalized : marker.finalize revision c = .ok after) : Retained held c after := by
  cases marker with
  | operation operationId previous created =>
      simp only [Marker.finalize, updateOne, bind_eq_ok, pure_eq_ok] at finalized
      obtain ⟨_, ⟨_, _, rfl⟩, rfl⟩ := finalized
      exact setOperations (.update .refl fun _ _ _ => ⟨rfl, rfl, rfl, rfl, id⟩)
  | action operationId actionId sealHash status =>
      simp only [Marker.finalize, bind_eq_ok, pure_eq_ok] at finalized
      obtain ⟨actions, _, rfl⟩ := finalized
      exact setActions
  | file fileId sealHash =>
      simp only [Marker.finalize, updateOne, bind_eq_ok, pure_eq_ok] at finalized
      obtain ⟨_, ⟨_, _, rfl⟩, rfl⟩ := finalized
      refine setFiles (.update .refl fun row _ selected => ⟨rfl, rfl, rfl, le_rfl, fun _ known => ?_⟩)
      simp [known] at selected
  | batch operationId batchId sealHash =>
      simp only [Marker.finalize, updateOne, bind_eq_ok, pure_eq_ok] at finalized
      obtain ⟨_, ⟨_, _, rfl⟩, rfl⟩ := finalized
      refine setBatches (.update .refl fun row _ selected => ⟨rfl, rfl, id, fun _ known => ?_⟩)
      simp [known] at selected
  | closure operationId previous =>
      simp only [Marker.finalize, updateOne, bind_eq_ok, pure_eq_ok] at finalized
      obtain ⟨_, ⟨_, _, rfl⟩, rfl⟩ := finalized
      exact setOperations (.update .refl fun _ _ _ => ⟨rfl, rfl, rfl, rfl, id⟩)

theorem finish (finished : scope.finish w = .ok after) : Retained held w.catalog after := by
  unfold Scope.finish at finished
  split at finished
  · simp only [bind_eq_ok, pure_eq_ok] at finished
    obtain ⟨_, _, rfl⟩ := finished
    exact of_records rfl
  · simp only [bind_eq_ok] at finished
    obtain ⟨bumped, bump, threaded⟩ := finished
    apply thread_invariant (Retained held w.catalog) _ threaded
    · exact of_records (scope.bump_eq_ok bump).1
    · intro _ marker _ _ finalized retained
      exact retained.trans (finalize finalized)

theorem event (event : Event R) : Retained held c (event.step rules c) := by
  cases committed : event.commit rules c with
  | error failure =>
      have same : event.step rules c = c := by simp [Event.step, committed, Except.toOption]
      exact of_records (by rw [same])
  | ok after =>
      have stepped : event.step rules c = after := by simp [Event.step, committed, Except.toOption]
      rw [stepped]
      cases event with
      | write scope bound calls =>
          obtain ⟨result, written, rfl⟩ := map_eq_ok.mp committed
          obtain ⟨called, rebound, performed, same, finished⟩ := scope.write_eq_ok written
          have calls : Retained held c called.catalog := by
            apply thread_invariant (fun w : Owned R => Retained held c w.catalog) _ performed (of_records rfl)
            intro _ call _ _ performs retained
            exact retained.trans (change (Call.perform_change performs).1)
          exact trans (same ▸ calls) (finish finished)
      | anchor label identityEpoch generation observation now =>
          obtain ⟨_, anchor, _, rfl⟩ := publishAnchorLocked_adds committed
          exact of_records rfl
      | other change =>
          cases committed
          exact of_records rfl

/-- The end of a registration drops an operation that is not held, or nothing. -/
theorem abort (loose : held operationId → Reached c operationId)
    (aborted : abortUnfinished operationId c = .ok after) : Retained held c after := by
  simp only [abortUnfinished, bind_eq_ok] at aborted
  obtain ⟨fleet, _, rest⟩ := aborted
  split at rest
  · rename_i row found
    split_ifs at rest with open'
    · have unheld : ¬held operationId := by
        intro holds
        obtain ⟨own, listed, closed | published⟩ := loose holds
        · cases found.symm.trans listed
          rw [open'.1] at closed
          cases closed
        · rw [open'.2] at published
          cases published
      simp only [bind_eq_ok, pure_eq_ok] at rest
      obtain ⟨_, _, rfl⟩ := rest
      refine ⟨.delete .refl unheld, ?_, .delete .refl unheld, .delete .refl unheld⟩
      intro entry listed holds
      have apart : entry.operationId ≠ operationId := fun same => unheld (same ▸ holds)
      exact List.mem_filter.mpr ⟨listed, by simpa using apart⟩
    · cases rest
      exact of_records rfl
  · cases rest
    exact of_records rfl

end Retained

/-- The catalog after a run among which registrations end. -/
def Later.run (rules : Rules) (c : Catalog R) (events : List (Later R)) : Catalog R :=
  events.foldl (Later.step rules) c

theorem Retained.later (event : Later R) :
    Retained (fun operationId => Reached c operationId ∨ event ≠ .abort operationId) c (event.step rules c) := by
  cases event with
  | ordinary event => exact .event event
  | abort operationId =>
      cases aborted : abortUnfinished operationId c with
      | error failure => exact .of_records (by simp [Later.step, aborted, Except.toOption])
      | ok after =>
          have stepped : Later.step rules c (.abort operationId) = after := by
            simp [Later.step, aborted, Except.toOption]
          rw [stepped]
          apply Retained.abort _ aborted
          rintro (reached | apart)
          · exact reached
          · exact absurd rfl apart

/-- An operation that has come so far does not go back. -/
theorem Reached.retained (reached : Reached c operationId) (retained : Retained held c after)
    (holds : held operationId) : Reached after operationId := by
  obtain ⟨row, found, so⟩ := reached
  have own : row.operationId = operationId := ((Table.find_eq_some _).mp found).2
  obtain ⟨row', found', becomes⟩ := retained.operations operationId row found (own ▸ holds)
  refine ⟨row', found', so.imp becomes.closed ?_⟩
  intro published
  obtain ⟨file, listed, here⟩ := List.any_eq_true.mp published
  simp only [Bool.and_eq_true, beq_iff_eq] at here
  obtain ⟨file', there, becomes⟩ := retained.files file.fileId file
    ((Table.find_eq_some _).mpr ⟨listed, rfl⟩) (here.1 ▸ holds)
  have last : file'.phase = .catalogPublished := by
    have least : FilePhase.catalogPublished.index ≤ file'.phase.index := here.2 ▸ becomes.phase
    revert least
    cases file'.phase <;> decide
  refine List.any_eq_true.mpr ⟨file', ((Table.find_eq_some _).mp there).1, ?_⟩
  simp [becomes.operationId, here.1, last]

/-- In every run, registrations' ends included, no row is lost of an operation that is closed or has a file in
    the catalog, or that the run does not drop. Such an operation is not bound anew nor opened again, neither a
    batch nor a file of it goes back, and the revision that it was committed at stays. -/
theorem records_retained (rules : Rules) (c : Catalog R) (events : List (Later R)) :
    Retained (fun operationId => Reached c operationId ∨ .abort operationId ∉ events) c
      (Later.run rules c events) := by
  induction events generalizing c with
  | nil => exact .of_records rfl
  | cons event events ih =>
      have first : Retained (fun operationId => Reached c operationId ∨ .abort operationId ∉ event :: events) c
          (event.step rules c) := by
        apply (Retained.later event).mono
        exact fun operationId => Or.imp_right fun spared => (List.ne_of_not_mem_cons spared).symm
      apply first.trans
      apply (ih (event.step rules c)).mono
      rintro operationId (reached | spared)
      · exact .inl (reached.retained first (.inl reached))
      · exact .inr (List.not_mem_of_not_mem_cons spared)

end Modelark.Publication
