import Mathlib

/-!
# Tables with a primary key

Rows in the order in which they were inserted, no two of them with one key, and the statements that
keep them so.
-/

namespace Modelark.Library

variable {ρ κ : Type} {key : ρ → κ}

structure Table (key : ρ → κ) where
  rows : List ρ
  distinct : (rows.map key).Nodup

namespace Table

@[ext] theorem ext {left right : Table key} (same : left.rows = right.rows) : left = right := by
  cases left
  cases right
  congr

def empty : Table key := ⟨[], List.nodup_nil⟩

/-- The changed rows keep their keys. -/
theorem distinct_map {rows : List ρ} {change : ρ → ρ} (keeps : ∀ row, key (change row) = key row)
    (distinct : (rows.map key).Nodup) : ((rows.map change).map key).Nodup := by
  have same : (rows.map change).map key = rows.map key := by
    simp [List.map_map, Function.comp_def, keeps]
  rwa [same]

variable (table : Table key)

/-- `UPDATE … WHERE`. -/
def update (where' : ρ → Bool) (change : ρ → ρ) (keeps : ∀ row, key (change row) = key row) :
    Table key where
  rows := table.rows.map fun row => if where' row then change row else row
  distinct := by
    apply distinct_map _ table.distinct
    intro row
    split
    · exact keeps row
    · rfl

/-- `DELETE … WHERE`. -/
def delete (where' : ρ → Bool) : Table key where
  rows := table.rows.filter fun row => !where' row
  distinct := table.distinct.sublist (List.filter_sublist.map key)

@[simp] theorem rows_update {where' : ρ → Bool} {change : ρ → ρ}
    {keeps : ∀ row, key (change row) = key row} :
    (table.update where' change keeps).rows =
      table.rows.map fun row => if where' row then change row else row := rfl

@[simp] theorem rows_delete {where' : ρ → Bool} :
    (table.delete where').rows = table.rows.filter fun row => !where' row := rfl

/-- Nothing to delete. -/
theorem delete_eq_self {where' : ρ → Bool} (absent : ∀ row ∈ table.rows, where' row = false) :
    table.delete where' = table := by
  apply ext
  rw [rows_delete, List.filter_eq_self]
  intro row member
  simp [absent row member]

/-- A condition that pins the key and holds of the row there selects that row alone. -/
theorem count_eq_one {where' : ρ → Bool} {row : ρ} (member : row ∈ table.rows)
    (selected : where' row = true) (pins : ∀ other, where' other = true → key other = key row) :
    (table.rows.filter where').length = 1 := by
  have among : row ∈ table.rows.filter where' := List.mem_filter.mpr ⟨member, selected⟩
  have distinct : (table.rows.filter where').Nodup := (List.Nodup.of_map key table.distinct).filter _
  have only : ∀ other ∈ table.rows.filter where', other = row := by
    intro other otherAmong
    obtain ⟨otherMember, otherSelected⟩ := List.mem_filter.mp otherAmong
    exact List.inj_on_of_nodup_map table.distinct otherMember member (pins other otherSelected)
  have single : table.rows.filter where' = [row] := by
    rcases shape : table.rows.filter where' with _ | ⟨first, _ | ⟨second, rest⟩⟩
    · simp [shape] at among
    · simp [only first (by simp [shape])]
    · have same : first = second := by
        rw [only first (by simp [shape]), only second (by simp [shape])]
      simp [shape, same] at distinct
  simp [single]

/-- An update that changes what a column of a selected row shows changes the column. -/
theorem column_update_ne {γ : Type} (column : ρ → γ) {where' : ρ → Bool} {change : ρ → ρ}
    (keeps : ∀ row, key (change row) = key row) {row : ρ} (member : row ∈ table.rows)
    (selected : where' row = true) (changed : column (change row) ≠ column row) :
    (table.update where' change keeps).rows.map column ≠ table.rows.map column := by
  intro same
  rw [rows_update, List.map_map, List.map_inj_left] at same
  apply changed
  simpa [selected] using same row member

/-- An update that leaves a column alone. -/
theorem column_update_eq {γ : Type} (column : ρ → γ) {where' : ρ → Bool} {change : ρ → ρ}
    (keeps : ∀ row, key (change row) = key row)
    (kept : ∀ row, where' row = true → column (change row) = column row) :
    (table.update where' change keeps).rows.map column = table.rows.map column := by
  rw [rows_update, List.map_map, List.map_inj_left]
  intro row _
  simp only [Function.comp]
  split
  · exact kept row ‹_›
  · rfl

variable [DecidableEq κ]

def find (wanted : κ) : Option ρ :=
  table.rows.find? fun row => key row = wanted

def has (wanted : κ) : Bool :=
  (table.find wanted).isSome

theorem find_eq_some {wanted : κ} {row : ρ} :
    table.find wanted = some row ↔ row ∈ table.rows ∧ key row = wanted := by
  constructor
  · intro found
    exact ⟨List.mem_of_find?_eq_some found, by simpa using List.find?_some found⟩
  · intro ⟨member, same⟩
    rcases found : table.find wanted with _ | other
    · have absent := List.find?_eq_none.mp found row member
      simp [same] at absent
    · have otherMember := List.mem_of_find?_eq_some found
      have otherSame : key other = wanted := by simpa using List.find?_some found
      rw [List.inj_on_of_nodup_map table.distinct otherMember member (otherSame.trans same.symm)]

/-- The row of a key after an update. -/
theorem find_update_map {where' : ρ → Bool} {change : ρ → ρ} (keeps : ∀ row, key (change row) = key row)
    (wanted : κ) : (table.update where' change keeps).find wanted =
      (table.find wanted).map fun row => if where' row then change row else row := by
  unfold find
  rw [rows_update, List.find?_map]
  congr 2
  funext row
  simp only [Function.comp_apply]
  split_ifs
  · rw [keeps]
  · rfl

/-- An update of one key changes the row of that key. -/
theorem find_update (changed : κ) {change : ρ → ρ} (keeps : ∀ row, key (change row) = key row)
    (wanted : κ) : (table.update (fun row => key row = changed) change keeps).find wanted =
      if wanted = changed then (table.find wanted).map change else table.find wanted := by
  unfold find
  rw [rows_update, List.find?_map]
  have same : ((fun row => decide (key row = wanted)) ∘ fun row =>
      if decide (key row = changed) = true then change row else row) =
        fun row => decide (key row = wanted) := by
    funext row
    simp only [Function.comp_apply]
    split_ifs
    · rw [keeps]
    · rfl
  rw [same]
  cases found : table.rows.find? fun row => decide (key row = wanted) with
  | none => simp
  | some row =>
      have here : key row = wanted := by simpa using List.find?_some found
      rw [Option.map_some, Option.map_some, here]
      split_ifs <;> simp_all

theorem has_iff {wanted : κ} : table.has wanted = true ↔ ∃ row ∈ table.rows, key row = wanted := by
  simp only [has, Option.isSome_iff_exists, find_eq_some]

/-- `INSERT`: a row of a taken key violates the constraint. -/
def insert? (row : ρ) : Option (Table key) :=
  if fresh : ∀ other ∈ table.rows, key other ≠ key row then
    some
      { rows := table.rows ++ [row]
        distinct := by
          rw [List.map_append, List.map_singleton]
          refine List.nodup_append'.mpr ⟨table.distinct, List.nodup_singleton _, ?_⟩
          intro other taken same
          obtain ⟨old, member, rfl⟩ := List.mem_map.mp taken
          exact fresh old member (List.mem_singleton.mp same) }
  else none

/-- One `INSERT` after another. -/
def insertAll? (table : Table key) : List ρ → Option (Table key)
  | [] => some table
  | row :: rows => (table.insert? row).bind fun next => next.insertAll? rows

theorem rows_insert? {table next : Table key} {row : ρ} (inserted : table.insert? row = some next) :
    next.rows = table.rows ++ [row] := by
  unfold insert? at inserted
  split at inserted
  · cases inserted
    rfl
  · cases inserted

theorem fresh_of_insert? {table next : Table key} {row : ρ} (inserted : table.insert? row = some next) :
    ∀ other ∈ table.rows, key other ≠ key row := by
  unfold insert? at inserted
  split at inserted
  · assumption
  · cases inserted

theorem rows_insertAll? {table next : Table key} {rows : List ρ}
    (inserted : table.insertAll? rows = some next) : next.rows = table.rows ++ rows := by
  induction rows generalizing table with
  | nil =>
      cases inserted
      simp
  | cons row rows ih =>
      obtain ⟨middle, first, rest⟩ := Option.bind_eq_some_iff.mp inserted
      rw [ih rest, rows_insert? first, List.append_assoc]
      rfl

/-- The row of a key after an insertion. -/
theorem find_insert? {table next : Table key} {row : ρ} (inserted : table.insert? row = some next)
    (wanted : κ) : next.find wanted = if key row = wanted then some row else table.find wanted := by
  split_ifs with same
  · rw [find_eq_some, rows_insert? inserted]
    exact ⟨List.mem_append_right _ (List.mem_singleton_self _), same⟩
  · unfold find
    rw [rows_insert? inserted, List.find?_append]
    simp [same]

/-- An insertion keeps the row of every key that has one. -/
theorem find_of_insert? {table next : Table key} {row old : ρ} {wanted : κ}
    (inserted : table.insert? row = some next) (found : table.find wanted = some old) :
    next.find wanted = some old := by
  rw [find_insert? inserted, if_neg, found]
  intro same
  obtain ⟨member, key'⟩ := table.find_eq_some.mp found
  exact fresh_of_insert? inserted old member (key'.trans same.symm)

theorem find_of_insertAll? {table next : Table key} {rows : List ρ} {old : ρ} {wanted : κ}
    (inserted : table.insertAll? rows = some next) (found : table.find wanted = some old) :
    next.find wanted = some old := by
  induction rows generalizing table with
  | nil =>
      cases inserted
      exact found
  | cons row rows ih =>
      obtain ⟨middle, first, rest⟩ := Option.bind_eq_some_iff.mp inserted
      exact ih rest (find_of_insert? first found)

/-- `INSERT … ON CONFLICT DO UPDATE SET`: a row of the key is changed, or else the row inserted. -/
def upsert (row : ρ) (change : ρ → ρ) (keeps : ∀ old, key (change old) = key old) : Table key :=
  (table.insert? row).getD (table.update (fun old => key old = key row) change keeps)

theorem rows_upsert (row : ρ) (change : ρ → ρ) (keeps : ∀ old, key (change old) = key old) :
    (table.upsert row change keeps).rows =
      if table.has (key row) then table.rows.map fun old => if key old = key row then change old else old
      else table.rows ++ [row] := by
  cases taken : table.has (key row) with
  | false =>
      have fresh : ∀ other ∈ table.rows, key other ≠ key row := by
        intro other member same
        have occupied := table.has_iff.mpr ⟨other, member, same⟩
        simp [taken] at occupied
      simp only [upsert, insert?, dif_pos fresh, Option.getD_some]
      simp
  | true =>
      have occupied : ¬∀ other ∈ table.rows, key other ≠ key row := by
        obtain ⟨old, member, same⟩ := table.has_iff.mp taken
        intro fresh
        exact fresh old member same
      simp only [upsert, insert?, dif_neg occupied, Option.getD_none, rows_update]
      simp

/-- The row of a key after an upsert. -/
theorem find_upsert (row : ρ) (change : ρ → ρ) (keeps : ∀ old, key (change old) = key old)
    (wanted : κ) : (table.upsert row change keeps).find wanted =
      if key row = wanted then some (((table.find wanted).map change).getD row)
      else table.find wanted := by
  split_ifs with same
  · subst same
    rw [find_eq_some, rows_upsert]
    cases found : table.find (key row) with
    | none => simp [has, found]
    | some old =>
        obtain ⟨member, key'⟩ := table.find_eq_some.mp found
        simp only [has, found, Option.isSome_some, if_true, Option.map_some, Option.getD_some]
        exact ⟨List.mem_map.mpr ⟨old, member, by rw [if_pos key']⟩, (keeps old).trans key'⟩
  · ext other
    rw [find_eq_some, find_eq_some, rows_upsert]
    apply and_congr_left
    intro key'
    split_ifs
    · constructor
      · intro member
        obtain ⟨old, among, rfl⟩ := List.mem_map.mp member
        split_ifs at key' ⊢ with here
        · exact absurd (here.symm.trans ((keeps old).symm.trans key')) same
        · exact among
      · intro member
        refine List.mem_map.mpr ⟨other, member, if_neg ?_⟩
        exact fun here => same (here.symm.trans key')
    · have other_ne : other ≠ row := fun equal => same (equal ▸ key')
      simp [other_ne]

/-- Rows that a condition on the key selects, when it does not select the upserted row. -/
theorem filter_upsert {where' : ρ → Bool} (pins : ∀ left right, key left = key right →
      where' left = where' right) {row : ρ} (spared : where' row = false) (change : ρ → ρ)
    (keeps : ∀ old, key (change old) = key old) :
    (table.upsert row change keeps).rows.filter where' = table.rows.filter where' := by
  rw [rows_upsert]
  split_ifs
  · induction table.rows with
    | nil => rfl
    | cons old rows ih =>
        rw [List.map_cons, List.filter_cons, List.filter_cons, ih]
        split_ifs with here <;> simp_all [pins (change old) old (keeps old), pins old row]
  · simp [spared]

/-- An upsert that sets nothing leaves a table with the key as it is. -/
theorem upsert_eq_self (row : ρ) (taken : table.has (key row) = true) :
    table.upsert row id (fun _ => rfl) = table := by
  have occupied : ¬∀ other ∈ table.rows, key other ≠ key row := by
    obtain ⟨old, member, same⟩ := table.has_iff.mp taken
    intro fresh
    exact fresh old member same
  apply ext
  simp [upsert, insert?, occupied]

end Table

end Modelark.Library
