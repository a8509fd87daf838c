import Modelark.Library.JsonLayout
import Modelark.Library.Scalars

/-!
# Reading records

Dictionaries without a key twice, with exactly the keys of a record, and the values of their keys; records of
scalars are read back from what is written of them, in whatever order their keys come.
-/

namespace Modelark.Library

namespace Json

mutual

/-- No dictionary inside has a key twice. -/
def distinct : Json → Bool
  | .arr items => distinctItems items
  | .obj fields => decide (fields.map Prod.fst).Nodup && distinctFields fields
  | _ => true

def distinctItems : List Json → Bool
  | [] => true
  | item :: items => distinct item && distinctItems items

def distinctFields : List (String × Json) → Bool
  | [] => true
  | (_, value) :: fields => distinct value && distinctFields fields

end

theorem distinctItems_iff {items : List Json} :
    distinctItems items = true ↔ ∀ item ∈ items, distinct item = true := by
  induction items with
  | nil => simp [distinctItems]
  | cons item items ih => simp [distinctItems, ih]

theorem distinctFields_iff {fields : List (String × Json)} :
    distinctFields fields = true ↔ ∀ field ∈ fields, distinct field.2 = true := by
  induction fields with
  | nil => simp [distinctFields]
  | cons field fields ih => simp [distinctFields, ih]

theorem distinct_arr {items : List Json} (all : ∀ item ∈ items, distinct item = true) :
    distinct (.arr items) = true :=
  distinctItems_iff.mpr all

theorem distinct_obj {fields : List (String × Json)} (keys : (fields.map Prod.fst).Nodup)
    (all : ∀ field ∈ fields, distinct field.2 = true) : distinct (.obj fields) = true := by
  rw [distinct, Bool.and_eq_true, decide_eq_true_iff, distinctFields_iff]
  exact ⟨keys, all⟩

theorem distinct_dict {fields : List (String × Json)} (keys : (fields.map Prod.fst).Nodup)
    (all : ∀ field ∈ fields, distinct field.2 = true) : distinct (dict fields) = true := by
  apply distinct_obj
  · exact ((sortBy_perm Prod.fst fields).map Prod.fst).nodup_iff.mpr keys
  · exact fun field member => all field (mem_sortBy.mp member)

/-- A dictionary with these keys and no others. -/
def hasKeys (names : List String) : Json → Bool
  | .obj fields => fields.all (fun field => names.contains field.1) &&
      names.all fun name => fields.any fun field => field.1 == name
  | _ => false

theorem hasKeys_obj {names : List String} {fields : List (String × Json)}
    (same : (fields.map Prod.fst).Perm names) : hasKeys names (.obj fields) = true := by
  rw [hasKeys, Bool.and_eq_true, List.all_eq_true, List.all_eq_true]
  constructor
  · intro field member
    exact List.contains_iff_mem.mpr (same.mem_iff.mp (List.mem_map_of_mem member))
  · intro name listed
    obtain ⟨field, member, rfl⟩ := List.mem_map.mp (same.mem_iff.mpr listed)
    exact List.any_eq_true.mpr ⟨field, member, beq_self_eq_true _⟩

theorem hasKeys_dict {names : List String} {fields : List (String × Json)}
    (same : fields.map Prod.fst = names) : hasKeys names (dict fields) = true :=
  hasKeys_obj (same ▸ (sortBy_perm Prod.fst fields).map Prod.fst)

theorem get?_dict_eq {fields : List (String × Json)} (keys : (fields.map Prod.fst).Nodup) (key : String) :
    get? key (dict fields) = (fields.find? fun field => field.1 == key).map Prod.snd := by
  cases found : fields.find? fun field => field.1 == key with
  | some field =>
      have same : field.1 = key := by simpa using List.find?_some found
      exact same ▸ get?_dict keys (List.mem_of_find?_eq_some found)
  | none =>
      have absent : (sortBy Prod.fst fields).find? (fun field => field.1 == key) = none := by
        rw [List.find?_eq_none] at found ⊢
        exact fun field member => found field (mem_sortBy.mp member)
      simp only [get?, dict, absent, Option.map_none]

mutual

/-- The length of the text of a value, without the text. -/
def size : Json → Nat
  | .null => 4
  | .bool true => 4
  | .bool false => 5
  | .int value => (renderInt value).length
  | .str text => (renderText text).length
  | .arr [] => 2
  | .arr (item :: items) => size item + sizeItems items + 1
  | .obj [] => 2
  | .obj ((key, value) :: fields) => (renderText key).length + (size value + sizeFields fields + 1) + 1

def sizeItems : List Json → Nat
  | [] => 1
  | item :: items => size item + sizeItems items + 1

def sizeFields : List (String × Json) → Nat
  | [] => 1
  | (key, value) :: fields => (renderText key).length + (size value + sizeFields fields + 1) + 1

end

mutual

theorem length_render (value : Json) : value.render.length = value.size := by
  match value with
  | .null => rfl
  | .bool true => rfl
  | .bool false => rfl
  | .int value => rfl
  | .str text => rfl
  | .arr [] => rfl
  | .arr (item :: items) => simp [render, size, length_render item, length_renderItems items]
  | .obj [] => rfl
  | .obj ((key, value) :: fields) => simp [render, size, length_render value, length_renderFields fields]

theorem length_renderItems (items : List Json) : (renderItems items).length = sizeItems items := by
  match items with
  | [] => rfl
  | item :: items => simp [renderItems, sizeItems, length_render item, length_renderItems items]

theorem length_renderFields (fields : List (String × Json)) :
    (renderFields fields).length = sizeFields fields := by
  match fields with
  | [] => rfl
  | (key, value) :: fields => simp [renderFields, sizeFields, length_render value, length_renderFields fields]

end

theorem length_dumps (value : Json) : value.dumps.length = value.size := by
  rw [dumps, String.length_ofList, length_render]

end Json

/-- A record whose fields can be read from the values of their names. -/
class ReadableRecord (α : Type) [Record α] where
  names : List String
  named : ∀ record : α, (Record.fields record).map Prod.fst = names
  distinct : names.Nodup
  read : (String → Option Scalar) → Option α
  reads : ∀ (record : α) (value : String → Option Scalar),
    (∀ field ∈ Record.fields record, value field.1 = some field.2) → read value = some record

namespace Scalar

/-- The scalar that a value is. -/
def ofJson? : Json → Option Scalar
  | .null => some .null
  | .bool value => some (.bool value)
  | .int value => some (.int value)
  | .str text => some (.str text)
  | _ => none

@[simp] theorem ofJson?_json (value : Scalar) : ofJson? value.json = some value := by
  cases value <;> rfl

@[simp] theorem distinct_json (value : Scalar) : value.json.distinct = true := by
  cases value <;> rfl

end Scalar

namespace Record

variable {α : Type} [Record α] [ReadableRecord α]

/-- `Class(**record)`, where some fields have defaults. -/
def ofJson? (defaults : List (String × Scalar)) (record : Json) : Option α :=
  match record with
  | .obj fields =>
      if fields.all fun field => (ReadableRecord.names α).contains field.1 then
        ReadableRecord.read fun name =>
          match record.get? name with
          | some value => Scalar.ofJson? value
          | none => (defaults.find? (·.1 == name)).map Prod.snd
      else none
  | _ => none

theorem hasKeys_json (record : α) : (json record).hasKeys (ReadableRecord.names α) = true := by
  apply Json.hasKeys_obj
  rw [List.map_map, ← ReadableRecord.named record]
  exact .of_eq (List.map_congr_left fun _ _ => rfl)

theorem keys_json (record : α) :
    ((fields record).map (Prod.map id Scalar.json)).map Prod.fst = ReadableRecord.names α := by
  rw [List.map_map, ← ReadableRecord.named record]
  exact List.map_congr_left fun _ _ => rfl

theorem distinct_json (record : α) : (json record).distinct = true := by
  apply Json.distinct_obj
  · rw [keys_json]
    exact ReadableRecord.distinct
  · intro field member
    obtain ⟨source, _, rfl⟩ := List.mem_map.mp member
    exact Scalar.distinct_json _

/-- A record is read back from what is written of it. -/
theorem ofJson?_json (defaults : List (String × Scalar)) (record : α) :
    ofJson? defaults (json record) = some record := by
  have known : ((fields record).map (Prod.map id Scalar.json)).all
      (fun field => (ReadableRecord.names α).contains field.1) = true := by
    rw [List.all_eq_true]
    intro field member
    rw [List.contains_iff_mem, ← keys_json record]
    exact List.mem_map_of_mem member
  unfold ofJson? json
  dsimp only
  rw [if_pos known]
  apply ReadableRecord.reads
  intro field member
  have found : Json.get? field.1 (.obj ((fields record).map (Prod.map id Scalar.json))) =
      some field.2.json := by
    apply Json.get?_obj
    · rw [keys_json]
      exact ReadableRecord.distinct
    · exact List.mem_map.mpr ⟨field, member, rfl⟩
  rw [found]
  exact Scalar.ofJson?_json _

end Record

end Modelark.Library
