import Modelark.Library.Json

/-!
# Records of scalars

Values whose type is known only when they are looked at, records of such values, and tuples of records in the
order of their canonical texts. A tuple depends on its records only up to their order.
-/

namespace Modelark.Library

/-- A text, a number, a boolean or nothing. -/
inductive Scalar where
  | null
  | bool (value : Bool)
  | int (value : Int)
  | str (text : String)
  deriving Repr, DecidableEq

namespace Scalar

def json : Scalar → Json
  | .null => .null
  | .bool value => .bool value
  | .int value => .int value
  | .str text => .str text

theorem json_injective : Function.Injective json := by
  intro left right same
  cases left <;> cases right <;> simp_all [json]

/-- What equality sees: a boolean is a number. -/
def plain : Scalar → Scalar
  | .bool value => .int value.toInt
  | value => value

/-- `str(value)`. -/
def text : Scalar → String
  | .null => "None"
  | .bool value => if value then "True" else "False"
  | .int value => String.ofList (Json.renderInt value)
  | .str text => text

def truthy : Scalar → Bool
  | .null => false
  | .bool value => value
  | .int value => value != 0
  | .str text => text != ""

def str? : Scalar → Option String
  | .str text => some text
  | _ => none

/-- Whether `<` is defined. -/
def comparable (left right : Scalar) : Bool :=
  match left.plain, right.plain with
  | .int _, .int _ => true
  | .str _, .str _ => true
  | _, _ => false

/-- The place of a scalar among those comparable with it. -/
def rank (value : Scalar) : Int ×ₗ String :=
  match value.plain with
  | .int value => toLex (value, "")
  | .str text => toLex (0, text)
  | _ => toLex (0, "")

end Scalar

section Tuples

/-- Whether `<` of two tuples is defined: it compares the first values that differ. -/
def comparableTuples : List Scalar → List Scalar → Bool
  | left :: lefts, right :: rights =>
      if left.plain = right.plain then comparableTuples lefts rights else left.comparable right
  | _, _ => true

def rankTuple (tuple : List Scalar) : List (Int ×ₗ String) :=
  tuple.map Scalar.rank

/-- `sorted(…, key=…)`, when every two keys can be compared. -/
def sortedByTuple {α : Type*} (key : α → List Scalar) (items : List α) : Option (List α) :=
  if items.Pairwise fun left right => comparableTuples (key left) (key right) = true then
    some (sortBy (fun item => rankTuple (key item)) items)
  else none

theorem sortedByTuple_perm {α : Type*} {key : α → List Scalar} {items sorted : List α}
    (found : sortedByTuple key items = some sorted) : sorted.Perm items := by
  unfold sortedByTuple at found
  split at found
  · cases found
    exact sortBy_perm _ items
  · cases found

theorem sortedByTuple_map {α β : Type*} (f : α → β) (key : β → List Scalar) (items : List α) :
    sortedByTuple key (items.map f) = (sortedByTuple (fun item => key (f item)) items).map (List.map f) := by
  unfold sortedByTuple
  simp only [List.pairwise_map]
  split
  · exact congrArg some (sortBy_map f (fun item => rankTuple (key item)) items).symm
  · rfl

end Tuples

/-- A record of scalars, with its fields in the order of their names. -/
class Record (α : Type) where
  fields : α → List (String × Scalar)
  injective : Function.Injective fields

namespace Record

variable {α : Type} [Record α]

/-- `asdict(…)`, as it is written with sorted keys. -/
def json (record : α) : Json :=
  .obj ((fields record).map (Prod.map id Scalar.json))

def text (record : α) : String :=
  (json record).dumps

theorem json_injective : Function.Injective (json : α → Json) := by
  intro left right same
  have values := List.map_injective_iff.mpr (Function.injective_id.prodMap Scalar.json_injective)
    (Json.obj.inj same)
  exact injective values

theorem text_injective : Function.Injective (text : α → String) :=
  Json.dumps_injective.comp json_injective

end Record

/-- A tuple of records in the order of their texts. -/
structure Rows (α : Type) [Record α] where
  items : List α
  sorted : items.Pairwise fun left right => Record.text left ≤ Record.text right

namespace Rows

variable {α : Type} [Record α]

def of (items : List α) : Rows α :=
  ⟨sortBy Record.text items, pairwise_sortBy _ items⟩

def filter (keep : α → Bool) (rows : Rows α) : Rows α :=
  of (rows.items.filter keep)

@[simp] theorem mem_of {items : List α} {item : α} : item ∈ (of items).items ↔ item ∈ items :=
  mem_sortBy

@[simp] theorem mem_filter {keep : α → Bool} {rows : Rows α} {item : α} :
    item ∈ (rows.filter keep).items ↔ item ∈ rows.items ∧ keep item = true := by
  rw [filter, mem_of, List.mem_filter]

/-- Tuples with the same records are the same. -/
theorem ext_perm {left right : Rows α} (same : left.items.Perm right.items) : left = right := by
  have items : left.items = right.items := same.eq_of_pairwise
    (fun _ _ _ _ below above => Record.text_injective (le_antisymm below above)) left.sorted right.sorted
  cases left
  cases right
  congr

/-- The order in which records are supplied does not matter. -/
theorem of_perm {items others : List α} (same : items.Perm others) : of items = of others :=
  ext_perm ((sortBy_perm _ items).trans (same.trans (sortBy_perm _ others).symm))

end Rows

end Modelark.Library
