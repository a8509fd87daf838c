import Modelark.Library.Json

/-!
# JSON over several lines

The text with one item to a line that a serializer writes for a JSON value, which is read back like the
compact one, and values whose dictionaries are in the order of their keys.
-/

namespace Modelark.Library.Json

/-- A new line, indented by two blanks for each level. -/
def newline (depth : Nat) : List Char :=
  '\n' :: List.replicate (2 * depth) ' '

mutual

def layout (depth : Nat) : Json → List Char
  | .arr (item :: items) =>
      '[' :: (newline (depth + 1) ++ (layout (depth + 1) item ++ layoutItems depth items))
  | .obj ((key, value) :: fields) =>
      '\x7b' :: (newline (depth + 1) ++
        (renderText key ++ ':' :: ' ' :: (layout (depth + 1) value ++ layoutFields depth fields)))
  | .arr [] => ['[', ']']
  | .obj [] => ['\x7b', '\x7d']
  | .null => render .null
  | .bool value => render (.bool value)
  | .int value => renderInt value
  | .str text => renderText text

/-- The rest of an array after its first item. -/
def layoutItems (depth : Nat) : List Json → List Char
  | [] => newline depth ++ [']']
  | item :: items =>
      ',' :: (newline (depth + 1) ++ (layout (depth + 1) item ++ layoutItems depth items))

/-- The rest of a dictionary after its first field. -/
def layoutFields (depth : Nat) : List (String × Json) → List Char
  | [] => newline depth ++ ['\x7d']
  | (key, value) :: fields =>
      ',' :: (newline (depth + 1) ++
        (renderText key ++ ':' :: ' ' :: (layout (depth + 1) value ++ layoutFields depth fields)))

end

/-- `json.dumps(…, indent=2)`. -/
def pretty (value : Json) : String :=
  String.ofList (layout 0 value)

theorem skip_newline (depth : Nat) (rest : List Char) : skip (newline depth ++ rest) = skip rest := by
  have blanks (count : Nat) : skip (List.replicate count ' ' ++ rest) = skip rest := by
    induction count with
    | zero => rfl
    | succ count ih =>
        rw [List.replicate_succ, List.cons_append, skip, List.dropWhile_cons_of_pos (by decide)]
        exact ih
  rw [newline, List.cons_append, skip, List.dropWhile_cons_of_pos (by decide)]
  exact blanks _

theorem parseValue_newline (fuel depth : Nat) (rest : List Char) :
    parseValue fuel (newline depth ++ rest) = parseValue fuel rest := by
  cases fuel with
  | zero => simp only [parseValue]
  | succ fuel => simp only [parseValue, skip_newline]

theorem parseItems_newline (fuel depth : Nat) (rest : List Char) :
    parseItems fuel (newline depth ++ rest) = parseItems fuel rest := by
  cases fuel with
  | zero => simp only [parseItems]
  | succ fuel => simp only [parseItems, skip_newline]

theorem parseFields_newline (fuel depth : Nat) (rest : List Char) :
    parseFields fuel (newline depth ++ rest) = parseFields fuel rest := by
  cases fuel with
  | zero => simp only [parseFields]
  | succ fuel => simp only [parseFields, skip_newline]

theorem parseKey_newline (fuel depth : Nat) (rest : List Char) :
    parseKey fuel (newline depth ++ rest) = parseKey fuel rest := by
  simp only [parseKey, skip_newline]

theorem parseValue_blank (fuel : Nat) (rest : List Char) :
    parseValue fuel (' ' :: rest) = parseValue fuel rest := by
  have same : skip (' ' :: rest) = skip rest := by
    rw [skip, List.dropWhile_cons_of_pos (by decide)]
    rfl
  cases fuel with
  | zero => simp only [parseValue]
  | succ fuel => simp only [parseValue, same]

theorem ends_layoutItems (depth : Nat) (items : List Json) (rest : List Char) :
    Ends (layoutItems depth items ++ rest) := by
  cases items <;> simp [layoutItems, newline, Ends]

theorem ends_layoutFields (depth : Nat) (fields : List (String × Json)) (rest : List Char) :
    Ends (layoutFields depth fields ++ rest) := by
  cases fields <;> simp [layoutFields, newline, Ends]

/-- A value starts with a character that is neither blank nor the end of an array. -/
theorem head_layout (depth : Nat) (value : Json) :
    ∃ c rest, layout depth value = c :: rest ∧ isBlank c = false ∧ c ≠ ']' := by
  rcases value with _ | (_ | _) | n | text | (_ | ⟨item, items⟩) | (_ | ⟨⟨key, value⟩, fields⟩)
  case int =>
    have head := head_render (.int n)
    rwa [render] at head
  all_goals
    simp only [layout, render, renderText]
    exact ⟨_, _, rfl, by decide, by decide⟩

mutual

theorem parseValue_layout (depth : Nat) (value : Json) {fuel : Nat} {rest : List Char}
    (enough : (layout depth value).length < fuel) (ends : Ends rest) :
    parseValue fuel (layout depth value ++ rest) = some (value, rest) := by
  match value with
  | .null =>
      simp only [layout] at enough ⊢
      exact parseValue_render .null enough ends
  | .bool flag =>
      simp only [layout] at enough ⊢
      exact parseValue_render (.bool flag) enough ends
  | .int n =>
      simp only [layout] at enough ⊢
      have read := @parseValue_render (.int n) fuel rest
      simp only [render] at read
      exact read enough ends
  | .str text =>
      simp only [layout] at enough ⊢
      have read := @parseValue_render (.str text) fuel rest
      simp only [render] at read
      exact read enough ends
  | .arr [] =>
      simp only [layout] at enough ⊢
      have read := @parseValue_render (.arr []) fuel rest
      simp only [render] at read
      exact read enough ends
  | .obj [] =>
      simp only [layout] at enough ⊢
      have read := @parseValue_render (.obj []) fuel rest
      simp only [render] at read
      exact read enough ends
  | .arr (item :: items) =>
      obtain ⟨fuel, rfl⟩ := Nat.exists_eq_succ_of_ne_zero (Nat.ne_of_gt (Nat.zero_lt_of_lt enough))
      simp only [layout, List.length_cons, List.length_append] at enough
      obtain ⟨c, chars, same, solid, inside⟩ := head_layout (depth + 1) item
      have first := @parseValue_layout (depth + 1) item fuel (layoutItems depth items ++ rest) (by omega)
        (ends_layoutItems depth items rest)
      have others := @parseItems_layout depth items fuel rest (by omega)
      have more : (skip (layout (depth + 1) item ++ (layoutItems depth items ++ rest))).head? ≠
          some ']' := by
        rw [same, List.cons_append, skip_cons solid]
        simpa using inside
      simp [layout, parseValue, skip_cons, isBlank, quote, skip_newline, parseValue_newline, more, first,
        others]
  | .obj ((key, value) :: fields) =>
      obtain ⟨fuel, rfl⟩ := Nat.exists_eq_succ_of_ne_zero (Nat.ne_of_gt (Nat.zero_lt_of_lt enough))
      simp only [layout, List.length_cons, List.length_append] at enough
      have named := @parseKey_renderText fuel key (by omega)
        (' ' :: (layout (depth + 1) value ++ (layoutFields depth fields ++ rest)))
      have first := @parseValue_layout (depth + 1) value fuel (layoutFields depth fields ++ rest) (by omega)
        (ends_layoutFields depth fields rest)
      have others := @parseFields_layout depth fields fuel rest (by omega)
      have more : (skip (renderText key ++ ':' :: ' ' :: (layout (depth + 1) value ++
          (layoutFields depth fields ++ rest)))).head? ≠ some '\x7d' := by
        rw [renderText, List.cons_append, skip_cons (by decide)]
        simp [quote]
      simp [layout, parseValue, skip_cons, isBlank, quote, skip_newline, parseKey_newline,
        parseValue_blank, more, named, first, others]

theorem parseItems_layout (depth : Nat) (items : List Json) {fuel : Nat} {rest : List Char}
    (enough : (layoutItems depth items).length < fuel) :
    parseItems fuel (layoutItems depth items ++ rest) = some (items, rest) := by
  obtain ⟨fuel, rfl⟩ := Nat.exists_eq_succ_of_ne_zero (Nat.ne_of_gt (Nat.zero_lt_of_lt enough))
  match items with
  | [] =>
      rw [layoutItems, List.append_assoc, parseItems_newline]
      simp [parseItems, skip_cons, isBlank]
  | item :: items =>
      simp only [layoutItems, List.length_cons, List.length_append] at enough
      have first := @parseValue_layout (depth + 1) item fuel (layoutItems depth items ++ rest) (by omega)
        (ends_layoutItems depth items rest)
      have others := @parseItems_layout depth items fuel rest (by omega)
      simp [layoutItems, parseItems, skip_cons, isBlank, parseValue_newline, first, others]

theorem parseFields_layout (depth : Nat) (fields : List (String × Json)) {fuel : Nat} {rest : List Char}
    (enough : (layoutFields depth fields).length < fuel) :
    parseFields fuel (layoutFields depth fields ++ rest) = some (fields, rest) := by
  obtain ⟨fuel, rfl⟩ := Nat.exists_eq_succ_of_ne_zero (Nat.ne_of_gt (Nat.zero_lt_of_lt enough))
  match fields with
  | [] =>
      rw [layoutFields, List.append_assoc, parseFields_newline]
      simp [parseFields, skip_cons, isBlank]
  | (key, value) :: fields =>
      simp only [layoutFields, List.length_cons, List.length_append] at enough
      have named := @parseKey_renderText fuel key (by omega)
        (' ' :: (layout (depth + 1) value ++ (layoutFields depth fields ++ rest)))
      have first := @parseValue_layout (depth + 1) value fuel (layoutFields depth fields ++ rest) (by omega)
        (ends_layoutFields depth fields rest)
      have others := @parseFields_layout depth fields fuel rest (by omega)
      simp [layoutFields, parseFields, skip_cons, isBlank, parseKey_newline, parseValue_blank, named, first,
        others]

end

/-- `json.loads` reads what `json.dumps` wrote over several lines, also with a line break after it. -/
theorem loads_pretty (value : Json) : loads (value.pretty ++ "\n") = some value := by
  have read : parseValue ((layout 0 value ++ ['\n']).length + 1) (layout 0 value ++ ['\n']) =
      some (value, ['\n']) := by
    apply parseValue_layout
    · simp only [List.length_append, List.length_singleton]
      omega
    · simp [Ends]
  have chars : (value.pretty ++ "\n").toList = layout 0 value ++ ['\n'] := by
    simp only [pretty, String.toList_append, String.toList_ofList]
    rfl
  have blank : skip ['\n'] = [] := rfl
  rw [loads, ← String.length_toList, chars, read]
  simp only [Option.bind_eq_bind, Option.bind_some, blank, guard_true, Option.pure_def]

mutual

/-- `sort_keys`. -/
def sortKeys : Json → Json
  | .arr items => .arr (sortItems items)
  | .obj fields => .obj (sortBy Prod.fst (sortFields fields))
  | .null => .null
  | .bool value => .bool value
  | .int value => .int value
  | .str text => .str text

def sortItems : List Json → List Json
  | [] => []
  | item :: items => sortKeys item :: sortItems items

def sortFields : List (String × Json) → List (String × Json)
  | [] => []
  | (key, value) :: fields => (key, sortKeys value) :: sortFields fields

end

theorem sortItems_of_sorted {items : List Json} (sorted : ∀ item ∈ items, sortKeys item = item) :
    sortItems items = items := by
  induction items with
  | nil => rw [sortItems]
  | cons item items ih =>
      rw [sortItems, sorted item List.mem_cons_self,
        ih fun item member => sorted item (List.mem_cons_of_mem _ member)]

theorem sortFields_of_sorted {fields : List (String × Json)}
    (sorted : ∀ field ∈ fields, sortKeys field.2 = field.2) : sortFields fields = fields := by
  induction fields with
  | nil => rw [sortFields]
  | cons field fields ih =>
      rw [sortFields, sorted field List.mem_cons_self,
        ih fun field member => sorted field (List.mem_cons_of_mem _ member)]

/-- The keys of a dictionary of values in order are put in order. -/
theorem sortKeys_obj {fields : List (String × Json)}
    (sorted : ∀ field ∈ fields, sortKeys field.2 = field.2) : sortKeys (.obj fields) = dict fields := by
  rw [sortKeys, sortFields_of_sorted sorted, dict]

theorem sortKeys_dict {fields : List (String × Json)}
    (sorted : ∀ field ∈ fields, sortKeys field.2 = field.2) : sortKeys (dict fields) = dict fields := by
  have among : ∀ field ∈ sortBy Prod.fst fields, sortKeys field.2 = field.2 :=
    fun field member => sorted field (mem_sortBy.mp member)
  rw [dict, sortKeys_obj among, dict, sortBy_of_pairwise (pairwise_sortBy _ _)]

theorem sortKeys_arr {items : List Json} (sorted : ∀ item ∈ items, sortKeys item = item) :
    sortKeys (.arr items) = .arr items := by
  rw [sortKeys, sortItems_of_sorted sorted]

@[simp] theorem sortKeys_ofText (text : Option String) : sortKeys (ofText text) = ofText text := by
  cases text <;> rfl

@[simp] theorem sortKeys_ofInt (value : Option Int) : sortKeys (ofInt value) = ofInt value := by
  cases value <;> rfl

/-- The value of a key. -/
def get? (key : String) : Json → Option Json
  | .obj fields => (fields.find? (·.1 == key)).map Prod.snd
  | _ => none

theorem get?_obj {fields : List (String × Json)} (distinct : (fields.map Prod.fst).Nodup) {key : String}
    {value : Json} (member : (key, value) ∈ fields) : get? key (.obj fields) = some value := by
  induction fields with
  | nil => cases member
  | cons field fields ih =>
      obtain ⟨fresh, distinct⟩ := List.nodup_cons.mp distinct
      rcases List.mem_cons.mp member with rfl | later
      · simp [get?]
      · have apart : (field.1 == key) = false := by
          rw [beq_eq_false_iff_ne]
          intro same
          exact fresh (List.mem_map.mpr ⟨(key, value), later, same.symm⟩)
        have rest := ih distinct later
        simp only [get?] at rest ⊢
        rw [List.find?_cons, apart]
        exact rest

theorem get?_dict {fields : List (String × Json)} (distinct : (fields.map Prod.fst).Nodup) {key : String}
    {value : Json} (member : (key, value) ∈ fields) : get? key (dict fields) = some value :=
  get?_obj (((sortBy_perm Prod.fst fields).map Prod.fst).nodup_iff.mpr distinct) (mem_sortBy.mpr member)

/-- The selected fields of a dictionary are a dictionary in order. -/
theorem filter_dict {fields : List (String × Json)} (distinct : (fields.map Prod.fst).Nodup)
    (selected : String × Json → Bool) :
    (sortBy Prod.fst fields).filter selected = sortBy Prod.fst (fields.filter selected) := by
  have ordered : ((sortBy Prod.fst fields).filter selected).Pairwise fun a b => a.1 ≤ b.1 :=
    (pairwise_sortBy Prod.fst fields).filter selected
  rw [← sortBy_of_pairwise ordered]
  apply sortBy_eq_of_perm ((sortBy_perm Prod.fst fields).filter selected)
  intro one first other second same
  have inside {field : String × Json} (member : field ∈ (sortBy Prod.fst fields).filter selected) :
      field ∈ fields := mem_sortBy.mp (List.mem_filter.mp member).1
  exact List.inj_on_of_nodup_map distinct (inside first) (inside second) same

end Modelark.Library.Json
