import Modelark.Library.JsonRecords

/-!
# Sizes of JSON texts

How long the text of a value is: sums over the fields of a dictionary and the items of a list, whatever their
order. A part that gets no longer makes no value longer.
-/

namespace Modelark.Library.Json

/-- The length of a text between its quotes. -/
def escaped (text : String) : Nat :=
  (text.toList.flatMap escape).length

theorem size_str (text : String) : (str text).size = escaped text + 2 := by
  simp [size, renderText, escaped]

@[simp] theorem escaped_append (left right : String) : escaped (left ++ right) = escaped left + escaped right := by
  simp [escaped]

theorem length_le_escaped (text : String) : text.length ≤ escaped text := by
  rw [← String.length_toList]
  exact length_le_escape text.toList

/-- A character that is written as it is. -/
def Plain (c : Char) : Prop := escape c = [c]

instance (c : Char) : Decidable (Plain c) := inferInstanceAs (Decidable (escape c = [c]))

theorem escaped_of_plain {text : String} (plain : ∀ c ∈ text.toList, Plain c) : escaped text = text.length := by
  have flat : ∀ chars : List Char, (∀ c ∈ chars, Plain c) → chars.flatMap escape = chars := by
    intro chars all
    induction chars with
    | nil => rfl
    | cons c chars ih =>
        have first : escape c = [c] := all c List.mem_cons_self
        rw [List.flatMap_cons, first, ih fun other member => all other (List.mem_cons_of_mem c member)]
        rfl
  rw [escaped, flat text.toList plain, String.length_toList]

/-- Printable ASCII characters other than the quote and the backslash. -/
theorem plain_of_range {c : Char} (low : ' ' ≤ c) (high : c ≤ '~') (unquoted : c ≠ quote)
    (unslashed : c ≠ backslash) : Plain c := by
  have short : shortEscapes.find? (·.1 == c) = none := by
    rw [List.find?_eq_none]
    intro entry listed same
    rw [beq_iff_eq] at same
    subst same
    simp only [shortEscapes, List.mem_cons, List.not_mem_nil, or_false] at listed
    rcases listed with rfl | rfl | rfl | rfl | rfl | rfl | rfl
    · exact unquoted rfl
    · exact unslashed rfl
    all_goals revert low; decide
  rw [Plain, escape, short]
  exact if_pos ⟨low, high⟩

/-- A character is read off its code, without the table of escapes. -/
def printable (c : Char) : Bool :=
  Nat.ble 32 c.toNat && Nat.ble c.toNat 126 && c.toNat != 34 && c.toNat != 92

theorem plain_of_printable {c : Char} (printed : printable c = true) : Plain c := by
  have values : ' '.val.toNat = 32 ∧ 126 = '~'.val.toNat ∧ quote.toNat = 34 ∧ backslash.toNat = 92 := by decide
  simp only [printable, Bool.and_eq_true, bne_iff_ne, Nat.ble_eq] at printed
  obtain ⟨⟨⟨low, high⟩, unquoted⟩, unslashed⟩ := printed
  apply plain_of_range
  · rw [Char.le_def, UInt32.le_iff_toNat_le]
    exact values.1.trans_le low
  · rw [Char.le_def, UInt32.le_iff_toNat_le]
    exact high.trans_eq values.2.1
  · rintro rfl
    exact unquoted values.2.2.1
  · rintro rfl
    exact unslashed values.2.2.2

/-- The length of a literal, whose characters are at hand. -/
theorem escaped_literal {chars : List Char} {length : Nat}
    (counted : (chars.all printable && chars.length == length) = true) : escaped (String.ofList chars) = length := by
  rw [Bool.and_eq_true, beq_iff_eq, List.all_eq_true] at counted
  rw [escaped_of_plain, String.length_ofList, counted.2]
  intro c member
  exact plain_of_printable (counted.1 c (by simpa using member))

theorem size_int (n : Nat) : (int n).size = (Nat.toDigits 10 n).length := rfl

theorem one_le_size_int (value : Int) : 1 ≤ (int value).size := by
  cases value with
  | ofNat n =>
      obtain ⟨c, rest, digits, _⟩ := head_toDigits n
      show 1 ≤ (Nat.toDigits 10 n).length
      rw [digits]
      simp
  | negSucc n =>
      show 1 ≤ ('-' :: Nat.toDigits 10 (n + 1)).length
      simp

theorem one_le_size (value : Json) : 1 ≤ value.size := by
  cases value with
  | null => simp [size]
  | bool value => cases value <;> simp [size]
  | int value => exact one_le_size_int value
  | str text => rw [size_str]; omega
  | arr items => cases items <;> simp [size]
  | obj fields => cases fields <;> simp [size]

/-- A number below a power of ten has no more digits than the power. -/
theorem size_int_le {n digits : Nat} (some' : 0 < digits) (small : n < 10 ^ digits) : (int n).size ≤ digits := by
  rw [size_int, Nat.length_toDigits_le_iff (by omega) some']
  exact small

def sumItems (items : List Json) : Nat :=
  (items.map fun item => item.size + 1).sum

def sumFields (fields : List (String × Json)) : Nat :=
  (fields.map fun field => escaped field.1 + field.2.size + 4).sum

@[simp] theorem sumItems_nil : sumItems [] = 0 := rfl

@[simp] theorem sumItems_cons (item : Json) (items : List Json) :
    sumItems (item :: items) = item.size + 1 + sumItems items := rfl

@[simp] theorem sumFields_nil : sumFields [] = 0 := rfl

@[simp] theorem sumFields_cons (key : String) (value : Json) (fields : List (String × Json)) :
    sumFields ((key, value) :: fields) = escaped key + value.size + 4 + sumFields fields := by
  -- Not `rfl`, for which the kernel would compute the lengths of literals.
  rw [sumFields, List.map_cons, List.sum_cons]
  rfl

@[simp] theorem sumFields_append (left right : List (String × Json)) :
    sumFields (left ++ right) = sumFields left + sumFields right := by
  simp [sumFields]

theorem sumFields_perm {left right : List (String × Json)} (same : left.Perm right) :
    sumFields left = sumFields right :=
  (same.map _).sum_nat

theorem sizeItems_eq (items : List Json) : sizeItems items = 1 + sumItems items := by
  induction items with
  | nil => rfl
  | cons item items ih =>
      rw [sizeItems, ih, sumItems_cons]
      omega

theorem sizeFields_eq (fields : List (String × Json)) : sizeFields fields = 1 + sumFields fields := by
  induction fields with
  | nil => rfl
  | cons field fields ih =>
      obtain ⟨key, value⟩ := field
      have quoted := size_str key
      simp only [size] at quoted
      rw [sizeFields, ih, sumFields_cons, quoted]
      omega

theorem size_arr {items : List Json} (some' : items ≠ []) : (arr items).size = 1 + sumItems items := by
  cases items with
  | nil => exact absurd rfl some'
  | cons item items =>
      rw [size, sizeItems_eq, sumItems_cons]
      omega

/-- An empty list has two brackets and no comma. -/
theorem size_arr_bounds (items : List Json) :
    1 + sumItems items ≤ (arr items).size ∧ (arr items).size ≤ 2 + sumItems items := by
  cases items with
  | nil => simp [size]
  | cons item items =>
      rw [size_arr (by simp)]
      omega

theorem size_obj {fields : List (String × Json)} (some' : fields ≠ []) : (obj fields).size = 1 + sumFields fields := by
  cases fields with
  | nil => exact absurd rfl some'
  | cons field fields =>
      obtain ⟨key, value⟩ := field
      have quoted := size_str key
      simp only [size] at quoted
      rw [size, sizeFields_eq, sumFields_cons, quoted]
      omega

/-- The order of the fields does not matter. -/
theorem size_dict {fields : List (String × Json)} (some' : fields ≠ []) : (dict fields).size = 1 + sumFields fields := by
  have perm := sortBy_perm Prod.fst fields
  rw [dict, size_obj fun empty => some' (List.Perm.nil_eq (empty ▸ perm)).symm, sumFields_perm perm]

/-- A member of a list is shorter than the list. -/
theorem size_lt_sumItems {items : List Json} {item : Json} (member : item ∈ items) : item.size < sumItems items := by
  induction items with
  | nil => cases member
  | cons other items ih =>
      rw [sumItems_cons]
      rcases List.mem_cons.mp member with rfl | member
      · omega
      · have := ih member
        omega

theorem sumItems_le_of_forall₂ {items others : List Json}
    (shorter : List.Forall₂ (fun item other => item.size ≤ other.size) items others) :
    sumItems items ≤ sumItems others := by
  induction shorter with
  | nil => rfl
  | cons first _ ih =>
      simp only [sumItems_cons]
      omega

theorem size_arr_le_of_forall₂ {items others : List Json}
    (shorter : List.Forall₂ (fun item other => item.size ≤ other.size) items others) :
    (arr items).size ≤ (arr others).size := by
  have sums := sumItems_le_of_forall₂ shorter
  cases shorter with
  | nil => rfl
  | cons => rwa [size_arr (by simp), size_arr (by simp), Nat.add_le_add_iff_left]

/-- The least that the fields of these names take. -/
def sumNames (names : List String) : Nat :=
  (names.map fun name => escaped name + 5).sum

@[simp] theorem sumNames_cons (name : String) (names : List String) :
    sumNames (name :: names) = escaped name + 5 + sumNames names := rfl

/-- One literal of a list is added to those before it. -/
theorem sumNames_literal {chars : List Char} {names : List String} {before total : Nat}
    (printed : chars.all printable = true) (rest : before + (chars.length + 5) + sumNames names = total) :
    before + sumNames (String.ofList chars :: names) = total := by
  have first : escaped (String.ofList chars) = chars.length := escaped_literal (by simp [printed])
  rw [sumNames_cons, first]
  omega

theorem sumNames_le (fields : List (String × Json)) : sumNames (fields.map Prod.fst) ≤ sumFields fields := by
  induction fields with
  | nil => rfl
  | cons field fields ih =>
      obtain ⟨name, value⟩ := field
      have some' := one_le_size value
      simp only [List.map_cons, sumNames, List.sum_cons, sumFields_cons] at ih ⊢
      omega

end Modelark.Library.Json
