import Modelark.Library.Sorting

/-!
# JSON

JSON values without fractional numbers, the compact ASCII text that a serializer writes for them, and
the parser that reads such texts. What is written is read back; so two values have the same text only
if they are equal.
-/

namespace Modelark.Library

inductive Json where
  | null
  | bool (value : Bool)
  | int (value : Int)
  | str (text : String)
  | arr (items : List Json)
  | obj (fields : List (String × Json))

namespace Json

/-- A dictionary with its keys in order, as `sort_keys` writes it. -/
def dict (fields : List (String × Json)) : Json :=
  .obj (sortBy Prod.fst fields)

def ofText (text : Option String) : Json :=
  text.elim .null .str

def ofInt (value : Option Int) : Json :=
  value.elim .null .int

def quote : Char := '\x22'

def backslash : Char := '\x5c'

/-- Four hexadecimal digits, most significant first. -/
def hex4 (n : Nat) : List Char :=
  [n / 4096 % 16, n / 256 % 16, n / 16 % 16, n % 16].map Nat.digitChar

def unicodeEscape (unit : Nat) : List Char :=
  backslash :: 'u' :: hex4 unit

/-- The characters with a two-character escape, each with its letter. -/
def shortEscapes : List (Char × Char) :=
  [(quote, quote), (backslash, backslash), ('\n', 'n'), ('\r', 'r'), ('\t', 't'), ('\x0c', 'f'),
    ('\x08', 'b')]

/-- Everything outside the printable ASCII range is escaped, beyond the basic plane as a surrogate
    pair. -/
def escape (c : Char) : List Char :=
  match shortEscapes.find? (·.1 == c) with
  | some (_, letter) => [backslash, letter]
  | none =>
      if ' ' ≤ c ∧ c ≤ '~' then [c]
      else if c.toNat < 0x10000 then unicodeEscape c.toNat
      else
        let scalar := c.toNat - 0x10000
        unicodeEscape (0xd800 + scalar / 0x400) ++ unicodeEscape (0xdc00 + scalar % 0x400)

def renderText (text : String) : List Char :=
  quote :: (text.toList.flatMap escape ++ [quote])

def renderInt : Int → List Char
  | .ofNat n => Nat.toDigits 10 n
  | .negSucc n => '-' :: Nat.toDigits 10 (n + 1)

mutual

def render : Json → List Char
  | .null => ['n', 'u', 'l', 'l']
  | .bool true => ['t', 'r', 'u', 'e']
  | .bool false => ['f', 'a', 'l', 's', 'e']
  | .int value => renderInt value
  | .str text => renderText text
  | .arr [] => ['[', ']']
  | .arr (item :: items) => '[' :: (render item ++ renderItems items)
  | .obj [] => ['\x7b', '\x7d']
  | .obj ((key, value) :: fields) =>
      '\x7b' :: (renderText key ++ ':' :: (render value ++ renderFields fields))

/-- The rest of an array after its first item. -/
def renderItems : List Json → List Char
  | [] => [']']
  | item :: items => ',' :: (render item ++ renderItems items)

/-- The rest of a dictionary after its first field. -/
def renderFields : List (String × Json) → List Char
  | [] => ['\x7d']
  | (key, value) :: fields =>
      ',' :: (renderText key ++ ':' :: (render value ++ renderFields fields))

end

/-- `json.dumps(…, separators=(",", ":"))`. -/
def dumps (value : Json) : String :=
  String.ofList value.render

def isBlank (c : Char) : Bool :=
  c = ' ' || c = '\n' || c = '\r' || c = '\t'

def skip (input : List Char) : List Char :=
  input.dropWhile isBlank

def hexValue (c : Char) : Option Nat :=
  if '0' ≤ c ∧ c ≤ '9' then some (c.toNat - 48)
  else if 'a' ≤ c ∧ c ≤ 'f' then some (c.toNat - 87)
  else if 'A' ≤ c ∧ c ≤ 'F' then some (c.toNat - 55)
  else none

def parseHex4 : List Char → Option (Nat × List Char)
  | a :: b :: c :: d :: rest => do
      let a ← hexValue a
      let b ← hexValue b
      let c ← hexValue c
      let d ← hexValue d
      return (((a * 16 + b) * 16 + c) * 16 + d, rest)
  | _ => none

/-- A code unit after `\u`; a leading surrogate takes its partner with it. -/
def parseUnit (input : List Char) : Option (Char × List Char) := do
  let (unit, rest) ← parseHex4 input
  if 0xd800 ≤ unit ∧ unit < 0xdc00 then
    match rest with
    | slash :: letter :: rest =>
        guard (slash = backslash ∧ letter = 'u')
        let (low, rest) ← parseHex4 rest
        guard (0xdc00 ≤ low ∧ low < 0xe000)
        return (Char.ofNat (0x10000 + (unit - 0xd800) * 0x400 + (low - 0xdc00)), rest)
    | _ => none
  else
    guard (¬(0xdc00 ≤ unit ∧ unit < 0xe000))
    return (Char.ofNat unit, rest)

/-- What the letter of a two-character escape stands for. -/
def unescape (letter : Char) : Option Char :=
  if letter = '/' then some '/'
  else (shortEscapes.find? (·.2 == letter)).map Prod.fst

/-- One character of a text, which may be escaped. -/
def parseChar : List Char → Option (Char × List Char)
  | [] => none
  | c :: rest =>
      if c = backslash then
        match rest with
        | [] => none
        | letter :: rest =>
            if letter = 'u' then parseUnit rest else (unescape letter).map (·, rest)
      else if c < ' ' then none
      else some (c, rest)

/-- The characters of a text up to its closing quote. -/
def parseText : Nat → List Char → Option (List Char × List Char)
  | 0, _ => none
  | fuel + 1, input =>
      if input.head? = some quote then some ([], input.tail)
      else do
        let (c, rest) ← parseChar input
        let (chars, rest) ← parseText fuel rest
        return (c :: chars, rest)

/-- Digits without a leading zero. -/
def parseNat (input : List Char) : Option (Nat × List Char) :=
  let digits := input.takeWhile Char.isDigit
  if digits = [] ∨ digits.head? = some '0' ∧ 1 < digits.length then none
  else some (Nat.ofDigitChars 10 digits 0, input.drop digits.length)

def parseInt : List Char → Option (Int × List Char)
  | [] => none
  | c :: rest =>
      if c = '-' then (parseNat rest).map fun (n, rest) => (-(n : Int), rest)
      else (parseNat (c :: rest)).map fun (n, rest) => ((n : Int), rest)

def words : List (List Char × Json) :=
  [(render .null, .null), (render (.bool true), .bool true), (render (.bool false), .bool false)]

def parseWord (input : List Char) : Option (Json × List Char) :=
  (words.find? (·.1.isPrefixOf input)).map fun (word, value) => (value, input.drop word.length)

/-- A key and its colon. -/
def parseKey (fuel : Nat) (input : List Char) : Option (String × List Char) :=
  match skip input with
  | [] => none
  | c :: rest => do
      guard (c = quote)
      let (key, rest) ← parseText fuel rest
      guard ((skip rest).head? = some ':')
      return (String.ofList key, (skip rest).tail)

mutual

def parseValue : Nat → List Char → Option (Json × List Char)
  | 0, _ => none
  | fuel + 1, input =>
      match skip input with
      | [] => none
      | c :: rest =>
          if c = quote then (parseText fuel rest).map fun (text, rest) => (.str (String.ofList text), rest)
          else if c = '[' then
            if (skip rest).head? = some ']' then some (.arr [], (skip rest).tail)
            else do
              let (item, rest) ← parseValue fuel rest
              let (items, rest) ← parseItems fuel rest
              return (.arr (item :: items), rest)
          else if c = '\x7b' then
            if (skip rest).head? = some '\x7d' then some (.obj [], (skip rest).tail)
            else do
              let (key, rest) ← parseKey fuel rest
              let (value, rest) ← parseValue fuel rest
              let (fields, rest) ← parseFields fuel rest
              return (.obj ((key, value) :: fields), rest)
          else if c = '-' ∨ c.isDigit then
            (parseInt (c :: rest)).map fun (n, rest) => (.int n, rest)
          else parseWord (c :: rest)

def parseItems : Nat → List Char → Option (List Json × List Char)
  | 0, _ => none
  | fuel + 1, input =>
      match skip input with
      | [] => none
      | c :: rest =>
          if c = ']' then some ([], rest)
          else do
            guard (c = ',')
            let (item, rest) ← parseValue fuel rest
            let (items, rest) ← parseItems fuel rest
            return (item :: items, rest)

def parseFields : Nat → List Char → Option (List (String × Json) × List Char)
  | 0, _ => none
  | fuel + 1, input =>
      match skip input with
      | [] => none
      | c :: rest =>
          if c = '\x7d' then some ([], rest)
          else do
            guard (c = ',')
            let (key, rest) ← parseKey fuel rest
            let (value, rest) ← parseValue fuel rest
            let (fields, rest) ← parseFields fuel rest
            return ((key, value) :: fields, rest)

end

/-- `json.loads`, of texts without fractional numbers. -/
def loads (text : String) : Option Json := do
  let (value, rest) ← parseValue (text.length + 1) text.toList
  guard (skip rest = [])
  return value

section Texts

theorem hexValue_digitChar {n : Nat} (small : n < 16) : hexValue n.digitChar = some n := by
  revert n
  decide

theorem parseHex4_hex4 {n : Nat} (small : n < 0x10000) (rest : List Char) :
    parseHex4 (hex4 n ++ rest) = some (n, rest) := by
  have digit : ∀ m, hexValue (m % 16).digitChar = some (m % 16) :=
    fun m => hexValue_digitChar (Nat.mod_lt m (by decide))
  simp only [hex4, List.map_cons, List.map_nil, List.cons_append, List.nil_append, parseHex4, digit,
    Option.bind_eq_bind, Option.bind_some, Option.pure_def, Option.some.injEq, Prod.mk.injEq, and_true]
  omega

theorem parseChar_unicodeEscape (unit : Nat) (rest : List Char) :
    parseChar (unicodeEscape unit ++ rest) = parseUnit (hex4 unit ++ rest) := by
  simp [parseChar, unicodeEscape]

/-- A character of the basic plane is no surrogate. -/
theorem not_surrogate (c : Char) : c.toNat < 0xd800 ∨ 0xdfff < c.toNat := by
  rcases c.valid with low | ⟨high, _⟩
  · exact .inl low
  · exact .inr high

theorem toNat_lt (c : Char) : c.toNat < 0x110000 := by
  rcases c.valid with low | ⟨_, high⟩
  · exact Nat.lt_trans low (by decide)
  · exact high

theorem parseUnit_basic {c : Char} (basic : c.toNat < 0x10000) (rest : List Char) :
    parseUnit (hex4 c.toNat ++ rest) = some (c, rest) := by
  have plain := not_surrogate c
  have notLeading : ¬(0xd800 ≤ c.toNat ∧ c.toNat < 0xdc00) := by omega
  have notTrailing : ¬(0xdc00 ≤ c.toNat ∧ c.toNat < 0xe000) := by omega
  simp only [parseUnit, parseHex4_hex4 basic, Option.bind_eq_bind, Option.bind_some, if_neg notLeading,
    notTrailing, not_false_eq_true, guard_true, Option.pure_def, Char.ofNat_toNat]

theorem parseUnit_pair {c : Char} (beyond : 0x10000 ≤ c.toNat) (rest : List Char) :
    parseUnit (hex4 (0xd800 + (c.toNat - 0x10000) / 0x400) ++
      (unicodeEscape (0xdc00 + (c.toNat - 0x10000) % 0x400) ++ rest)) = some (c, rest) := by
  have bound := toNat_lt c
  obtain ⟨high, leading⟩ : ∃ high, high = 0xd800 + (c.toNat - 0x10000) / 0x400 := ⟨_, rfl⟩
  obtain ⟨low, trailing⟩ : ∃ low, low = 0xdc00 + (c.toNat - 0x10000) % 0x400 := ⟨_, rfl⟩
  rw [← leading, ← trailing]
  have highRange : 0xd800 ≤ high ∧ high < 0xdc00 := by omega
  have lowRange : 0xdc00 ≤ low ∧ low < 0xe000 := by omega
  have whole : 0x10000 + (high - 0xd800) * 0x400 + (low - 0xdc00) = c.toNat := by omega
  simp only [parseUnit, parseHex4_hex4 (Nat.lt_trans highRange.2 (by decide)), Option.bind_eq_bind,
    Option.bind_some, if_pos highRange, unicodeEscape, List.cons_append, and_self, guard_true,
    parseHex4_hex4 (Nat.lt_trans lowRange.2 (by decide)), lowRange, Option.pure_def, whole,
    Char.ofNat_toNat]

/-- The letters of the short escapes stand for their characters. -/
theorem unescape_short {entry : Char × Char} (listed : entry ∈ shortEscapes) :
    entry.2 ≠ 'u' ∧ unescape entry.2 = some entry.1 := by
  revert entry
  decide

theorem parseChar_escape (c : Char) (rest : List Char) :
    parseChar (escape c ++ rest) = some (c, rest) := by
  unfold escape
  cases short : shortEscapes.find? (·.1 == c) with
  | some entry =>
      obtain ⟨notUnicode, stands⟩ := unescape_short (List.mem_of_find?_eq_some short)
      obtain rfl : entry.1 = c := by simpa using List.find?_some short
      simp [parseChar, notUnicode, stands]
  | none =>
      have notSlash : c ≠ backslash := by
        rintro rfl
        cases short
      dsimp only
      split_ifs with printable basic
      · simp [parseChar, notSlash, not_lt.mpr printable.1]
      · rw [parseChar_unicodeEscape, parseUnit_basic basic]
      · rw [List.append_assoc, parseChar_unicodeEscape, parseUnit_pair (not_lt.mp basic)]

/-- An escaped character does not look like the end of the text. -/
theorem head_escape (c : Char) (rest : List Char) : (escape c ++ rest).head? ≠ some quote := by
  unfold escape
  cases short : shortEscapes.find? (·.1 == c) with
  | some entry => simp [backslash, quote]
  | none =>
      have notQuote : c ≠ quote := by
        rintro rfl
        cases short
      dsimp only
      split_ifs
      · simpa using notQuote
      · simp [unicodeEscape, backslash, quote]
      · simp [unicodeEscape, backslash, quote]

theorem parseText_escape {fuel : Nat} {chars : List Char} (enough : chars.length < fuel)
    (rest : List Char) :
    parseText fuel (chars.flatMap escape ++ quote :: rest) = some (chars, rest) := by
  induction chars generalizing fuel with
  | nil =>
      obtain ⟨fuel, rfl⟩ := Nat.exists_eq_succ_of_ne_zero (Nat.ne_of_gt enough)
      simp [parseText]
  | cons c chars ih =>
      obtain ⟨fuel, rfl⟩ := Nat.exists_eq_succ_of_ne_zero (Nat.ne_of_gt (Nat.zero_lt_of_lt enough))
      have inside := head_escape c (chars.flatMap escape ++ quote :: rest)
      rw [List.flatMap_cons, List.append_assoc, parseText, if_neg inside, parseChar_escape]
      have later := @ih fuel (by simpa using enough)
      simp [later]

/-- Every character takes room. -/
theorem length_le_escape (chars : List Char) : chars.length ≤ (chars.flatMap escape).length := by
  induction chars with
  | nil => simp
  | cons c chars ih =>
      have nonempty : 0 < (escape c).length := by
        unfold escape
        split
        · simp
        · dsimp only
          split_ifs <;> simp [unicodeEscape]
      simp only [List.length_cons, List.flatMap_cons, List.length_append]
      omega

end Texts

section Numbers

/-- No digit follows. -/
def Ends (rest : List Char) : Prop :=
  ∀ c ∈ rest.head?, c.isDigit = false

/-- Only zero is written with a leading zero. -/
theorem eq_zero_of_head_toDigits {n : Nat} (zero : (Nat.toDigits 10 n).head? = some '0') : n = 0 := by
  induction n using Nat.strongRecOn with
  | ind n ih =>
      rw [Nat.toDigits_eq_if (by decide)] at zero
      split_ifs at zero with small
      · have same : n.digitChar = '0' := by simpa using zero
        revert same
        clear ih zero
        revert n
        decide
      · have nonempty : Nat.toDigits 10 (n / 10) ≠ [] := Nat.toDigits_ne_nil
        rw [List.head?_append_of_ne_nil _ nonempty] at zero
        have none := ih (n / 10) (by omega) zero
        omega

theorem parseNat_toDigits (n : Nat) {rest : List Char} (ends : Ends rest) :
    parseNat (Nat.toDigits 10 n ++ rest) = some (n, rest) := by
  have digits : ∀ c ∈ Nat.toDigits 10 n, c.isDigit = true :=
    fun c => Nat.isDigit_of_mem_toDigits (by decide) (by decide)
  have stops : rest.takeWhile Char.isDigit = [] := by
    cases rest with
    | nil => rfl
    | cons c rest =>
        have solid : c.isDigit = false := ends c rfl
        simp [solid]
  have taken : (Nat.toDigits 10 n ++ rest).takeWhile Char.isDigit = Nat.toDigits 10 n := by
    rw [List.takeWhile_append_of_pos digits, stops, List.append_nil]
  have sound : ¬(Nat.toDigits 10 n = [] ∨
      (Nat.toDigits 10 n).head? = some '0' ∧ 1 < (Nat.toDigits 10 n).length) := by
    rintro (none | ⟨zero, long⟩)
    · exact Nat.toDigits_ne_nil none
    · rw [eq_zero_of_head_toDigits zero] at long
      simp at long
  simp only [parseNat, taken, if_neg sound, Nat.ofDigitChars_ten_toDigits, List.drop_left]

theorem head_toDigits (n : Nat) : ∃ c rest, Nat.toDigits 10 n = c :: rest ∧ c.isDigit = true := by
  obtain ⟨c, rest, same⟩ := List.exists_cons_of_ne_nil (@Nat.toDigits_ne_nil n 10)
  refine ⟨c, rest, same, ?_⟩
  apply @Nat.isDigit_of_mem_toDigits 10 n c (by decide) (by decide)
  rw [same]
  exact List.mem_cons_self ..

theorem parseInt_renderInt (value : Int) {rest : List Char} (ends : Ends rest) :
    parseInt (renderInt value ++ rest) = some (value, rest) := by
  cases value with
  | ofNat n =>
      have parsed := parseNat_toDigits n ends
      obtain ⟨c, chars, same, digit⟩ := head_toDigits n
      have notMinus : c ≠ '-' := by
        rintro rfl
        cases digit
      rw [same, List.cons_append] at parsed
      simp [renderInt, same, parseInt, notMinus, parsed]
  | negSucc n =>
      have parsed := parseNat_toDigits (n + 1) ends
      simp [renderInt, parseInt, parsed, Int.negSucc_eq]

end Numbers

section Values

theorem skip_cons {c : Char} (solid : isBlank c = false) (rest : List Char) :
    skip (c :: rest) = c :: rest := by
  simp [skip, solid]

theorem digit_solid {c : Char} (digit : c.isDigit = true) :
    isBlank c = false ∧ c ≠ quote ∧ c ≠ '[' ∧ c ≠ '\x7b' ∧ c ≠ ']' := by
  refine ⟨?_, ?_, ?_, ?_, ?_⟩
  · by_contra blank
    simp only [isBlank, Bool.not_eq_false, Bool.or_eq_true, decide_eq_true_eq] at blank
    rcases blank with ((rfl | rfl) | rfl) | rfl <;> cases digit
  all_goals
    rintro rfl
    cases digit

/-- A value starts with a character that is neither blank nor the end of an array. -/
theorem head_render (value : Json) :
    ∃ c rest, value.render = c :: rest ∧ isBlank c = false ∧ c ≠ ']' := by
  rcases value with _ | (_ | _) | (n | n) | text | (_ | ⟨item, items⟩) | (_ | ⟨⟨key, value⟩, fields⟩)
  case int.ofNat =>
    obtain ⟨c, rest, same, digit⟩ := head_toDigits n
    obtain ⟨solid, _, _, _, inside⟩ := digit_solid digit
    exact ⟨c, rest, by simp [render, renderInt, same], solid, inside⟩
  all_goals
    simp only [render, renderInt, renderText]
    exact ⟨_, _, rfl, by decide, by decide⟩

theorem parseKey_renderText {fuel : Nat} {key : String} (enough : (renderText key).length ≤ fuel)
    (rest : List Char) : parseKey fuel (renderText key ++ ':' :: rest) = some (key, rest) := by
  have room : key.toList.length < fuel := by
    have written := length_le_escape key.toList
    simp only [renderText, List.length_cons, List.length_append, List.length_nil] at enough
    omega
  have solid : skip (':' :: rest) = ':' :: rest := skip_cons (by decide) rest
  have opened : skip (renderText key ++ ':' :: rest) = renderText key ++ ':' :: rest :=
    skip_cons (by decide) _
  rw [parseKey, opened]
  simp [renderText, parseText_escape room, solid]

theorem ends_renderItems (items : List Json) (rest : List Char) : Ends (renderItems items ++ rest) := by
  cases items <;> simp [renderItems, Ends]

theorem ends_renderFields (fields : List (String × Json)) (rest : List Char) :
    Ends (renderFields fields ++ rest) := by
  cases fields <;> simp [renderFields, Ends]

mutual

theorem parseValue_render (value : Json) {fuel : Nat} {rest : List Char}
    (enough : value.render.length < fuel) (ends : Ends rest) :
    parseValue fuel (value.render ++ rest) = some (value, rest) := by
  obtain ⟨fuel, rfl⟩ := Nat.exists_eq_succ_of_ne_zero (Nat.ne_of_gt (Nat.zero_lt_of_lt enough))
  match value with
  | .null => simp [render, parseValue, skip_cons, isBlank, quote, parseWord, words, Char.isDigit]
  | .bool true => simp [render, parseValue, skip_cons, isBlank, quote, parseWord, words, Char.isDigit]
  | .bool false => simp [render, parseValue, skip_cons, isBlank, quote, parseWord, words, Char.isDigit]
  | .int n =>
      have parsed := parseInt_renderInt n ends
      obtain ⟨c, chars, same, solid, notText, notArr, notObj, starts⟩ : ∃ c chars,
          renderInt n = c :: chars ∧ isBlank c = false ∧ c ≠ quote ∧ c ≠ '[' ∧ c ≠ '\x7b' ∧
            (c = '-' ∨ c.isDigit = true) := by
        cases n with
        | ofNat n =>
            obtain ⟨c, chars, same, digit⟩ := head_toDigits n
            obtain ⟨solid, notText, notArr, notObj, _⟩ := digit_solid digit
            exact ⟨c, chars, same, solid, notText, notArr, notObj, .inr digit⟩
        | negSucc n => exact ⟨_, _, rfl, by decide, by decide, by decide, by decide, .inl rfl⟩
      rw [same, List.cons_append] at parsed
      simp only [render, same, List.cons_append, parseValue, skip_cons solid, if_neg notText,
        if_neg notArr, if_neg notObj, if_pos starts, parsed, Option.map_some]
  | .str text =>
      have room : text.toList.length < fuel := by
        have written := length_le_escape text.toList
        simp only [render, renderText, List.length_cons, List.length_append, List.length_nil] at enough
        omega
      have read := parseText_escape room rest
      have solid : isBlank quote = false := by decide
      simp [render, renderText, parseValue, skip_cons solid, read]
  | .arr [] => simp [render, parseValue, skip_cons, isBlank, quote]
  | .arr (item :: items) =>
      simp only [render, List.length_cons, List.length_append] at enough
      obtain ⟨c, chars, same, solid, inside⟩ := head_render item
      have first := @parseValue_render item fuel (renderItems items ++ rest) (by omega)
        (ends_renderItems items rest)
      have others := @parseItems_render items fuel rest (by omega)
      have more : (skip (item.render ++ (renderItems items ++ rest))).head? ≠ some ']' := by
        rw [same, List.cons_append, skip_cons solid]
        simpa using inside
      simp [render, parseValue, skip_cons, isBlank, quote, more, first, others]
  | .obj [] => simp [render, parseValue, skip_cons, isBlank, quote]
  | .obj ((key, value) :: fields) =>
      simp only [render, List.length_cons, List.length_append] at enough
      have named := @parseKey_renderText fuel key (by omega) (value.render ++ (renderFields fields ++ rest))
      have first := @parseValue_render value fuel (renderFields fields ++ rest) (by omega)
        (ends_renderFields fields rest)
      have others := @parseFields_render fields fuel rest (by omega)
      have more : (skip (renderText key ++ ':' :: (value.render ++ (renderFields fields ++ rest)))).head?
          ≠ some '\x7d' := by
        rw [renderText, List.cons_append, skip_cons (by decide)]
        simp [quote]
      simp [render, parseValue, skip_cons, isBlank, quote, more, named, first, others]

theorem parseItems_render (items : List Json) {fuel : Nat} {rest : List Char}
    (enough : (renderItems items).length < fuel) :
    parseItems fuel (renderItems items ++ rest) = some (items, rest) := by
  obtain ⟨fuel, rfl⟩ := Nat.exists_eq_succ_of_ne_zero (Nat.ne_of_gt (Nat.zero_lt_of_lt enough))
  match items with
  | [] => simp [renderItems, parseItems, skip_cons, isBlank]
  | item :: items =>
      simp only [renderItems, List.length_cons, List.length_append] at enough
      have first := @parseValue_render item fuel (renderItems items ++ rest) (by omega)
        (ends_renderItems items rest)
      have others := @parseItems_render items fuel rest (by omega)
      simp [renderItems, parseItems, skip_cons, isBlank, first, others]

theorem parseFields_render (fields : List (String × Json)) {fuel : Nat} {rest : List Char}
    (enough : (renderFields fields).length < fuel) :
    parseFields fuel (renderFields fields ++ rest) = some (fields, rest) := by
  obtain ⟨fuel, rfl⟩ := Nat.exists_eq_succ_of_ne_zero (Nat.ne_of_gt (Nat.zero_lt_of_lt enough))
  match fields with
  | [] => simp [renderFields, parseFields, skip_cons, isBlank]
  | (key, value) :: fields =>
      simp only [renderFields, List.length_cons, List.length_append] at enough
      have named := @parseKey_renderText fuel key (by omega) (value.render ++ (renderFields fields ++ rest))
      have first := @parseValue_render value fuel (renderFields fields ++ rest) (by omega)
        (ends_renderFields fields rest)
      have others := @parseFields_render fields fuel rest (by omega)
      simp [renderFields, parseFields, skip_cons, isBlank, named, first, others]

end

/-- `json.loads` reads what `json.dumps` wrote. -/
theorem loads_dumps (value : Json) : loads value.dumps = some value := by
  have read : parseValue (value.render.length + 1) (value.render ++ []) = some (value, []) :=
    parseValue_render value (Nat.lt_succ_self _) (by simp [Ends])
  rw [List.append_nil] at read
  simp only [loads, dumps, String.length_ofList, String.toList_ofList, read, Option.bind_eq_bind,
    Option.bind_some, skip, List.dropWhile_nil, guard_true, Option.pure_def]

theorem dumps_injective : Function.Injective dumps := by
  intro left right same
  have read := loads_dumps left
  rw [same, loads_dumps] at read
  exact (Option.some.inj read).symm

/-- A value written before something that is no digit can be told from what follows it. -/
theorem render_append_inj {left right : Json} {rest rest' : List Char} (ends : Ends rest)
    (ends' : Ends rest') (same : left.render ++ rest = right.render ++ rest') :
    left = right ∧ rest = rest' := by
  obtain ⟨fuel, leftRoom, rightRoom⟩ : ∃ fuel, left.render.length < fuel ∧ right.render.length < fuel :=
    ⟨left.render.length + right.render.length + 1, by omega, by omega⟩
  have read := parseValue_render left leftRoom ends
  rw [same, parseValue_render right rightRoom ends'] at read
  obtain ⟨values, rests⟩ := Prod.mk.inj (Option.some.inj read)
  exact ⟨values.symm, rests.symm⟩

end Values

section Dictionaries

/-- Equal dictionaries have the same fields. -/
theorem perm_of_dict_eq {left right : List (String × Json)} (same : dict left = dict right) :
    left.Perm right := by
  have sorted : sortBy Prod.fst left = sortBy Prod.fst right := Json.obj.inj same
  exact (sortBy_perm Prod.fst left).symm.trans (sorted ▸ sortBy_perm Prod.fst right)

/-- Lists of fields with the same keys and the same members are the same. -/
theorem fields_ext {left right : List (String × Json)} (keys : left.map Prod.fst = right.map Prod.fst)
    (distinct : (right.map Prod.fst).Nodup) (same : ∀ field ∈ left, field ∈ right) : left = right := by
  induction left generalizing right with
  | nil =>
      cases right with
      | nil => rfl
      | cons field right => cases keys
  | cons field left ih =>
      cases right with
      | nil => cases keys
      | cons other right =>
          obtain ⟨sameKey, keys⟩ := List.cons.inj keys
          have here : field ∈ other :: right := same field List.mem_cons_self
          have equal : field = other :=
            List.inj_on_of_nodup_map distinct here List.mem_cons_self sameKey
          obtain ⟨fresh, distinct⟩ := List.nodup_cons.mp distinct
          rw [equal, ih keys distinct]
          intro item member
          rcases List.mem_cons.mp (same item (List.mem_cons_of_mem _ member)) with first | later
          · have clash : item.1 ∈ right.map Prod.fst := keys ▸ List.mem_map_of_mem member
            exact absurd (first ▸ clash) fresh
          · exact later

/-- Equal dictionaries that were written down with the same keys have the same values. -/
theorem fields_of_dict_eq {left right : List (String × Json)} (same : dict left = dict right)
    (keys : left.map Prod.fst = right.map Prod.fst) (distinct : (right.map Prod.fst).Nodup) :
    left = right :=
  fields_ext keys distinct fun _ member => (perm_of_dict_eq same).mem_iff.mp member

@[simp] theorem ofText_inj {left right : Option String} : ofText left = ofText right ↔ left = right := by
  cases left <;> cases right <;> simp [ofText]

@[simp] theorem ofInt_inj {left right : Option Int} : ofInt left = ofInt right ↔ left = right := by
  cases left <;> cases right <;> simp [ofInt]

end Dictionaries

end Json

end Modelark.Library
