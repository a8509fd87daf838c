import Modelark.Library.Fallible

/-!
# JSON as it is decoded from bytes

The values that the decoder of Python's standard library reads from bytes in any of the encodings it detects: texts
are lists of code points, among which there may be lone surrogates, and a repeated key is refused.
-/

namespace Modelark.Library

/-- A text, as its code points. -/
abbrev Points := List Nat

namespace Points

def ofString (text : String) : Points := text.toList.map Char.toNat

end Points

/-- A decoded value. What a number with a fraction or an exponent is does not matter. -/
inductive Decoded where
  | null
  | bool (value : Bool)
  | int (value : Int)
  | float
  | str (text : Points)
  | arr (items : List Decoded)
  | obj (fields : List (Points × Decoded))

namespace Decoded

/-- `dict.get`, of fields without repeated keys. -/
def get (fields : List (Points × Decoded)) (key : String) : Option Decoded :=
  (fields.find? fun field => field.1 == Points.ofString key).map Prod.snd

/-- No object repeats a key. -/
inductive Distinct : Decoded → Prop where
  | null : Distinct .null
  | bool (value : Bool) : Distinct (.bool value)
  | int (value : Int) : Distinct (.int value)
  | float : Distinct .float
  | str (text : Points) : Distinct (.str text)
  | arr {items : List Decoded} (below : ∀ item ∈ items, Distinct item) : Distinct (.arr items)
  | obj {fields : List (Points × Decoded)} (keys : (fields.map Prod.fst).Nodup)
      (below : ∀ field ∈ fields, Distinct field.2) : Distinct (.obj fields)

end Decoded

inductive LoadError where
  /-- `JSONDecodeError`, `UnicodeDecodeError` or a repeated key. -/
  | malformed
  /-- `RecursionError`. -/
  | tooDeep
  /-- The `ValueError` of an integer with too many digits. -/
  | tooLong
  deriving Repr, DecidableEq

/-- The limits of the interpreter. -/
structure LoadLimits where
  depth : Nat
  digits : Nat

namespace JsonDecoding

def isTail (byte : Nat) : Bool := 0x80 ≤ byte && byte < 0xC0

/-- UTF-8, in which surrogates are not refused. -/
def decodeUtf8 : List Nat → Option Points
  | [] => some []
  | a :: rest =>
      if a < 0x80 then (decodeUtf8 rest).map (a :: ·)
      else match rest with
        | [] => none
        | b :: rest =>
            if 0xC2 ≤ a ∧ a < 0xE0 ∧ isTail b then
              (decodeUtf8 rest).map (((a - 0xC0) * 64 + (b - 0x80)) :: ·)
            else match rest with
              | [] => none
              | c :: rest =>
                  let point := (a - 0xE0) * 4096 + (b - 0x80) * 64 + (c - 0x80)
                  if 0xE0 ≤ a ∧ a < 0xF0 ∧ isTail b ∧ isTail c ∧ 0x800 ≤ point then
                    (decodeUtf8 rest).map (point :: ·)
                  else match rest with
                    | [] => none
                    | d :: rest =>
                        let point := (a - 0xF0) * 262144 + (b - 0x80) * 4096 + (c - 0x80) * 64 + (d - 0x80)
                        if 0xF0 ≤ a ∧ a < 0xF5 ∧ isTail b ∧ isTail c ∧ isTail d ∧ 0x10000 ≤ point ∧ point < 0x110000 then
                          (decodeUtf8 rest).map (point :: ·)
                        else none

def units16 (big : Bool) : List Nat → Option (List Nat)
  | [] => some []
  | [_] => none
  | a :: b :: rest => (units16 big rest).map ((if big then a * 256 + b else b * 256 + a) :: ·)

def isHigh (unit : Nat) : Bool := 0xD800 ≤ unit && unit < 0xDC00

def isLow (unit : Nat) : Bool := 0xDC00 ≤ unit && unit < 0xE000

def joined (high low : Nat) : Nat := 0x10000 + (high - 0xD800) * 1024 + (low - 0xDC00)

/-- Surrogate pairs as the code points they stand for. -/
def joinUnits : List Nat → Points
  | [] => []
  | [unit] => [unit]
  | high :: low :: rest =>
      if isHigh high && isLow low then joined high low :: joinUnits rest else high :: joinUnits (low :: rest)

def decodeUtf32 (big : Bool) : List Nat → Option Points
  | [] => some []
  | a :: b :: c :: d :: rest =>
      let point := if big then ((a * 256 + b) * 256 + c) * 256 + d else ((d * 256 + c) * 256 + b) * 256 + a
      if point < 0x110000 then (decodeUtf32 big rest).map (point :: ·) else none
  | _ => none

def decodeUtf16 (big : Bool) (bytes : List Nat) : Option Points :=
  (units16 big bytes).map joinUnits

/-- `bytes.decode` with `json.detect_encoding`. -/
def decode (bytes : List Nat) : Option Points :=
  if [0x00, 0x00, 0xFE, 0xFF].isPrefixOf bytes then decodeUtf32 true (bytes.drop 4)
  else if [0xFF, 0xFE, 0x00, 0x00].isPrefixOf bytes then decodeUtf32 false (bytes.drop 4)
  else if [0xFE, 0xFF].isPrefixOf bytes then decodeUtf16 true (bytes.drop 2)
  else if [0xFF, 0xFE].isPrefixOf bytes then decodeUtf16 false (bytes.drop 2)
  else if [0xEF, 0xBB, 0xBF].isPrefixOf bytes then decodeUtf8 (bytes.drop 3)
  else match bytes with
    | [a, b] =>
        if a = 0 then decodeUtf16 true bytes else if b = 0 then decodeUtf16 false bytes else decodeUtf8 bytes
    | a :: b :: c :: d :: _ =>
        if a = 0 then (if b = 0 then decodeUtf32 true bytes else decodeUtf16 true bytes)
        else if b = 0 then (if c = 0 ∧ d = 0 then decodeUtf32 false bytes else decodeUtf16 false bytes)
        else decodeUtf8 bytes
    | _ => decodeUtf8 bytes

def skipSpace (text : Points) : Points :=
  text.dropWhile [32, 9, 10, 13].contains

def isDigit (point : Nat) : Bool := 48 ≤ point && point < 58

def hexValue (point : Nat) : Option Nat :=
  if isDigit point then some (point - 48)
  else if 65 ≤ point ∧ point < 71 then some (point - 55)
  else if 97 ≤ point ∧ point < 103 then some (point - 87)
  else none

/-- The unit that four hexadecimal digits stand for. -/
def hexUnit (a b c d : Nat) : Option Nat := do
  return (((← hexValue a) * 16 + (← hexValue b)) * 16 + (← hexValue c)) * 16 + (← hexValue d)

/-- The character of an escape of one letter. -/
def escaped (letter : Nat) : Option Nat :=
  ([(34, 34), (92, 92), (47, 47), (98, 8), (102, 12), (110, 10), (114, 13), (116, 9)].find? fun entry =>
    entry.1 == letter).map Prod.snd

/-- The pieces of a text up to its closing quote: points, and the units of escapes. -/
def scanPieces : Points → Option (List (Nat × Bool) × Points)
  | [] => none
  | 34 :: rest => some ([], rest)
  | 92 :: 117 :: a :: b :: c :: d :: rest =>
      match hexUnit a b c d with
      | none => none
      | some unit => (scanPieces rest).map fun (pieces, rest) => ((unit, true) :: pieces, rest)
  | 92 :: letter :: rest =>
      match escaped letter with
      | none => none
      | some point => (scanPieces rest).map fun (pieces, rest) => ((point, false) :: pieces, rest)
  | point :: rest =>
      if point < 32 ∨ point = 92 then none
      else (scanPieces rest).map fun (pieces, rest) => ((point, false) :: pieces, rest)

/-- The escaped halves of a pair are one point. -/
def joinPieces : List (Nat × Bool) → Points
  | [] => []
  | [piece] => [piece.1]
  | high :: low :: rest =>
      if high.2 && low.2 && isHigh high.1 && isLow low.1 then joined high.1 low.1 :: joinPieces rest
      else high.1 :: joinPieces (low :: rest)

/-- `scanstring`, after the opening quote. -/
def scanString (text : Points) : Except LoadError (Points × Points) :=
  match scanPieces text with
  | some (pieces, rest) => .ok (joinPieces pieces, rest)
  | none => .error .malformed

/-- A fraction or an exponent, when it has digits. -/
def scanPart (starts : Nat → Bool) (signed : Bool) (text : Points) : Option Points :=
  match text with
  | [] => none
  | mark :: rest =>
      let rest := if signed && (rest.head? == some 43 || rest.head? == some 45) then rest.tail else rest
      if starts mark && rest.head?.any isDigit then some (rest.dropWhile isDigit) else none

/-- A number, by its first digits and what follows them. -/
def readNumber (limits : LoadLimits) (negative : Bool) (digits rest : Points) : Except LoadError (Decoded × Points) :=
  if digits.isEmpty then .error .malformed
  else
    let fraction := scanPart (· == 46) false rest
    let exponent := scanPart (fun mark => mark == 101 || mark == 69) true (fraction.getD rest)
    if fraction.isSome || exponent.isSome then .ok (.float, exponent.getD (fraction.getD rest))
    else if limits.digits < digits.length then .error .tooLong
    else
      let value : Int := digits.foldl (fun value digit => 10 * value + (digit - 48 : Nat)) 0
      .ok (.int (if negative then -value else value), rest)

/-- A number. -/
def scanNumber (limits : LoadLimits) (text : Points) : Except LoadError (Decoded × Points) :=
  let negative := text.head? == some 45
  let text := if negative then text.tail else text
  let digits := if text.head? == some 48 then [48] else text.takeWhile isDigit
  readNumber limits negative digits (text.drop digits.length)

def words : List (String × Decoded) :=
  [("null", .null), ("true", .bool true), ("false", .bool false), ("NaN", .float), ("Infinity", .float),
    ("-Infinity", .float)]

/-- A word or a number. -/
def scanScalar (limits : LoadLimits) (text : Points) : Except LoadError (Decoded × Points) :=
  match words.find? fun word => (Points.ofString word.1).isPrefixOf text with
  | some (word, value) => .ok (value, text.drop word.length)
  | none => scanNumber limits text

mutual

/-- `scan_once`, with more fuel than there are points to read. -/
def scanValue (limits : LoadLimits) : Nat → Nat → Points → Except LoadError (Decoded × Points)
  | 0, _, _ => .error .malformed
  | fuel + 1, depth, text =>
      match text with
      | 34 :: rest => do
          let (text, rest) ← scanString rest
          return (.str text, rest)
      | 123 :: rest => do
          require (depth < limits.depth) .tooDeep
          let (fields, rest) ← match skipSpace rest with
            | 125 :: rest => pure ([], rest)
            | rest => scanFields limits fuel (depth + 1) rest
          -- `_unique_object`.
          require (decide (fields.map Prod.fst).Nodup) .malformed
          return (.obj fields, rest)
      | 91 :: rest => do
          require (depth < limits.depth) .tooDeep
          let (items, rest) ← match skipSpace rest with
            | 93 :: rest => pure ([], rest)
            | rest => scanItems limits fuel (depth + 1) rest
          return (.arr items, rest)
      | text => scanScalar limits text

def scanFields (limits : LoadLimits) : Nat → Nat → Points → Except LoadError (List (Points × Decoded) × Points)
  | 0, _, _ => .error .malformed
  | fuel + 1, depth, text =>
      match text with
      | 34 :: rest => do
          let (key, rest) ← scanString rest
          match skipSpace rest with
          | 58 :: rest => do
              let (value, rest) ← scanValue limits fuel depth (skipSpace rest)
              match skipSpace rest with
              | 44 :: rest => do
                  let (fields, rest) ← scanFields limits fuel depth (skipSpace rest)
                  return ((key, value) :: fields, rest)
              | 125 :: rest => return ([(key, value)], rest)
              | _ => .error .malformed
          | _ => .error .malformed
      | _ => .error .malformed

def scanItems (limits : LoadLimits) : Nat → Nat → Points → Except LoadError (List Decoded × Points)
  | 0, _, _ => .error .malformed
  | fuel + 1, depth, text => do
      let (value, rest) ← scanValue limits fuel depth text
      match skipSpace rest with
      | 44 :: rest => do
          let (items, rest) ← scanItems limits fuel depth (skipSpace rest)
          return (value :: items, rest)
      | 93 :: rest => return ([value], rest)
      | _ => .error .malformed

end

end JsonDecoding

open JsonDecoding in
/-- `json.loads` of bytes, with the hook that refuses repeated keys. -/
def jsonLoads (limits : LoadLimits) (bytes : List UInt8) : Except LoadError Decoded :=
  match decode (bytes.map UInt8.toNat) with
  | none => .error .malformed
  | some text => do
      let (value, rest) ← scanValue limits (2 * text.length + 2) 0 (skipSpace text)
      require (skipSpace rest).isEmpty .malformed
      return value

section Distinct

open JsonDecoding

variable {limits : LoadLimits}

theorem readNumber_distinct {negative : Bool} {digits after rest : Points} {value : Decoded}
    (scanned : readNumber limits negative digits after = .ok (value, rest)) : value.Distinct := by
  unfold readNumber at scanned
  dsimp only at scanned
  split at scanned
  · cases scanned
  · split at scanned
    · cases scanned
      exact .float
    · split at scanned
      · cases scanned
      · cases scanned
        exact .int _

theorem scanScalar_distinct {text rest : Points} {value : Decoded}
    (scanned : scanScalar limits text = .ok (value, rest)) : value.Distinct := by
  unfold scanScalar at scanned
  split at scanned
  · rename_i word value' found
    cases scanned
    have listed := List.mem_of_find?_eq_some found
    simp only [words, List.mem_cons, Prod.mk.injEq, List.not_mem_nil, or_false] at listed
    rcases listed with ⟨_, rfl⟩ | ⟨_, rfl⟩ | ⟨_, rfl⟩ | ⟨_, rfl⟩ | ⟨_, rfl⟩ | ⟨_, rfl⟩
    · exact .null
    · exact .bool true
    · exact .bool false
    all_goals exact .float
  · exact readNumber_distinct scanned

/-- What is scanned repeats no key. -/
theorem scan_distinct (fuel : Nat) :
    (∀ depth text value rest, scanValue limits fuel depth text = .ok (value, rest) → value.Distinct) ∧
      (∀ depth text fields rest, scanFields limits fuel depth text = .ok (fields, rest) →
        ∀ field ∈ fields, field.2.Distinct) ∧
      ∀ depth text items rest, scanItems limits fuel depth text = .ok (items, rest) → ∀ item ∈ items, item.Distinct := by
  induction fuel with
  | zero => simp [scanValue, scanFields, scanItems]
  | succ fuel ih =>
      obtain ⟨values, members, elements⟩ := ih
      refine ⟨?_, ?_, ?_⟩
      · intro depth text value rest scanned
        unfold scanValue at scanned
        split at scanned
        · simp only [bind_eq_ok, pure_eq_ok, Prod.mk.injEq] at scanned
          obtain ⟨_, _, rfl, _⟩ := scanned
          exact .str _
        · obtain ⟨_, _, scanned⟩ := bind_eq_ok.mp scanned
          split at scanned
          · cases scanned
            exact .obj List.nodup_nil (by simp)
          · simp only [bind_eq_ok, require_eq_ok, pure_eq_ok, Prod.mk.injEq] at scanned
            obtain ⟨⟨fields, after⟩, read, _, distinct, rfl, _⟩ := scanned
            exact .obj (of_decide_eq_true distinct) (members _ _ _ _ read)
        · obtain ⟨_, _, scanned⟩ := bind_eq_ok.mp scanned
          split at scanned
          · cases scanned
            exact .arr (by simp)
          · simp only [bind_eq_ok, pure_eq_ok, Prod.mk.injEq] at scanned
            obtain ⟨⟨items, after⟩, read, rfl, _⟩ := scanned
            exact .arr (elements _ _ _ _ read)
        · exact scanScalar_distinct scanned
      · intro depth text fields rest scanned
        unfold scanFields at scanned
        split at scanned
        · obtain ⟨⟨key, after⟩, _, scanned⟩ := bind_eq_ok.mp scanned
          dsimp only at scanned
          split at scanned
          · obtain ⟨⟨value, later⟩, first, scanned⟩ := bind_eq_ok.mp scanned
            have one := values _ _ _ _ first
            dsimp only at scanned
            split at scanned
            · obtain ⟨⟨others, last⟩, more, same⟩ := bind_eq_ok.mp scanned
              cases same
              exact List.forall_mem_cons.mpr ⟨one, members _ _ _ _ more⟩
            · cases scanned
              simpa using one
            · cases scanned
          · cases scanned
        · cases scanned
      · intro depth text items rest scanned
        unfold scanItems at scanned
        obtain ⟨⟨value, later⟩, first, scanned⟩ := bind_eq_ok.mp scanned
        have one := values _ _ _ _ first
        dsimp only at scanned
        split at scanned
        · obtain ⟨⟨others, last⟩, more, same⟩ := bind_eq_ok.mp scanned
          cases same
          exact List.forall_mem_cons.mpr ⟨one, elements _ _ _ _ more⟩
        · cases scanned
          simpa using one
        · cases scanned

/-- What is loaded repeats no key. -/
theorem jsonLoads_distinct {bytes : List UInt8} {value : Decoded} (loaded : jsonLoads limits bytes = .ok value) :
    value.Distinct := by
  unfold jsonLoads at loaded
  split at loaded
  · cases loaded
  · simp only [bind_eq_ok, pure_eq_ok] at loaded
    obtain ⟨⟨value', rest⟩, scanned, _, _, rfl⟩ := loaded
    exact (scan_distinct _).1 _ _ _ _ scanned

end Distinct

end Modelark.Library
