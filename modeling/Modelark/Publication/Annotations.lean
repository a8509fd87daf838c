import Modelark.Publication.LocationLog

/-!
# Annotations

The advisory tags of an annex key: cells of a field and a value, of which the latest counts, their grammar, and
what a write and a merge may do to them.
-/

namespace Modelark.Publication

open Library Revision Conversion

/-- `MODEL_FIELDS`. -/
def modelFields : List String := ["model", "format", "quant", "params"]

structure AnnotationCell where
  clock : ℚ
  present : Bool
  deriving DecidableEq

abbrev AnnotationState := Dict (String ×ₗ String) AnnotationCell

instance cellOrder : Std.TransCmp (compare : String ×ₗ String → String ×ₗ String → Ordering) := inferInstance

instance momentOrder :
    Std.TransCmp (compare : String ×ₗ String ×ₗ ℚ → String ×ₗ String ×ₗ ℚ → Ordering) := inferInstance

/-- `_insert`. -/
def insertCell (state : AnnotationState) (pair : String ×ₗ String) (cell : AnnotationCell) :
    Except Failure AnnotationState :=
  match state[pair]? with
  | none => .ok (state.insert pair cell)
  | some previous => do
      require (previous.clock != cell.clock || previous == cell) (refused "PUBLICATION_ANNOTATION_CLOCK_CONFLICT")
      return if previous.clock < cell.clock then state.insert pair cell else state

/-- The alphabet. -/
def base64Chars : List Char :=
  "ABCDEFGHIJKLMNOPQRSTUVWXYZabcdefghijklmnopqrstuvwxyz0123456789+/".toList

def base64Char (value : Nat) : Char :=
  base64Chars.getD value '='

/-- `base64.b64encode`. -/
def encodeBase64 : Bytes → List Char
  | [] => []
  | [a] => [base64Char (a.toNat / 4), base64Char (a.toNat % 4 * 16), '=', '=']
  | [a, b] =>
      [base64Char (a.toNat / 4), base64Char (a.toNat % 4 * 16 + b.toNat / 16), base64Char (b.toNat % 16 * 4), '=']
  | a :: b :: c :: rest =>
      base64Char (a.toNat / 4) :: base64Char (a.toNat % 4 * 16 + b.toNat / 16) ::
        base64Char (b.toNat % 16 * 4 + c.toNat / 64) :: base64Char (c.toNat % 64) :: encodeBase64 rest

/-- The bytes of texts in groups of four characters. -/
def readBase64 : List Char → Bytes
  | a :: b :: c :: d :: rest =>
      let value (c : Char) : Nat := base64Chars.idxOf c
      let first := UInt8.ofNat (value a * 4 + value b / 16)
      if c = '=' then [first]
      else
        let second := UInt8.ofNat (value b % 16 * 16 + value c / 4)
        if d = '=' then [first, second]
        else first :: second :: UInt8.ofNat (value c % 4 * 64 + value d) :: readBase64 rest
  | _ => []

/-- `base64.b64decode(…, validate=True)` of a text that is what its bytes are encoded to. -/
def decodeBase64 (text : List Char) : Option Bytes :=
  if encodeBase64 (readBase64 text) = text then some (readBase64 text) else none

/-- `_FIELD`. -/
def isField : List Char → Bool
  | [] => false
  | first :: rest => 'a' ≤ first && first ≤ 'z' &&
      rest.all fun c => ('a' ≤ c && c ≤ 'z') || ('0' ≤ c && c ≤ '9') || c == '-'

/-- The value of a token after its sign. -/
def annotationValue (encoded : List Char) : Option String :=
  match encoded with
  | '!' :: text => (decodeBase64 text).bind fun raw => String.fromUTF8? ⟨raw.toArray⟩
  | _ => if encoded.all fun c => '!' ≤ c && c ≤ '~' then some (String.ofList encoded) else none

def invalidAnnotation : Failure := refused "PUBLICATION_ANNOTATION_INVALID"

/-- The cells that have been read, and every cell by its clock. -/
structure AnnotationLog where
  state : AnnotationState
  history : Dict (String ×ₗ String ×ₗ ℚ) AnnotationCell

/-- What has been read of a line. -/
structure AnnotationLine where
  log : AnnotationLog
  field : Option String
  hasValue : Bool
  fieldsSeen : List String
  cellsSeen : List (String × String)

/-- One token of a line. -/
def readToken (clock : ℚ) (line : AnnotationLine) (token : List Char) : Except Failure AnnotationLine :=
  if isField token then do
    require (line.field.isNone || line.hasValue) invalidAnnotation
    require (!line.fieldsSeen.contains (String.ofList token)) invalidAnnotation
    return { line with
      field := some (String.ofList token)
      hasValue := false
      fieldsSeen := String.ofList token :: line.fieldsSeen }
  else
    match line.field, token with
    | some field, sign :: encoded => do
        require (!encoded.isEmpty && (sign == '+' || sign == '-')) invalidAnnotation
        match annotationValue encoded with
        | none => .error invalidAnnotation
        | some value => do
            require (value != "" && !value.toList.contains '\x00' && !line.cellsSeen.contains (field, value))
              invalidAnnotation
            let cell : AnnotationCell := ⟨clock, sign == '+'⟩
            let moment := toLex (field, toLex (value, clock))
            require (line.log.history[moment]?.all (· == cell)) (refused "PUBLICATION_ANNOTATION_CLOCK_CONFLICT")
            let state ← insertCell line.log.state (toLex (field, value)) cell
            return { line with
              log := ⟨state, line.log.history.insert moment cell⟩
              hasValue := true
              cellsSeen := (field, value) :: line.cellsSeen }
    | _, _ => .error invalidAnnotation

/-- One line. -/
def readAnnotationLine (log : AnnotationLog) (line : List Char) : Except Failure AnnotationLog :=
  match line.splitOn ' ' with
  | first :: second :: third :: rest =>
      match parseClock first.dropLast with
      | none => .error invalidAnnotation
      | some clock => do
          require (first.getLast? == some 's') invalidAnnotation
          let read ← thread (readToken clock) ⟨log, none, false, [], []⟩ (second :: third :: rest)
          require read.hasValue invalidAnnotation
          return read.log
  | _ => .error invalidAnnotation

/-- `parse_annotations`. -/
def parseAnnotations (data : Bytes) : Except Failure AnnotationState := do
  require (data.isEmpty || data.getLast? == some 10) invalidAnnotation
  match decodeAscii data with
  | none => .error invalidAnnotation
  | some chars => do
      let log ← thread readAnnotationLine ⟨∅, ∅⟩ (chars.splitOn '\n').dropLast
      return log.state

/-- `dict(…)` of assignments. -/
def assigned (assignments : List (String × String)) (field : String) : Option String :=
  (Dict.ofPairs assignments)[field]?

/-- One cell that a write may have changed. -/
def checkWrittenCell (assignments : List (String × String)) (clockCeiling : ℚ) (pair : String ×ₗ String)
    (previous current : Option AnnotationCell) : Except Failure Unit :=
  if previous = current then .ok ()
  else
    match assigned assignments (ofLex pair).1, current with
    | some value, some cell => do
        require (decide (cell.clock ≤ clockCeiling) && previous.all fun old => old.clock < cell.clock)
          (refused "PUBLICATION_ANNOTATION_CLOCK_CONFLICT")
        if cell.present then
          require ((ofLex pair).2 == value) (refused "PUBLICATION_ANNOTATION_UNRELATED_CHANGE")
        else
          require (previous.any AnnotationCell.present && (ofLex pair).2 != value)
            (refused "PUBLICATION_ANNOTATION_UNRELATED_CHANGE")
    | _, _ => .error (refused "PUBLICATION_ANNOTATION_UNRELATED_CHANGE")

/-- The values of a field that are present. -/
def presentValues (state : AnnotationState) (field : String) : List String :=
  state.toList.filterMap fun entry =>
    if (ofLex entry.1).1 = field ∧ entry.2.present = true then some (ofLex entry.1).2 else none

/-- `check_annotation_write`. -/
def checkAnnotationWrite (before after : Bytes) (assignments : List (String × String)) (clockCeiling : ℚ) :
    Except Failure Unit := do
  let old ← parseAnnotations before
  let new ← parseAnnotations after
  require (decide (0 ≤ clockCeiling)) (refused "PUBLICATION_CLOCK_BOUND_INVALID")
  require (!assignments.isEmpty && assignments.all fun assignment =>
      modelFields.contains assignment.1 && assignment.2 != "" && !assignment.2.toList.contains '\x00')
    (refused "PUBLICATION_ANNOTATION_ASSIGNMENT_INVALID")
  thread (fun () pair => checkWrittenCell assignments clockCeiling pair old[pair]? new[pair]?) ()
    (sortedSet (old.keys ++ new.keys))
  thread (fun () assignment => require (presentValues new assignment.1 == [assignment.2])
    (refused "PUBLICATION_ANNOTATION_ASSIGNMENT_MISMATCH")) () assignments

/-- `check_annotation_merge`. -/
def checkAnnotationMerge (baseline admittedSource candidate : Bytes) : Except Failure Unit := do
  let before ← parseAnnotations baseline
  let source ← parseAnnotations admittedSource
  let expected ← thread (fun state entry => insertCell state entry.1 entry.2) before source.toList
  let merged ← parseAnnotations candidate
  require (merged.toList == expected.toList) (refused "PUBLICATION_ANNOTATION_MERGE_MISMATCH")

end Modelark.Publication
