import Modelark.Library.JsonDecoding
import Modelark.Library.Tilings

/-!
# Headers of safetensors files

The check of a header through two ranges of a remote file: which headers are accepted, whatever bytes are served.
-/

namespace Modelark.Verification

open Library

abbrev Bytes := List UInt8

/-- `DTYPE_BITS`. -/
def dtypeBits : List (String × Nat) :=
  [("F64", 64), ("F32", 32), ("F16", 16), ("BF16", 16), ("F8_E4M3", 8), ("F8_E5M2", 8), ("F8_E4M3FN", 8), ("I64", 64),
    ("I32", 32), ("I16", 16), ("I8", 8), ("U8", 8), ("BOOL", 8), ("I4", 4), ("U4", 4)]

def bitsOf (dtype : Points) : Option Nat :=
  (dtypeBits.find? fun entry => Points.ofString entry.1 == dtype).map Prod.snd

/-- What a verdict says. -/
inductive Detail where
  | invalidFileSize (size : Option Int64)
  | truncatedPrefix (read : Nat)
  | implausibleLength (length : Nat)
  | lengthExceedsFile (length : Nat) (size : Int64)
  | truncatedHeader (read length : Nat)
  | invalidJson
  | notAnObject
  | metadataNotStrings
  | noTensors
  | invalidEntry (name : Points)
  | unknownDtype (name : Points)
  | invalidShape (name : Points)
  | invalidOffsets (name : Points)
  | badOffsets (name : Points)
  | sizeMismatch (name : Points) (expected actual : Nat)
  | overlap (name : Points) (place : Nat)
  | gap (name : Points) (place : Nat)
  | uncovered (covered region : Nat)
  | accounted (tensors region : Nat)
  deriving Repr, DecidableEq

structure Verdict where
  ok : Bool
  tensors : List Points
  detail : Detail
  deriving Repr, DecidableEq

/-- Exceptions of a check. -/
inductive Raised where
  /-- A `TypeError`: a list or a dictionary is looked up in a set. -/
  | unhashable
  /-- A `RecursionError`. -/
  | tooDeep
  /-- The `ValueError` of a number with too many digits. -/
  | tooLong
  /-- `AuthRequired`. -/
  | unauthorized
  deriving Repr, DecidableEq

/-- How a check ends early. -/
inductive Stop where
  | refused (tensors : List Points) (detail : Detail)
  | raised (raised : Raised)
  deriving Repr, DecidableEq

def refuse {α : Type} (tensors : List Points) (detail : Detail) : Except Stop α :=
  .error (.refused tensors detail)

/-- A range of the bytes of a tensor. -/
structure TensorRange where
  lo : Nat
  hi : Nat
  name : Points
  deriving Repr, DecidableEq

/-- `struct.unpack("<Q", …)`. -/
def littleEndian (bytes : Bytes) : Nat :=
  bytes.foldr (fun byte value => value * 256 + byte.toNat) 0

section Check

variable (limits : LoadLimits)

/-- The metadata of a header. -/
def metadataOk : Option Decoded → Bool
  | none => true
  | some .null => true
  | some (.obj fields) => fields.all fun field => match field.2 with
    | .str _ => true
    | _ => false
  | some _ => false

/-- The fields of a header that describe tensors. -/
def tensorsOf (fields : List (Points × Decoded)) : List (Points × Decoded) :=
  fields.filter fun field => field.1 != Points.ofString "__metadata__"

/-- `dtype not in KNOWN_ST_DTYPES`. -/
def readDtype : Option Decoded → Except Raised (Option Nat)
  | some (.arr _) => .error .unhashable
  | some (.obj _) => .error .unhashable
  | some (.str dtype) => .ok (bitsOf dtype)
  | _ => .ok none

def readDimension : Decoded → Option Nat
  | .int value => if 0 ≤ value then some value.toNat else none
  | _ => none

def readShape : Option Decoded → Option (List Nat)
  | some (.arr items) => if items.length ≤ 64 then items.mapM readDimension else none
  | _ => none

def readOffsets : Option Decoded → Option (Int × Int)
  | some (.arr [.int lo, .int hi]) => some (lo, hi)
  | _ => none

/-- One tensor of a header. -/
def checkTensor (names : List Points) (region : Nat) (field : Points × Decoded) : Except Stop TensorRange :=
  match field with
  | (name, .obj entry) =>
      if name.isEmpty then refuse names (.invalidEntry name)
      else match readDtype (Decoded.get entry "dtype") with
        | .error raised => .error (.raised raised)
        | .ok none => refuse names (.unknownDtype name)
        | .ok (some bits) =>
            match readShape (Decoded.get entry "shape") with
            | none => refuse names (.invalidShape name)
            | some shape =>
                match readOffsets (Decoded.get entry "data_offsets") with
                | none => refuse names (.invalidOffsets name)
                | some (lo, hi) =>
                    if 0 ≤ lo ∧ lo ≤ hi ∧ hi ≤ region then
                      let expected := (shape.prod * bits + 7) / 8
                      let actual := (hi - lo).toNat
                      if actual = expected then .ok ⟨lo.toNat, hi.toNat, name⟩
                      -- A number that is too long cannot be told.
                      else if limits.digits < (Nat.toDigits 10 expected).length then .error (.raised .tooLong)
                      else refuse names (.sizeMismatch name expected actual)
                    else refuse names (.badOffsets name)
  | (name, _) => refuse names (.invalidEntry name)

/-- The next range, in order. -/
def coverNext (names : List Points) (cursor : Nat) (range : TensorRange) : Except Stop Nat :=
  if range.lo = cursor then .ok range.hi
  else refuse names (if range.lo < cursor then .overlap range.name range.lo else .gap range.name range.lo)

/-- The bytes of a range. -/
def TensorRange.interval (range : TensorRange) : Nat × Nat := (range.lo, range.hi)

/-- The order of ranges. -/
def TensorRange.key (range : TensorRange) : (Nat ×ₗ Nat) ×ₗ Points := toLex (toLex range.interval, range.name)

/-- The bytes of a header, with the bytes of the data behind it. -/
def readHeader (serve : Nat → Nat → Bytes) (fileSize : Option Int64) : Except Stop (Bytes × Nat) := do
  let size ← match fileSize with
    | some size => if 9 ≤ size.toInt then pure size else refuse [] (.invalidFileSize fileSize)
    | none => refuse [] (.invalidFileSize fileSize)
  let lead := serve 0 8
  if lead.length ≠ 8 then refuse [] (.truncatedPrefix lead.length)
  else
    let length := littleEndian lead
    if length = 0 ∨ 200000000 < length then refuse [] (.implausibleLength length)
    else if size.toInt < 8 + length then refuse [] (.lengthExceedsFile length size)
    else
      let encoded := serve 8 length
      if encoded.length ≠ length then refuse [] (.truncatedHeader encoded.length length)
      else return (encoded, size.toInt.toNat - 8 - length)

/-- The tensors of a header. -/
def checkHeader (encoded : Bytes) (region : Nat) : Except Stop Verdict :=
  match jsonLoads limits encoded with
  | .error .malformed => refuse [] .invalidJson
  | .error .tooDeep => .error (.raised .tooDeep)
  | .error .tooLong => .error (.raised .tooLong)
  | .ok (.obj fields) => do
      if !metadataOk (Decoded.get fields "__metadata__") then refuse [] .metadataNotStrings
      else
        let tensors := tensorsOf fields
        let names := tensors.map Prod.fst
        if tensors.isEmpty then refuse [] .noTensors
        else
          let ranges ← tensors.mapM (checkTensor limits names region)
          let cursor ← thread (coverNext names) 0 (sortBy TensorRange.key ranges)
          if cursor ≠ region then refuse names (.uncovered cursor region)
          else return ⟨true, names, .accounted names.length region⟩
  | .ok _ => refuse [] .notAnObject

/-- `check_safetensors`, of the bytes that are served for ranges. -/
def checkSafetensors (serve : Nat → Nat → Bytes) (fileSize : Option Int64) : Except Raised Verdict :=
  match (readHeader serve fileSize >>= fun header => checkHeader limits header.1 header.2) with
  | .ok verdict => .ok verdict
  | .error (.refused tensors detail) => .ok ⟨false, tensors, detail⟩
  | .error (.raised raised) => .error raised

end Check

/-- The dimensions of a shape. -/
def dimensions (shape : List Nat) : List Decoded := shape.map fun dimension : Nat => .int dimension

/-- What a header says of a tensor: a known type, a shape, and offsets as far apart as they demand. -/
def Described (field : Points × Decoded) (range : TensorRange) : Prop :=
  ∃ (entry : List (Points × Decoded)) (dtype : Points) (bits : Nat) (shape : List Nat), field.2 = .obj entry ∧
    Decoded.get entry "dtype" = some (.str dtype) ∧ bitsOf dtype = some bits ∧
    Decoded.get entry "shape" = some (.arr (dimensions shape)) ∧
    Decoded.get entry "data_offsets" = some (.arr [.int range.lo, .int range.hi]) ∧
    range.lo ≤ range.hi ∧ range.hi - range.lo = (shape.prod * bits + 7) / 8 ∧ range.name = field.1

/-- A tensor with a name and not too many dimensions. -/
def Modest (field : Points × Decoded) : Prop :=
  field.1 ≠ [] ∧ ∀ entry items, field.2 = .obj entry → Decoded.get entry "shape" = some (.arr items) →
    items.length ≤ 64

/-- Ranges that, in some order, cover a region exactly. -/
def Partition (ranges : List TensorRange) (region : Nat) : Prop :=
  ∃ order : List TensorRange, order.Perm ranges ∧ Tiles 0 (order.map TensorRange.interval) region

section Tensors

variable {limits : LoadLimits} {names : List Points} {region : Nat} {field : Points × Decoded} {range : TensorRange}

theorem mapM_readDimension_eq_some {items : List Decoded} {shape : List Nat} :
    items.mapM readDimension = some shape ↔ items = dimensions shape := by
  induction items generalizing shape with
  | nil => cases shape <;> simp [dimensions]
  | cons item items ih =>
      rw [List.mapM_cons]
      constructor
      · intro read
        simp only [Option.bind_eq_bind, Option.bind_eq_some_iff, Option.pure_def, Option.some.injEq] at read
        obtain ⟨first, one, rest, others, rfl⟩ := read
        rw [ih.mp others]
        cases item with
        | int value =>
            by_cases natural : 0 ≤ value
            · obtain rfl : value.toNat = first := by simpa [readDimension, natural] using one
              simp [dimensions, Int.toNat_of_nonneg natural]
            · simp [readDimension, natural] at one
        | _ => cases one
      · intro same
        cases shape with
        | nil => cases same
        | cons first rest =>
            obtain ⟨rfl, rest'⟩ := List.cons.inj same
            simp [readDimension, ih.mpr rest']

theorem readShape_eq_some {value : Option Decoded} {shape : List Nat} :
    readShape value = some shape ↔
      value = some (.arr (dimensions shape)) ∧ shape.length ≤ 64 := by
  constructor
  · intro read
    unfold readShape at read
    split at read
    · split at read
      · rename_i items short
        have same := mapM_readDimension_eq_some.mp read
        rw [same, dimensions, List.length_map] at short
        exact ⟨by rw [same], short⟩
      · cases read
    · cases read
  · rintro ⟨rfl, short⟩
    have short' : (dimensions shape).length ≤ 64 := by rwa [dimensions, List.length_map]
    rw [readShape, if_pos short']
    exact mapM_readDimension_eq_some.mpr rfl

theorem readOffsets_eq_some {value : Option Decoded} {lo hi : Int} :
    readOffsets value = some (lo, hi) ↔ value = some (.arr [.int lo, .int hi]) := by
  constructor
  · intro read
    unfold readOffsets at read
    split at read
    · cases read
      rfl
    · cases read
  · rintro rfl
    rfl

theorem readDtype_eq_ok {value : Option Decoded} {bits : Nat} :
    readDtype value = .ok (some bits) ↔ ∃ dtype, value = some (.str dtype) ∧ bitsOf dtype = some bits := by
  constructor
  · intro read
    unfold readDtype at read
    split at read
    · cases read
    · cases read
    · rename_i dtype
      exact ⟨dtype, rfl, Except.ok.inj read⟩
    · cases read
  · rintro ⟨dtype, rfl, known⟩
    rw [readDtype, known]

theorem checkTensor_eq_ok : checkTensor limits names region field = .ok range ↔
    Described field range ∧ Modest field ∧ range.hi ≤ region := by
  obtain ⟨name, value⟩ := field
  constructor
  · intro checked
    unfold checkTensor at checked
    split at checked
    · rename_i name' entry same
      obtain ⟨rfl, rfl⟩ := Prod.mk.inj same
      split at checked
      · cases checked
      · rename_i named
        split at checked
        · cases checked
        · cases checked
        · rename_i bits typed
          split at checked
          · cases checked
          · rename_i shape shaped
            split at checked
            · cases checked
            · rename_i lo hi placed
              split at checked
              · rename_i ordered
                dsimp only at checked
                split at checked
                · rename_i fits
                  cases checked
                  obtain ⟨dtype, found, known⟩ := readDtype_eq_ok.mp typed
                  obtain ⟨shaped, short⟩ := readShape_eq_some.mp shaped
                  have offsets := readOffsets_eq_some.mp placed
                  obtain ⟨positive, less, within⟩ := ordered
                  have lo' : ((lo.toNat : Nat) : Int) = lo := Int.toNat_of_nonneg positive
                  have hi' : ((hi.toNat : Nat) : Int) = hi := Int.toNat_of_nonneg (positive.trans less)
                  refine ⟨⟨entry, dtype, bits, shape, rfl, found, known, shaped, ?_, ?_, ?_, rfl⟩, ⟨?_, ?_⟩, ?_⟩
                  · rw [lo', hi']
                    exact offsets
                  · simp only
                    omega
                  · simp only
                    omega
                  · simpa using named
                  · intro entry' items same found'
                    cases same
                    cases shaped.symm.trans found'
                    simpa [dimensions] using short
                  · simp only
                    omega
                · split at checked <;> cases checked
              · cases checked
    · cases checked
  · rintro ⟨⟨entry, dtype, bits, shape, rfl, found, known, shaped, offsets, less, fits, same⟩, modest, within⟩
    obtain ⟨lo, hi, name'⟩ := range
    obtain rfl : name' = name := same
    have short := modest.2 entry _ rfl shaped
    have named : name'.isEmpty = false := by simpa using modest.1
    have shape' := readShape_eq_some.mpr ⟨shaped, by simpa [dimensions] using short⟩
    have offsets' := readOffsets_eq_some.mpr offsets
    have type' := readDtype_eq_ok.mpr ⟨dtype, found, known⟩
    dsimp only at less fits within
    have ordered : 0 ≤ (lo : Int) ∧ (lo : Int) ≤ hi ∧ (hi : Int) ≤ region := by omega
    have actual : ((hi : Int) - lo).toNat = (shape.prod * bits + 7) / 8 := by omega
    simp [checkTensor, named, type', shape', offsets', ordered, actual]

theorem checkTensors_eq_ok {fields : List (Points × Decoded)} {ranges : List TensorRange} :
    fields.mapM (checkTensor limits names region) = .ok ranges ↔
      List.Forall₂ Described fields ranges ∧ (∀ field ∈ fields, Modest field) ∧ ∀ range ∈ ranges, range.hi ≤ region := by
  induction fields generalizing ranges with
  | nil =>
      rw [List.mapM_nil, pure_eq_ok, List.forall₂_nil_left_iff]
      constructor
      · rintro rfl
        simp
      · exact fun all => all.1.symm
  | cons field fields ih =>
      rw [List.mapM_cons]
      simp only [bind_eq_ok, pure_eq_ok, checkTensor_eq_ok, ih]
      constructor
      · rintro ⟨range, ⟨described, modest, within⟩, ranges, ⟨rest, modest', within'⟩, rfl⟩
        exact ⟨.cons described rest, List.forall_mem_cons.mpr ⟨modest, modest'⟩,
          List.forall_mem_cons.mpr ⟨within, within'⟩⟩
      · rintro ⟨all, modest, within⟩
        cases all with
        | cons described rest =>
            have modests := List.forall_mem_cons.mp modest
            have withins := List.forall_mem_cons.mp within
            exact ⟨_, ⟨described, modests.1, withins.1⟩, _, ⟨rest, modests.2, withins.2⟩, rfl⟩

theorem cover_eq_ok {ranges : List TensorRange} {cursor : Nat} :
    thread (coverNext names) cursor ranges = .ok region ↔ Tiles cursor (ranges.map TensorRange.interval) region := by
  induction ranges generalizing cursor with
  | nil => simp [Tiles]
  | cons range ranges ih =>
      rw [thread_cons, List.map_cons]
      by_cases next : range.lo = cursor
      · simpa [coverNext, next, Tiles, TensorRange.interval] using ih
      · simp [coverNext, next, Tiles, TensorRange.interval, refuse]

/-- Ranges cover a region exactly when they do so in order. -/
theorem partition_iff {ranges : List TensorRange} (ordered : ∀ range ∈ ranges, range.lo ≤ range.hi) :
    Partition ranges region ↔
      Tiles 0 ((sortBy TensorRange.key ranges).map TensorRange.interval) region := by
  constructor
  · rintro ⟨order, permuted, tiles⟩
    refine tiles.of_perm (((sortBy_perm _ _).trans permuted.symm).map _) ?_ ?_
    · intro interval member
      obtain ⟨range, listed, rfl⟩ := List.mem_map.mp member
      exact ordered range (permuted.mem_iff.mp listed)
    · rw [List.pairwise_map]
      refine (pairwise_sortBy TensorRange.key ranges).imp fun below => ?_
      exact (Prod.Lex.monotone_fst _ _ below :)
  · intro tiles
    exact ⟨_, sortBy_perm _ _, tiles⟩

theorem ascending_of_described {fields : List (Points × Decoded)} {ranges : List TensorRange}
    (described : List.Forall₂ Described fields ranges) : ∀ range ∈ ranges, range.lo ≤ range.hi := by
  induction described with
  | nil => simp
  | cons first _ ih =>
      obtain ⟨_, _, _, _, _, _, _, _, _, less, _⟩ := first
      exact List.forall_mem_cons.mpr ⟨less, ih⟩

/-- A range of a partition ends within the region. -/
theorem Partition.within {ranges : List TensorRange} (partition : Partition ranges region)
    (ascending : ∀ range ∈ ranges, range.lo ≤ range.hi) : ∀ range ∈ ranges, range.hi ≤ region := by
  obtain ⟨order, permuted, tiles⟩ := partition
  have intervals : ∀ interval ∈ order.map TensorRange.interval, interval.1 ≤ interval.2 := by
    intro interval member
    obtain ⟨range, listed, rfl⟩ := List.mem_map.mp member
    exact ascending range (permuted.mem_iff.mp listed)
  intro range member
  exact ((tiles.bounds intervals).2 _ (List.mem_map_of_mem (permuted.mem_iff.mpr member))).2

end Tensors

/-- A map of texts, or nothing. -/
def StringMap : Option Decoded → Prop
  | none => True
  | some (.obj fields) => ∀ field ∈ fields, ∃ text, field.2 = .str text
  | some _ => False

/-- A file of which the bytes of a whole header, one object, were served. -/
structure Served (limits : LoadLimits) (serve : Nat → Nat → Bytes) (fileSize : Option Int64)
    (fields : List (Points × Decoded)) (region : Nat) : Prop where
  whole : (serve 0 8).length = 8 ∧ (serve 8 (littleEndian (serve 0 8))).length = littleEndian (serve 0 8)
  bounded : 0 < littleEndian (serve 0 8) ∧ littleEndian (serve 0 8) ≤ 200000000
  sized : ∃ size : Int64, fileSize = some size ∧ 9 ≤ size.toInt ∧ 8 + littleEndian (serve 0 8) + region = size.toInt
  loaded : jsonLoads limits (serve 8 (littleEndian (serve 0 8))) = .ok (.obj fields)

/-- A header that is accepted, and the names of its tensors. -/
structure Accepted (limits : LoadLimits) (serve : Nat → Nat → Bytes) (fileSize : Option Int64) (names : List Points) :
    Prop where
  header : ∃ fields region ranges, Served limits serve fileSize fields region ∧ (Decoded.obj fields).Distinct ∧
    (StringMap (Decoded.get fields "__metadata__") ∨ Decoded.get fields "__metadata__" = some .null) ∧
    List.Forall₂ Described (tensorsOf fields) ranges ∧ Partition ranges region ∧
    (∀ field ∈ tensorsOf fields, Modest field) ∧ tensorsOf fields ≠ [] ∧ (tensorsOf fields).map Prod.fst = names

section Headers

variable {limits : LoadLimits} {serve : Nat → Nat → Bytes} {fileSize : Option Int64}

theorem metadataOk_iff {metadata : Option Decoded} :
    metadataOk metadata = true ↔ StringMap metadata ∨ metadata = some .null := by
  cases metadata with
  | none => simp [metadataOk, StringMap]
  | some value =>
      cases value with
      | obj fields =>
          simp only [metadataOk, StringMap, List.all_eq_true, reduceCtorEq, Option.some.injEq, or_false]
          refine forall₂_congr fun field _ => ?_
          cases field.2 <;> simp
      | _ => simp [metadataOk, StringMap]

theorem readHeader_eq_ok {encoded : Bytes} {region : Nat} : readHeader serve fileSize = .ok (encoded, region) ↔
    (serve 0 8).length = 8 ∧ encoded = serve 8 (littleEndian (serve 0 8)) ∧
      encoded.length = littleEndian (serve 0 8) ∧ 0 < littleEndian (serve 0 8) ∧ littleEndian (serve 0 8) ≤ 200000000 ∧
      ∃ size : Int64, fileSize = some size ∧ 9 ≤ size.toInt ∧ 8 + littleEndian (serve 0 8) + region = size.toInt := by
  constructor
  · intro read
    unfold readHeader at read
    split at read
    · rename_i size
      split at read
      · rename_i long
        simp only [pure_bind] at read
        split at read
        · cases read
        · rename_i lead
          split at read
          · cases read
          · rename_i bounds
            split at read
            · cases read
            · rename_i fits
              split at read
              · cases read
              · rename_i whole
                cases read
                push Not at lead bounds whole
                refine ⟨lead, rfl, whole, by omega, by omega, size, rfl, long, ?_⟩
                omega
      · cases read
    · cases read
  · rintro ⟨lead, rfl, whole, positive, bounded, size, rfl, long, sum⟩
    have fits : ¬size.toInt < 8 + littleEndian (serve 0 8) := by omega
    have bounds : ¬(littleEndian (serve 0 8) = 0 ∨ 200000000 < littleEndian (serve 0 8)) := by omega
    have rest : size.toNatClampNeg - 8 - littleEndian (serve 0 8) = region := by
      have same : size.toNatClampNeg = size.toInt.toNat := rfl
      omega
    simp [readHeader, lead, whole, long, fits, bounds, rest]

theorem checkHeader_eq_ok {encoded : Bytes} {region : Nat} {verdict : Verdict} :
    checkHeader limits encoded region = .ok verdict ↔ ∃ fields ranges, jsonLoads limits encoded = .ok (.obj fields) ∧
      (StringMap (Decoded.get fields "__metadata__") ∨ Decoded.get fields "__metadata__" = some .null) ∧
      List.Forall₂ Described (tensorsOf fields) ranges ∧ Partition ranges region ∧
      (∀ field ∈ tensorsOf fields, Modest field) ∧ tensorsOf fields ≠ [] ∧
      verdict = ⟨true, (tensorsOf fields).map Prod.fst, .accounted (tensorsOf fields).length region⟩ := by
  constructor
  · intro checked
    unfold checkHeader at checked
    split at checked
    · cases checked
    · cases checked
    · cases checked
    · rename_i fields loaded
      split at checked
      · cases checked
      · rename_i metadata
        dsimp only at checked
        split at checked
        · cases checked
        · rename_i some'
          obtain ⟨ranges, read, checked⟩ := bind_eq_ok.mp checked
          obtain ⟨cursor, covered, checked⟩ := bind_eq_ok.mp checked
          split at checked
          · cases checked
          · rename_i whole
            push Not at whole
            subst whole
            cases checked
            obtain ⟨described, modest, _⟩ := checkTensors_eq_ok.mp read
            have partition := (partition_iff (ascending_of_described described)).mpr (cover_eq_ok.mp covered)
            refine ⟨fields, ranges, loaded, metadataOk_iff.mp (by simpa using metadata), described, partition, modest, ?_, ?_⟩
            · simpa using some'
            · rw [List.length_map]
    · cases checked
  · rintro ⟨fields, ranges, loaded, metadata, described, partition, modest, some', rfl⟩
    have ascending := ascending_of_described described
    have read : (tensorsOf fields).mapM (checkTensor limits ((tensorsOf fields).map Prod.fst) region) = .ok ranges :=
      checkTensors_eq_ok.mpr ⟨described, modest, partition.within ascending⟩
    have covered : thread (coverNext ((tensorsOf fields).map Prod.fst)) 0 (sortBy TensorRange.key ranges) = .ok region :=
      cover_eq_ok.mpr ((partition_iff ascending).mp partition)
    have metadata' := metadataOk_iff.mpr metadata
    simp [checkHeader, loaded, metadata', some', read, covered]

/-- A header is accepted exactly when it describes a partition of the data behind it. -/
theorem check_iff_accepted {names : List Points} :
    (∃ detail, checkSafetensors limits serve fileSize = .ok ⟨true, names, detail⟩) ↔
      Accepted limits serve fileSize names := by
  have passed (detail : Detail) : checkSafetensors limits serve fileSize = .ok ⟨true, names, detail⟩ ↔
      ∃ header, readHeader serve fileSize = .ok header ∧
        checkHeader limits header.1 header.2 = .ok ⟨true, names, detail⟩ := by
    rw [← bind_eq_ok, checkSafetensors]
    split
    · rename_i verdict same
      rw [same]
      simp
    · rename_i same
      rw [same]
      simp
    · rename_i same
      rw [same]
      simp
  constructor
  · rintro ⟨detail, accepted⟩
    obtain ⟨⟨encoded, region⟩, read, checked⟩ := (passed detail).mp accepted
    obtain ⟨lead, rfl, whole, positive, bounded, sized⟩ := readHeader_eq_ok.mp read
    obtain ⟨fields, ranges, loaded, metadata, described, partition, modest, some', same⟩ := checkHeader_eq_ok.mp checked
    cases same
    exact ⟨fields, region, ranges, ⟨⟨lead, whole⟩, ⟨positive, bounded⟩, sized, loaded⟩, jsonLoads_distinct loaded,
      metadata, described, partition, modest, some', rfl⟩
  · rintro ⟨fields, region, ranges, served, _, metadata, described, partition, modest, some', rfl⟩
    have read := readHeader_eq_ok.mpr ⟨served.whole.1, rfl, served.whole.2, served.bounded.1, served.bounded.2,
      served.sized⟩
    have checked := checkHeader_eq_ok.mpr ⟨fields, ranges, served.loaded, metadata, described, partition, modest, some',
      rfl⟩
    exact ⟨_, (passed _).mpr ⟨_, read, checked⟩⟩

end Headers

/-- A header without a verdict: one that the interpreter cannot read, a type that is a list or an object, or a size
    with too many digits to be told. -/
inductive Unjudged (limits : LoadLimits) (serve : Nat → Nat → Bytes) (fileSize : Option Int64) : Prop
  | deep (unread : jsonLoads limits (serve 8 (littleEndian (serve 0 8))) = .error .tooDeep)
  | long (unread : jsonLoads limits (serve 8 (littleEndian (serve 0 8))) = .error .tooLong)
  | unhashable {fields : List (Points × Decoded)} {region : Nat} {field : Points × Decoded}
      {entry : List (Points × Decoded)} {dtype : Decoded} (served : Served limits serve fileSize fields region)
      (listed : field ∈ tensorsOf fields) (described : field.2 = .obj entry)
      (typed : Decoded.get entry "dtype" = some dtype)
      (nested : (∃ items, dtype = .arr items) ∨ ∃ fields, dtype = .obj fields)
  | untold {fields : List (Points × Decoded)} {region : Nat} {field : Points × Decoded}
      {entry : List (Points × Decoded)} {dtype : Points} {bits : Nat} {shape : List Nat}
      (served : Served limits serve fileSize fields region) (listed : field ∈ tensorsOf fields)
      (described : field.2 = .obj entry) (typed : Decoded.get entry "dtype" = some (.str dtype))
      (known : bitsOf dtype = some bits) (shaped : Decoded.get entry "shape" = some (.arr (dimensions shape)))
      (long : limits.digits < (Nat.toDigits 10 ((shape.prod * bits + 7) / 8)).length)

section Verdicts

variable {limits : LoadLimits} {serve : Nat → Nat → Bytes} {fileSize : Option Int64} {names : List Points}
  {region : Nat} {raised : Raised}

theorem readDtype_eq_error {value : Option Decoded} (unread : readDtype value = .error raised) :
    ∃ dtype, value = some dtype ∧ ((∃ items, dtype = .arr items) ∨ ∃ fields, dtype = .obj fields) := by
  unfold readDtype at unread
  split at unread
  · exact ⟨_, rfl, .inl ⟨_, rfl⟩⟩
  · exact ⟨_, rfl, .inr ⟨_, rfl⟩⟩
  · cases unread
  · cases unread

theorem unjudged_of_tensor {fields : List (Points × Decoded)} {field : Points × Decoded}
    (served : Served limits serve fileSize fields region) (listed : field ∈ tensorsOf fields)
    (stopped : checkTensor limits names region field = .error (.raised raised)) : Unjudged limits serve fileSize := by
  obtain ⟨name, value⟩ := field
  unfold checkTensor at stopped
  split at stopped
  · rename_i name' entry same
    obtain ⟨rfl, rfl⟩ := Prod.mk.inj same
    split at stopped
    · cases stopped
    · split at stopped
      · rename_i unread
        obtain ⟨dtype, typed, nested⟩ := readDtype_eq_error unread
        exact .unhashable served listed rfl typed nested
      · cases stopped
      · rename_i bits typed
        split at stopped
        · cases stopped
        · rename_i shape shaped
          split at stopped
          · cases stopped
          · split at stopped
            · dsimp only at stopped
              split at stopped
              · cases stopped
              · split at stopped
                · rename_i long
                  obtain ⟨dtype, found, known⟩ := readDtype_eq_ok.mp typed
                  exact .untold served listed rfl found known (readShape_eq_some.mp shaped).1 long
                · cases stopped
            · cases stopped
  · cases stopped

theorem coverNext_refuses {cursor : Nat} {range : TensorRange} :
    coverNext names cursor range ≠ .error (.raised raised) := by
  unfold coverNext refuse
  split <;> simp

theorem readHeader_refuses : readHeader serve fileSize ≠ .error (.raised raised) := by
  intro stopped
  unfold readHeader at stopped
  split at stopped
  · split at stopped
    · simp only [pure_bind] at stopped
      split_ifs at stopped <;> cases stopped
    · cases stopped
  · cases stopped

/-- Only such headers have no verdict. -/
theorem unjudged_of_raised (stopped : checkSafetensors limits serve fileSize = .error raised) :
    Unjudged limits serve fileSize := by
  unfold checkSafetensors at stopped
  split at stopped
  · cases stopped
  · cases stopped
  · rename_i ended
    cases stopped
    rcases bind_eq_error.mp ended with unread | ⟨⟨encoded, region⟩, read, checked⟩
    · exact absurd unread readHeader_refuses
    · obtain ⟨lead, rfl, whole, positive, bounded, sized⟩ := readHeader_eq_ok.mp read
      unfold checkHeader at checked
      split at checked
      · cases checked
      · rename_i deep
        exact .deep deep
      · rename_i long
        exact .long long
      · rename_i fields loaded
        have served : Served limits serve fileSize fields region :=
          ⟨⟨lead, whole⟩, ⟨positive, bounded⟩, sized, loaded⟩
        split at checked
        · cases checked
        · dsimp only at checked
          split at checked
          · cases checked
          · rcases bind_eq_error.mp checked with tensor | ⟨ranges, _, checked⟩
            · obtain ⟨field, listed, stops⟩ := exists_of_mapM_error tensor
              exact unjudged_of_tensor served listed stops
            · rcases bind_eq_error.mp checked with range | ⟨cursor, _, last⟩
              · obtain ⟨_, _, _, stops⟩ := exists_of_thread_error range
                exact absurd stops coverNext_refuses
              · split at last <;> cases last
      · cases checked

end Verdicts

/-- What was asked of a header: one object without repeated keys, a string map, and tensors that are described and
    partition the data. -/
structure Asked (limits : LoadLimits) (serve : Nat → Nat → Bytes) (fileSize : Option Int64) : Prop where
  header : ∃ fields region ranges, Served limits serve fileSize fields region ∧ (Decoded.obj fields).Distinct ∧
    StringMap (Decoded.get fields "__metadata__") ∧ List.Forall₂ Described (tensorsOf fields) ranges ∧
    Partition ranges region

/-- A header without tensors is refused. -/
theorem asked_without_tensors : ¬∀ (limits : LoadLimits) (serve : Nat → Nat → Bytes) (fileSize : Option Int64),
    (∃ names detail, checkSafetensors limits serve fileSize = .ok ⟨true, names, detail⟩) ↔
      Asked limits serve fileSize := by
  intro claimed
  let serve (start _ : Nat) : Bytes := if start = 0 then [2, 0, 0, 0, 0, 0, 0, 0] else [123, 125]
  have refused : checkSafetensors ⟨8, 640⟩ serve (some 10) = .ok ⟨false, [], .noTensors⟩ := by decide +kernel
  have loaded : jsonLoads ⟨8, 640⟩ [123, 125] = .ok (.obj []) := by rfl
  have served : Served ⟨8, 640⟩ serve (some 10) [] 0 :=
    ⟨⟨by decide, by decide⟩, ⟨by decide, by decide⟩, ⟨10, rfl, by decide, by decide⟩, loaded⟩
  obtain ⟨names, detail, accepted⟩ := (claimed ⟨8, 640⟩ serve (some 10)).mpr
    ⟨[], 0, [], served, jsonLoads_distinct loaded, trivial, .nil, ⟨[], .nil, rfl⟩⟩
  rw [refused] at accepted
  cases accepted

end Modelark.Verification
