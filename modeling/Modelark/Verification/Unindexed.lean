import Modelark.Verification.Safetensors

/-!
# Weights without an index

The names of a split sequence, which tell how many parts it has, and the fixed header of a GGUF file.
-/

namespace Modelark.Verification

open Library

/-- What the name of a part says: `stem-00001-of-00002.safetensors`. -/
structure SplitName where
  stem : Points
  ext : Points
  part : Nat
  total : Nat
  deriving Repr, DecidableEq

section Names

-- The value of a decimal digit, of any script.
variable (decimal : Nat → Option Nat)

def lowerAscii (point : Nat) : Nat :=
  if 65 ≤ point ∧ point ≤ 90 then point + 32 else point

/-- `re.IGNORECASE`, which takes the long s for an s. -/
def sameLetter (letter point : Nat) : Bool :=
  lowerAscii point = letter || (letter = 115 && point = 383)

def spells (word : String) (text : Points) : Bool :=
  text.length = word.length && (List.zip (Points.ofString word) text).all fun pair => sameLetter pair.1 pair.2

/-- Five digits. -/
def readFive (text : Points) : Option Nat :=
  if text.length = 5 then (text.mapM decimal).map (·.foldl (fun value digit => 10 * value + digit) 0) else none

/-- `_SPLIT_WEIGHT`, for one extension: what stands behind the stem is `-`, five digits, `-of-`, five digits, a dot
    and the extension. -/
def splitAs (ext : String) (filename : Points) : Option SplitName := do
  let cut := filename.length - (16 + ext.length)
  let stem := filename.take cut
  let tail := filename.drop cut
  guard (!stem.isEmpty && !stem.contains 10)
  guard (spells "-" (tail.take 1) && spells "-of-" ((tail.drop 6).take 4) && spells "." ((tail.drop 15).take 1) &&
    spells ext (tail.drop 16))
  let part ← readFive decimal ((tail.drop 1).take 5)
  let total ← readFive decimal ((tail.drop 10).take 5)
  return ⟨stem, (tail.drop 16).map lowerAscii, part, total⟩

def splitWeight (filename : Points) : Option SplitName :=
  splitAs decimal "safetensors" filename <|> splitAs decimal "gguf" filename

/-- The part is one of the sequence that the other is of. -/
def SplitName.sameGroup (split other : SplitName) : Bool :=
  split.stem == other.stem && split.ext == other.ext && split.total == other.total

/-- `_split_sequence_complete`; nothing for names that do not tell. -/
def splitSequenceComplete (filenames : List Points) : Option Bool :=
  let names := filenames.dedup
  if names.isEmpty then some false
  else match names.mapM (splitWeight decimal) with
    | none => if names.length = 1 then some true else none
    | some splits =>
        if splits.any fun split => split.total < 1 then some false
        else some <| splits.all fun split =>
          (1 ≤ split.part && split.part ≤ split.total) &&
            (List.range' 1 split.total).all fun part =>
              splits.any fun other => split.sameGroup other && other.part = part

variable {decimal}

/-- Split names are complete when each of their sequences has exactly its parts. -/
theorem splitSequenceComplete_iff {filenames : List Points} {splits : List SplitName}
    (read : filenames.dedup.mapM (splitWeight decimal) = some splits) (some' : filenames ≠ []) :
    splitSequenceComplete decimal filenames = some true ↔ ∀ split ∈ splits, 1 ≤ split.total ∧
      ∀ part, (∃ other ∈ splits, split.sameGroup other = true ∧ other.part = part) ↔ 1 ≤ part ∧ part ≤ split.total := by
  have names : filenames.dedup.isEmpty = false := by simpa using some'
  have grouped {split other : SplitName} (same : split.sameGroup other = true) : other.total = split.total := by
    simp only [SplitName.sameGroup, Bool.and_eq_true, beq_iff_eq] at same
    exact same.2.symm
  simp only [splitSequenceComplete, names, read, Bool.false_eq_true, if_false]
  constructor
  · intro complete
    split at complete
    · cases complete
    · rename_i counted
      have all := List.all_eq_true.mp (Option.some.inj complete)
      refine fun split listed => ⟨?_, fun part => ⟨?_, ?_⟩⟩
      · have counts := List.any_eq_false.mp (Bool.eq_false_iff.mpr counted) split listed
        simpa [Nat.one_le_iff_ne_zero] using counts
      · rintro ⟨other, among, same, rfl⟩
        have bounds := all other among
        simp only [Bool.and_eq_true, decide_eq_true_eq] at bounds
        rw [← grouped same]
        exact bounds.1
      · rintro ⟨low, high⟩
        have parts := all split listed
        rw [Bool.and_eq_true] at parts
        have found := List.all_eq_true.mp parts.2 part (List.mem_range'_1.mpr ⟨low, by omega⟩)
        simpa using found
  · intro exact'
    rw [if_neg, Option.some.injEq, List.all_eq_true]
    · intro split listed
      obtain ⟨_, parts⟩ := exact' split listed
      have own := (parts split.part).mp ⟨split, listed, by simp [SplitName.sameGroup], rfl⟩
      rw [Bool.and_eq_true]
      refine ⟨by simpa using own, List.all_eq_true.mpr fun part member => ?_⟩
      have bounds := List.mem_range'_1.mp member
      simpa using (parts part).mpr ⟨bounds.1, by omega⟩
    · intro none'
      obtain ⟨split, listed, zero⟩ := List.any_eq_true.mp none'
      have := (exact' split listed).1
      simp only [decide_eq_true_eq] at zero
      omega

-- The second part of two is missing.
example : splitSequenceComplete (fun point => if point < 48 ∨ 57 < point then none else some (point - 48))
    [Points.ofString "m-00001-of-00002.GGUF"] = some false := by decide +kernel

end Names

/-- What the check of a GGUF header says. -/
inductive GgufDetail where
  | invalidFileSize (size : Int64)
  | truncated (read : Nat)
  | badMagic
  | unsupportedVersion (version : Nat)
  | implausibleCounts (tensors pairs : Nat)
  | header (version tensors pairs : Nat)
  deriving Repr, DecidableEq

/-- `check_gguf`. -/
def checkGguf (serve : Nat → Nat → Bytes) (fileSize : Option Int64) : Bool × GgufDetail :=
  match fileSize.filter fun size => size.toInt < 24 with
  | some size => (false, .invalidFileSize size)
  | none =>
      let head := serve 0 24
      let version := littleEndian ((head.drop 4).take 4)
      let tensors := littleEndian ((head.drop 8).take 8)
      let pairs := littleEndian ((head.drop 16).take 8)
      if head.length ≠ 24 then (false, .truncated head.length)
      else if head.take 4 ≠ [71, 71, 85, 70] then (false, .badMagic)
      else if version ≠ 2 ∧ version ≠ 3 then (false, .unsupportedVersion version)
      else if 0 < tensors ∧ tensors < 10000000 ∧ pairs < 1000000 then (true, .header version tensors pairs)
      else (false, .implausibleCounts tensors pairs)

end Modelark.Verification
