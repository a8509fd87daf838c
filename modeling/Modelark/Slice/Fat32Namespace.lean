import Modelark.Slice.StoredPlans

/-!
# Namespaces of FAT32 layouts

A layout is checked in one pass over its paths. It is accepted exactly when its names are names of a FAT32
filesystem, its files and directories are apart where case does not count, and its paths are not too long.
-/

namespace Modelark.Slice.Domain

open Library Proposal Archive
open Conversion (parts parts_ne_nil parts_append parts_of_notMem)

namespace Fat32Layout

/-- A name that is one component. -/
def Plain (name : String) : Prop := '/' ∉ name.toList

/-- Names of which the case does not count. -/
def folded (names : List String) : List String := names.map lowerAscii

section Texts

variable {names others : List String} {name : String}

theorem parts_intercalate (plain : ∀ name ∈ names, Plain name) (some' : names ≠ []) :
    parts ("/".intercalate names) = names := by
  have apart : ∀ chars ∈ names.map String.toList, '/' ∉ chars := by
    intro chars member
    obtain ⟨name, listed, rfl⟩ := List.mem_map.mp member
    exact plain name listed
  rw [parts, String.toList_intercalate, show "/".toList = ['/'] from rfl,
    List.splitOn_intercalate '/' apart (by simpa using some'), List.map_map]
  simp [Function.comp_def]

theorem not_mem_splitOn {separator : Char} {chars piece : List Char} (member : piece ∈ chars.splitOn separator) :
    separator ∉ piece := by
  induction chars generalizing piece with
  | nil =>
      rw [List.splitOn_nil, List.mem_singleton] at member
      rw [member]
      exact List.not_mem_nil
  | cons c chars ih =>
      rw [List.splitOn_cons_eq_if_modifyHead] at member
      split at member
      · rcases List.mem_cons.mp member with rfl | later
        · exact List.not_mem_nil
        · exact ih later
      · rename_i other
        cases split : chars.splitOn separator with
        | nil => exact absurd split (List.splitOn_ne_nil _ _)
        | cons first rest =>
            rw [split, List.modifyHead_cons] at member
            rcases List.mem_cons.mp member with rfl | later
            · have apart := ih (split ▸ List.mem_cons_self)
              simp only [List.mem_cons, not_or]
              exact ⟨fun same => other (by simp [same]), apart⟩
            · exact ih (split ▸ List.mem_cons_of_mem _ later)

theorem plain_of_parts {path : String} (member : name ∈ parts path) : Plain name := by
  obtain ⟨chars, among, rfl⟩ := List.mem_map.mp member
  rw [Plain, String.toList_ofList]
  exact not_mem_splitOn among

theorem intercalate_parts (path : String) : "/".intercalate (parts path) = path := by
  apply String.toList_injective
  rw [String.toList_intercalate, parts, List.map_map]
  simp [Function.comp_def, List.intercalate_splitOn]

theorem lowerAscii_append (left right : String) : lowerAscii (left ++ right) = lowerAscii left ++ lowerAscii right := by
  simp [lowerAscii]

theorem lowerAscii_intercalate (names : List String) :
    lowerAscii ("/".intercalate names) = "/".intercalate (folded names) := by
  induction names with
  | nil => rfl
  | cons name names ih =>
      cases names with
      | nil => simp [folded]
      | cons next names =>
          rw [String.intercalate_cons_cons, lowerAscii_append, lowerAscii_append, ih]
          exact (String.intercalate_cons_cons).symm

theorem toLower_ne_slash {c : Char} (other : c ≠ '/') : c.toLower ≠ '/' := by
  unfold Char.toLower
  split
  · rename_i upper
    intro same
    obtain ⟨low, high⟩ := upper
    have sum := congrArg (fun c : Char => c.val.toNat) same
    simp only [ge_iff_le, UInt32.le_iff_toNat_le, UInt32.toNat_add] at low high sum
    have least : 'A'.val.toNat = 65 := by decide
    have bound : 'Z'.val.toNat = 90 := by decide
    have slash : '/'.val.toNat = 47 := by decide
    have step : ('a'.val - 'A'.val).toNat = 32 := by decide
    omega
  · exact other

theorem Plain.lowerAscii (plain : Plain name) : Plain (lowerAscii name) := by
  rw [Plain, Fat32Layout.lowerAscii, String.toList_ofList]
  intro member
  obtain ⟨c, among, lowered⟩ := List.mem_map.mp member
  exact toLower_ne_slash (fun same => plain (same ▸ among)) lowered

/-- Paths of which the case does not count are the same when their names are. -/
theorem lowerAscii_eq_iff (plain : ∀ name ∈ names, Plain name) (plain' : ∀ name ∈ others, Plain name)
    (some' : names ≠ []) (some'' : others ≠ []) :
    lowerAscii ("/".intercalate names) = lowerAscii ("/".intercalate others) ↔ folded names = folded others := by
  rw [lowerAscii_intercalate, lowerAscii_intercalate]
  constructor
  · intro same
    have lowered {names : List String} (plain : ∀ name ∈ names, Plain name) :
        ∀ name ∈ folded names, Plain name := by
      intro name member
      obtain ⟨old, listed, rfl⟩ := List.mem_map.mp member
      exact (plain old listed).lowerAscii
    have split := congrArg parts same
    rwa [parts_intercalate (lowered plain) (by simpa [folded] using some'),
      parts_intercalate (lowered plain') (by simpa [folded] using some'')] at split
  · exact congrArg _

end Texts

/-- Two entries whose case does not tell them apart are one directory. -/
def Agree (one other : String × Bool) : Prop :=
  lowerAscii one.1 = lowerAscii other.1 → one = other ∧ other.2 = false

section Pass

variable {spaces next entries : List (String × Bool)} {entry : String × Bool}

theorem admitEntry_eq_ok (agree : spaces.Pairwise Agree) :
    admitEntry spaces entry = .ok next ↔ spaces ++ [entry] = next ∧ ∀ other ∈ spaces, Agree other entry := by
  have alike : ∀ one ∈ spaces, ∀ other ∈ spaces, lowerAscii one.1 = lowerAscii other.1 → one = other := by
    intro one member other member'
    have forward : spaces.Pairwise fun one other => lowerAscii one.1 = lowerAscii other.1 → one = other :=
      agree.imp fun both equal => (both equal).1
    have backward : spaces.Pairwise (flip fun one other => lowerAscii one.1 = lowerAscii other.1 → one = other) :=
      agree.imp fun both equal => (both equal.symm).1.symm
    exact forward.forall_of_forall_of_flip (fun _ _ _ => rfl) backward member member'
  simp only [admitEntry, bind_eq_ok, require_eq_ok, pure_eq_ok]
  rw [exists_const, and_comm]
  apply and_congr_right
  intro _
  constructor
  · intro first other member same
    cases found : spaces.find? fun other => lowerAscii other.1 == lowerAscii entry.1 with
    | none =>
        have absent := List.find?_eq_none.mp found other member
        exact absurd same (by simpa using absent)
    | some earliest =>
        have keyed : lowerAscii earliest.1 = lowerAscii entry.1 := by simpa using List.find?_some found
        have equal := alike other member earliest (List.mem_of_find?_eq_some found) (same.trans keyed.symm)
        simpa [found, equal] using first
  · intro all
    cases found : spaces.find? fun other => lowerAscii other.1 == lowerAscii entry.1 with
    | none => rfl
    | some earliest =>
        have keyed : lowerAscii earliest.1 = lowerAscii entry.1 := by simpa using List.find?_some found
        simpa using all earliest (List.mem_of_find?_eq_some found) keyed

/-- Entries join a namespace exactly when no two of them disagree. -/
theorem thread_admitEntry (agree : spaces.Pairwise Agree) :
    thread admitEntry spaces entries = .ok next ↔
      spaces ++ entries = next ∧ (spaces ++ entries).Pairwise Agree := by
  induction entries generalizing spaces with
  | nil => simpa using fun _ => agree
  | cons entry entries ih =>
      rw [thread_cons, bind_eq_ok]
      constructor
      · rintro ⟨middle, first, rest⟩
        obtain ⟨rfl, apart⟩ := (admitEntry_eq_ok agree).mp first
        have grown : (spaces ++ [entry]).Pairwise Agree := by
          simpa [List.pairwise_append, agree] using fun path kind member => apart (path, kind) member
        simpa using (ih grown).mp rest
      · rintro ⟨rfl, all⟩
        have split : spaces ++ entry :: entries = spaces ++ [entry] ++ entries := by simp
        rw [split] at all
        have grown := (List.pairwise_append.mp all).1
        refine ⟨spaces ++ [entry], (admitEntry_eq_ok agree).mpr ⟨rfl, fun other member => ?_⟩,
          (ih grown).mpr ⟨split.symm, all⟩⟩
        exact (List.pairwise_append.mp grown).2.2 other member entry (List.mem_singleton_self _)

end Pass

/-- Neither path is the other or above it, and directories that case does not tell apart are the same, where case
    does not count. -/
def Clear (one other : List String) : Prop :=
  ¬folded one <+: folded other ∧ ¬folded other <+: folded one ∧
    ∀ count, folded (one.take count) = folded (other.take count) → one.take count = other.take count

section Paths

variable {one other path : String}

theorem mem_entriesOf {entry : String × Bool} : entry ∈ entriesOf path ↔ ∃ place < (parts path).length,
    entry = ("/".intercalate ((parts path).take (place + 1)), place + 1 == (parts path).length) := by
  simp [entriesOf, eq_comm]

theorem plain_take {count : Nat} : ∀ name ∈ (parts path).take count, Plain name :=
  fun _ member => plain_of_parts (List.mem_of_mem_take member)

theorem take_ne_nil {place : Nat} : (parts path).take (place + 1) ≠ [] := by
  simp [parts_ne_nil]

theorem folded_take (names : List String) (count : Nat) : folded (names.take count) = (folded names).take count :=
  List.map_take

/-- The entries of two paths agree exactly when the paths are clear of each other. -/
theorem agree_entriesOf : (∀ left ∈ entriesOf one, ∀ right ∈ entriesOf other, Agree left right) ↔
    Clear (parts one) (parts other) := by
  have some' : 0 < (parts one).length := List.length_pos_iff.mpr (parts_ne_nil one)
  have some'' : 0 < (parts other).length := List.length_pos_iff.mpr (parts_ne_nil other)
  have length (names : List String) : (folded names).length = names.length := List.length_map _
  constructor
  · intro all
    -- What agreement says of the directories and files of one depth.
    have level {place : Nat} (short : place < (parts one).length) (short' : place < (parts other).length)
        (same : folded ((parts one).take (place + 1)) = folded ((parts other).take (place + 1))) :
        (parts one).take (place + 1) = (parts other).take (place + 1) ∧
          place + 1 ≠ (parts one).length ∧ place + 1 ≠ (parts other).length := by
      obtain ⟨equal, directory⟩ := all _ (mem_entriesOf.mpr ⟨place, short, rfl⟩) _
        (mem_entriesOf.mpr ⟨place, short', rfl⟩)
        ((lowerAscii_eq_iff plain_take plain_take take_ne_nil take_ne_nil).mpr same)
      have texts := congrArg parts (congrArg Prod.fst equal)
      have kinds := congrArg Prod.snd equal
      dsimp only at texts kinds directory
      rw [parts_intercalate plain_take take_ne_nil, parts_intercalate plain_take take_ne_nil] at texts
      rw [directory] at kinds
      exact ⟨texts, by simpa using kinds, by simpa using directory⟩
    have notAbove : ¬folded (parts one) <+: folded (parts other) := by
      intro above
      have short := above.length_le
      rw [length, length] at short
      have same : folded ((parts one).take ((parts one).length - 1 + 1)) =
          folded ((parts other).take ((parts one).length - 1 + 1)) := by
        rw [Nat.sub_add_cancel some', List.take_length, folded_take, ← length (parts one)]
        exact List.prefix_iff_eq_take.mp above
      exact (level (by omega) (by omega) same).2.1 (by omega)
    have notBelow : ¬folded (parts other) <+: folded (parts one) := by
      intro above
      have short := above.length_le
      rw [length, length] at short
      have same : folded ((parts one).take ((parts other).length - 1 + 1)) =
          folded ((parts other).take ((parts other).length - 1 + 1)) := by
        rw [Nat.sub_add_cancel some'', List.take_length, folded_take, ← length (parts other)]
        exact (List.prefix_iff_eq_take.mp above).symm
      exact (level (by omega) (by omega) same).2.2 (by omega)
    refine ⟨notAbove, notBelow, fun count same => ?_⟩
    match count with
    | 0 => rfl
    | place + 1 =>
        have lengths := congrArg List.length same
        rw [length, length, List.length_take, List.length_take] at lengths
        by_cases short : place < (parts one).length
        · by_cases short' : place < (parts other).length
          · exact (level short short' same).1
          · rw [List.take_of_length_le (by omega : (parts other).length ≤ place + 1), folded_take] at same
            exact absurd (same ▸ List.take_prefix _ _) notBelow
        · rw [List.take_of_length_le (by omega : (parts one).length ≤ place + 1), folded_take] at same
          exact absurd (same ▸ List.take_prefix _ _) notAbove
  · rintro ⟨notAbove, notBelow, same⟩ left member right member' equal
    obtain ⟨place, short, rfl⟩ := mem_entriesOf.mp member
    obtain ⟨place', short', rfl⟩ := mem_entriesOf.mp member'
    rw [lowerAscii_eq_iff plain_take plain_take take_ne_nil take_ne_nil] at equal
    have lengths := congrArg List.length equal
    rw [length, length, List.length_take, List.length_take] at lengths
    have depth : place = place' := by omega
    subst depth
    have notLast : place + 1 ≠ (parts one).length := by
      intro last
      rw [last, List.take_length, folded_take] at equal
      exact notAbove (equal ▸ List.take_prefix _ _)
    have notLast' : place + 1 ≠ (parts other).length := by
      intro last
      rw [last, List.take_length, folded_take] at equal
      exact notBelow (equal ▸ List.take_prefix _ _)
    simp [same _ equal, beq_eq_false_iff_ne.mpr notLast, beq_eq_false_iff_ne.mpr notLast']

/-- The entries of one path have lengths of their own. -/
theorem pairwise_entriesOf (path : String) : (entriesOf path).Pairwise Agree := by
  rw [entriesOf, List.pairwise_map]
  apply List.Pairwise.imp_of_mem _ List.pairwise_lt_range
  intro place place' member member' below equal
  rw [List.mem_range] at member member'
  rw [lowerAscii_eq_iff plain_take plain_take take_ne_nil take_ne_nil] at equal
  have lengths := congrArg List.length equal
  simp only [folded, List.length_map, List.length_take] at lengths
  omega

end Paths

/-- A name that a FAT32 filesystem takes, and that is not reserved. -/
def ValidName (name : String) : Prop :=
  name ≠ "" ∧ (∀ c ∈ name.toList, isAsciiName c = true) ∧ name ≠ "." ∧ name ≠ ".." ∧
    name.toList.head? ≠ some ' ' ∧ name.toList.getLast? ≠ some ' ' ∧ name.toList.getLast? ≠ some '.' ∧
    name.length ≤ 255 ∧ upperAscii (String.ofList (name.toList.takeWhile (· != '.'))) ∉ devices ∧
    (lowerAscii name).startsWith ".slice-" = false

/-- A path that is not too long, by itself and below the parent. -/
def Fits (parentPath path : String) : Prop :=
  path.utf8ByteSize < 4096 ∧
    (String.ofList (parentPath.toList.reverse.dropWhile (· == '/')).reverse ++ "/" ++ path).utf8ByteSize < 4096

/-- The paths of all files that are written. -/
def layoutPaths (files : List (String × Scalar)) (outputRoot : String) : List String :=
  (files.map fun file => outputRoot ++ "/" ++ file.1) ++
    [outputRoot ++ "/.modelark-slice-owner", outputRoot ++ "/.modelark-slice-receipt.json"]

/-- Every name is a name of FAT32, the paths are clear of each other, and they fit with their temporaries. -/
structure Spaced (files : List (String × Scalar)) (outputRoot parentPath : String) : Prop where
  root : ValidName outputRoot
  names : ∀ file ∈ files, ∀ name ∈ parts file.1, ValidName name
  clear : ((layoutPaths files outputRoot).map parts).Pairwise Clear
  fits : ∀ path ∈ layoutPaths files outputRoot,
    Fits parentPath path ∧ Fits parentPath (parentOf path ++ "/" ++ temporary)

/-- There is a file, the parent is a canonical path, and all sizes can be stored. -/
structure Storable (files : List (String × Scalar)) (parentPath : String) (controlSize receiptSize : Nat) :
    Prop where
  some' : files ≠ []
  parent : checkAbsolute parentPath = .ok ()
  control : controlSize < 2 ^ 32
  receipt : receiptSize < 2 ^ 32
  sizes : ∀ file ∈ files, ∃ size : Int, file.2 = .int size ∧ 0 ≤ size ∧ size < 2 ^ 32

section Layouts

variable {files : List (String × Scalar)} {outputRoot parentPath name path : String} {controlSize receiptSize : Nat}

theorem checkName_eq_ok {result : Unit} : checkName false name = .ok result ↔ ValidName name := by
  simp only [checkName, ValidName, bind_eq_ok, require_eq_ok, Bool.and_eq_true, bne_iff_ne, List.all_eq_true,
    decide_eq_true_eq, Bool.not_eq_true', List.contains_eq_mem, decide_eq_false_iff_not, Bool.false_or,
    exists_const, and_assoc]

theorem checkLength_eq_ok {result : Unit} : checkLength parentPath path = .ok result ↔ Fits parentPath path := by
  simp [checkLength, Fits]

theorem checkSize_eq_ok {size : Scalar} {result : Unit} :
    checkSize size = .ok result ↔ ∃ value : Int, size = .int value ∧ 0 ≤ value ∧ value < 2 ^ 32 := by
  cases size <;> simp [checkSize]

theorem checkNames_eq_ok {names : List String} {result : Unit} :
    thread (fun _ name => checkName false name) () names = .ok result ↔ ∀ name ∈ names, ValidName name := by
  constructor
  · intro checked name member
    exact checkName_eq_ok.mp (of_thread_checks checked name member)
  · intro valid
    exact thread_checks fun name member => checkName_eq_ok.mpr (valid name member)

theorem ValidName.plain (valid : ValidName name) : Plain name := by
  intro member
  exact absurd (valid.2.1 '/' member) (by decide)

theorem admitPath_eq_ok {spaces next : List (String × Bool)} (agree : spaces.Pairwise Agree) :
    admitPath parentPath spaces path = .ok next ↔
      spaces ++ entriesOf path = next ∧ (spaces ++ entriesOf path).Pairwise Agree ∧
        (∀ name ∈ parts path, ValidName name) ∧ Fits parentPath path ∧
        Fits parentPath (parentOf path ++ "/" ++ temporary) := by
  have generated : checkName true temporary = .ok () := by decide
  simp only [admitPath, generated, ok_bind, bind_eq_ok, checkNames_eq_ok, thread_admitEntry agree, pure_eq_ok,
    checkLength_eq_ok, exists_const]
  constructor
  · rintro ⟨names, middle, ⟨rfl, apart⟩, fits, fits', rfl⟩
    exact ⟨rfl, apart, names, fits, fits'⟩
  · rintro ⟨rfl, apart, names, fits, fits'⟩
    exact ⟨names, _, ⟨rfl, apart⟩, fits, fits', rfl⟩

theorem admitPaths_eq_ok {paths : List String} {spaces next : List (String × Bool)} (agree : spaces.Pairwise Agree) :
    thread (admitPath parentPath) spaces paths = .ok next ↔
      spaces ++ paths.flatMap entriesOf = next ∧ (spaces ++ paths.flatMap entriesOf).Pairwise Agree ∧
        ∀ path ∈ paths, (∀ name ∈ parts path, ValidName name) ∧ Fits parentPath path ∧
          Fits parentPath (parentOf path ++ "/" ++ temporary) := by
  induction paths generalizing spaces with
  | nil => simpa using fun _ => agree
  | cons path paths ih =>
      rw [thread_cons, bind_eq_ok]
      constructor
      · rintro ⟨middle, first, rest⟩
        obtain ⟨rfl, grown, here⟩ := (admitPath_eq_ok agree).mp first
        obtain ⟨rfl, all, later⟩ := (ih grown).mp rest
        refine ⟨by simp, by simpa using all, ?_⟩
        intro other member
        rcases List.mem_cons.mp member with rfl | member
        · exact here
        · exact later other member
      · rintro ⟨rfl, all, each⟩
        have split : spaces ++ (path :: paths).flatMap entriesOf =
            spaces ++ entriesOf path ++ paths.flatMap entriesOf := by simp
        rw [split] at all
        have grown := (List.pairwise_append.mp all).1
        exact ⟨_, (admitPath_eq_ok agree).mpr ⟨rfl, grown, each path List.mem_cons_self⟩,
          (ih grown).mpr ⟨split.symm, all, fun other member => each other (List.mem_cons_of_mem path member)⟩⟩

/-- The entries of all paths agree exactly when the paths are clear of each other. -/
theorem pairwise_flatMap_entriesOf (paths : List String) :
    (paths.flatMap entriesOf).Pairwise Agree ↔ (paths.map parts).Pairwise Clear := by
  rw [List.pairwise_flatMap, List.pairwise_map]
  simp only [agree_entriesOf, pairwise_entriesOf, implies_true, true_and]

/-- The root, and each name of a file that is written below it, is a name of FAT32. -/
theorem valid_layoutPaths (root : ValidName outputRoot)
    (names : ∀ file ∈ files, ∀ name ∈ parts file.1, ValidName name) :
    ∀ path ∈ layoutPaths files outputRoot, ∀ name ∈ parts path, ValidName name := by
  have checked : thread (fun _ name => checkName false name) ()
      [".modelark-slice-owner", ".modelark-slice-receipt.json"] = .ok () := by decide +kernel
  have generated := checkNames_eq_ok.mp checked
  have below (rest : String) : parts (outputRoot ++ "/" ++ rest) = outputRoot :: parts rest := by
    rw [parts_append, parts_of_notMem root.plain, List.singleton_append]
  have split {path : String} (rest : String) (joined : outputRoot ++ "/" ++ rest = path)
      (valid : ∀ name ∈ parts rest, ValidName name) : ∀ name ∈ parts path, ValidName name := by
    intro name member
    rw [← joined, below, List.mem_cons] at member
    rcases member with rfl | member
    · exact root
    · exact valid name member
  have single (rest : String) (valid : ValidName rest) : ∀ name ∈ parts rest, ValidName name := by
    intro name member
    rw [parts_of_notMem valid.plain, List.mem_singleton] at member
    exact member ▸ valid
  intro path member
  rcases List.mem_append.mp member with member | member
  · obtain ⟨file, listed, rfl⟩ := List.mem_map.mp member
    exact split file.1 rfl (names file listed)
  · simp only [List.mem_cons, List.not_mem_nil, or_false] at member
    rcases member with rfl | rfl
    · exact split ".modelark-slice-owner" (String.append_assoc ..) (single _ (generated _ (by simp)))
    · exact split ".modelark-slice-receipt.json" (String.append_assoc ..) (single _ (generated _ (by simp)))

theorem checkFiles_eq_ok {result : Unit} :
    thread (fun (_ : Unit) (file : String × Scalar) => do
      thread (fun _ name => checkName false name) () (parts file.1)
      checkSize file.2) () files = .ok result ↔
    (∀ file ∈ files, ∀ name ∈ parts file.1, ValidName name) ∧
      ∀ file ∈ files, ∃ size : Int, file.2 = .int size ∧ 0 ≤ size ∧ size < 2 ^ 32 := by
  constructor
  · intro checked
    have each := of_thread_checks checked
    simp only [bind_eq_ok, checkNames_eq_ok, checkSize_eq_ok, exists_const] at each
    exact ⟨fun file member => (each file member).1, fun file member => (each file member).2⟩
  · rintro ⟨names, sizes⟩
    apply thread_checks
    intro file member
    rw [bind_eq_ok]
    exact ⟨(), checkNames_eq_ok.mpr (names file member), checkSize_eq_ok.mpr (sizes file member)⟩

/-- A layout is accepted exactly when it is spaced and can be stored. -/
theorem admitLayout_iff : admitLayout files outputRoot parentPath controlSize receiptSize = .ok () ↔
    Spaced files outputRoot parentPath ∧ Storable files parentPath controlSize receiptSize := by
  have admitted (spaces : List (String × Bool)) :
      thread (admitPath parentPath) [] (layoutPaths files outputRoot) = .ok spaces ↔ _ := admitPaths_eq_ok .nil
  rw [List.nil_append, pairwise_flatMap_entriesOf] at admitted
  simp only [admitLayout, bind_eq_ok, require_eq_ok, checkName_eq_ok, checkSize_eq_ok, checkFiles_eq_ok, pure_eq_ok,
    exists_const, mapError_eq_ok, bne_iff_ne]
  constructor
  · rintro ⟨root, _, parent, ⟨control, controlled, _, control'⟩, ⟨receipt, received, _, receipt'⟩, some', ⟨names, sizes⟩,
      spaces, passed, _⟩
    cases controlled
    cases received
    obtain ⟨_, clear, each⟩ := (admitted spaces).mp passed
    exact ⟨⟨root, names, clear, fun path member => (each path member).2⟩,
      ⟨some', parent, by omega, by omega, sizes⟩⟩
  · rintro ⟨⟨root, names, clear, fits⟩, ⟨some', parent, control, receipt, sizes⟩⟩
    have valid := valid_layoutPaths root names
    have passed := (admitted _).mpr ⟨rfl, clear, fun path member => ⟨valid path member, fits path member⟩⟩
    exact ⟨root, (), parent, ⟨controlSize, rfl, by omega, by omega⟩, ⟨receiptSize, rfl, by omega, by omega⟩, some',
      ⟨names, sizes⟩, _, passed, trivial⟩

/-- A layout with room for its names alone is not accepted: a file may be too large for FAT32. -/
theorem spaced_too_large : ¬∀ (files : List (String × Scalar)) (outputRoot parentPath : String)
    (controlSize receiptSize : Nat), admitLayout files outputRoot parentPath controlSize receiptSize = .ok () ↔
      Spaced files outputRoot parentPath := by
  intro claimed
  have refused : admitLayout [("model.bin", .int (2 ^ 32))] "out" "/mnt" 0 0 ≠ .ok () := by decide +kernel
  have passed : (thread (admitPath "/mnt") []
      (layoutPaths [("model.bin", .int (2 ^ 32))] "out")).toOption.isSome = true := by decide +kernel
  have named : thread (fun _ name => checkName false name) () ["out", "model.bin"] = .ok () := by decide +kernel
  obtain ⟨spaces, found⟩ := Option.isSome_iff_exists.mp passed
  obtain ⟨_, clear, each⟩ := (admitPaths_eq_ok .nil).mp (toOption_eq_some.mp found)
  rw [List.nil_append, pairwise_flatMap_entriesOf] at clear
  have valid := checkNames_eq_ok.mp named
  refine refused ((claimed _ _ _ _ _).mpr ⟨valid _ (by simp), ?_, clear, fun path member => (each path member).2⟩)
  intro file listed name member
  rw [List.mem_singleton] at listed
  rw [listed, parts_of_notMem (by decide +kernel), List.mem_singleton] at member
  exact member ▸ valid _ (by simp)

end Layouts

end Fat32Layout

end Modelark.Slice.Domain
