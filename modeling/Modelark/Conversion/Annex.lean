import Modelark.Conversion.Archive

/-!
# An annex that keeps the laws

The commands of a conversion on archives whose annex has one directory for all its objects.
-/

namespace Modelark.Conversion

open Library Revision

namespace Tree

def set (tree : Tree) (path : String) : Option Entry → Tree
  | some entry => tree.insert path entry
  | none => tree.erase path

theorem lookup_set (tree : Tree) (path other : String) (entry : Option Entry) :
    (tree.set path entry)[other]? = if path = other then entry else tree[other]? := by
  cases entry with
  | none => exact Dict.lookup_erase tree path other
  | some entry => exact Dict.lookup_insert tree path other entry

end Tree

namespace Archive

variable (archive : Archive)

def objectIn (directory key : String) : String := directory ++ "/" ++ key ++ "/" ++ key

/-- Files that are checked in and not modified are skipped. -/
def annexAdd (digests : Digests) (directory path : String) : Option Archive :=
  match archive.worktree[path]? with
  | none => none
  | some (.link location) => some { archive with index := archive.index.insert path (.link location) }
  | some (.content bytes) =>
      if archive.index[path]? = some (.content bytes) then some archive
      else
        let location := objectIn directory (digests.key bytes)
        some
          { archive with
            worktree := archive.worktree.insert path (.link location)
            index := archive.index.insert path (.link location)
            objects := if location ∈ archive.objects then archive.objects else archive.objects.insert location bytes }

def annexLookupkey (path : String) : Option String :=
  match archive.index[path]? with
  | some (.link location) => (parts location).getLast?
  | _ => none

def commit (path : String) : Option Archive :=
  let entry := archive.worktree[path]?
  if archive.index[path]? = none ∧ archive.head[path]? = none then none
  else if archive.head[path]? = entry then none
  else some { archive with index := archive.index.set path entry, head := archive.head.set path entry }

def rm (path : String) : Option Archive :=
  match archive.index[path]? with
  | none => none
  | some entry =>
      if archive.worktree[path]? = some entry ∧ archive.head[path]? = some entry then
        some { archive with worktree := archive.worktree.erase path, index := archive.index.erase path }
      else none

def git (digests : Digests) (directory : String) (command : GitCommand) (path : String) :
    Option (Archive × String) :=
  match command with
  | .annexAdd => (archive.annexAdd digests directory path).map (·, "")
  | .annexLookupkey => (archive.annexLookupkey path).map (archive, ·)
  | .examinekey => some (archive, objectIn directory path)
  | .commit => (archive.commit path).map (·, "")
  | .lsTree => some (archive, if archive.head[path]?.isSome then path else "")
  | .lsFiles => some (archive, if archive.index[path]?.isSome then path else "")
  | .rm => (archive.rm path).map (·, "")

end Archive

variable {before after : Archive} {digests : Digests} {directory path : String} {bytes : Bytes}

theorem changed_insert {entry : Entry} {objects : Dict String Bytes} :
    before.Changed
      ⟨before.worktree.insert path entry, before.index.insert path entry, before.head, objects⟩ path
      ⟨some entry, some entry, before.head[path]?⟩ where
  own := by simp [Archive.tracked]
  elsewhere other apart := by simp [Archive.tracked, Dict.lookup_insert_of_ne _ _ (Ne.symm apart)]

theorem slash_notMem_key (digests : Digests) (bytes : Bytes) : '/' ∉ (digests.key bytes).toList := by
  have hex : ∀ c ∈ (digests.sha256 bytes).toList, Modelark.Archive.isHex c = true := by
    have digest := digests.hex bytes
    simp only [isDigest, Bool.and_eq_true, List.all_eq_true] at digest
    exact digest.2
  have digits : ∀ c ∈ Nat.toDigits 10 bytes.length, c.isDigit = true :=
    fun c member => Nat.isDigit_of_mem_toDigits (by decide) (by decide) member
  simp only [Digests.key, String.toList_append, String.toList_ofList, List.mem_append, not_or]
  refine ⟨⟨⟨by decide, fun member => ?_⟩, by decide⟩, fun member => ?_⟩
  · exact absurd (digits '/' member) (by decide)
  · exact absurd (hex '/' member) (by decide)

theorem getLast_objectIn (digests : Digests) (directory : String) (bytes : Bytes) :
    (parts (Archive.objectIn directory (digests.key bytes))).getLast? = some (digests.key bytes) := by
  rw [Archive.objectIn, parts_append, parts_of_notMem (slash_notMem_key digests bytes)]
  simp

theorem ite_eq_empty_iff {entry : Option Entry} (nested : '/' ∈ path.toList) :
    (if entry.isSome then path else "") = "" ↔ entry = none := by
  have some' : path ≠ "" := by
    rintro rfl
    simp at nested
  cases entry <;> simp [some']

/-- Git and git-annex for archives with this directory of objects. -/
def Digests.annex (digests : Digests) (directory : String) : Tools where
  toDigests := digests
  objectPath := Archive.objectIn directory
  git command path archive := archive.git digests directory command path
  addsContent {before path bytes} _ content index := by
    let location := Archive.objectIn directory (digests.key bytes)
    refine ⟨⟨before.worktree.insert path (.link location), before.index.insert path (.link location), before.head,
      if location ∈ before.objects then before.objects else before.objects.insert location bytes⟩, "", ?_,
      changed_insert, rfl⟩
    simp [Archive.git, Archive.annexAdd, content, index, location]
  addsLink {before path bytes} _ link := by
    let location := Archive.objectIn directory (digests.key bytes)
    refine ⟨⟨before.worktree, before.index.insert path (.link location), before.head, before.objects⟩, "", ?_,
      ⟨?_, ?_⟩, rfl⟩
    · simp [Archive.git, Archive.annexAdd, link, location]
    · simp [Archive.tracked, link, location]
    · intro other apart
      simp [Archive.tracked, Dict.lookup_insert_of_ne _ _ (Ne.symm apart)]
  looksUp {archive path bytes} _ _ index := by
    simp [Archive.git, Archive.annexLookupkey, index, getLast_objectIn]
  examines _ _ := rfl
  commits {before path} _ known _ changed := by
    have listed : ¬((before.tracked path).index = none ∧ (before.tracked path).head = none) := by
      rintro ⟨index, head⟩
      rw [index, head] at known
      simp at known
    simp only [Archive.tracked] at listed changed
    refine ⟨{ before with
      index := before.index.set path before.worktree[path]?
      head := before.head.set path before.worktree[path]? }, "", ?_, ⟨?_, ?_⟩, rfl⟩
    · simp only [Archive.git, Archive.commit, if_neg listed, if_neg changed, Option.map_some]
    · simp [Archive.tracked, Tree.lookup_set]
    · intro other apart
      simp [Archive.tracked, Tree.lookup_set, Ne.symm apart]
  commitsNothing {before path} _ head _ := by
    simp only [Archive.tracked] at head
    simp [Archive.git, Archive.commit, head]
  listsTree {archive path other} plain _ := ⟨_, rfl, ite_eq_empty_iff plain.nested⟩
  listsFiles {archive path} plain := ⟨_, rfl, ite_eq_empty_iff plain.nested⟩
  removes {before path entry} _ clean := by
    simp only [Archive.tracked, Tracked.mk.injEq] at clean
    obtain ⟨worktree, index, head⟩ := clean
    have erased (tree : Tree) (other : String) :
        (tree.erase path)[other]? = if path = other then none else tree[other]? := Dict.lookup_erase tree path other
    refine ⟨{ before with worktree := before.worktree.erase path, index := before.index.erase path }, "",
      ?_, ⟨?_, ?_⟩, rfl⟩
    · simp [Archive.git, Archive.rm, worktree, index, head]
    · simp [Archive.tracked, head]
    · intro other apart
      simp [Archive.tracked, erased, Ne.symm apart]

end Modelark.Conversion
