import Modelark.Publication.PayloadPaths

/-!
# Objects and entries of the map

The objects of a Git repository under their names, the entries of a tree or of an index, and the private
stage on which a publication writes: its index, its refs and its objects. The names of objects are of any
type; trees are taken with all the files below them.
-/

namespace Modelark.Publication.MapFiles

open Library
open Revision (Failure)
open Conversion (Bytes refused relativePath parts parseSha256Key)

/-- `_MODES`. -/
inductive Mode where
  | regular
  | executable
  | symlink
  deriving Repr, DecidableEq

def Mode.text : Mode → String
  | .regular => "100644"
  | .executable => "100755"
  | .symlink => "120000"

/-- A file of a tree or of an index. -/
structure TreeEntry (O : Type) where
  path : String
  mode : Mode
  oid : O
  relative : relativePath path = .ok path
  deriving DecidableEq

/-- The proper directories of a path. -/
def directories (path : String) : List String :=
  let components := path.toList.splitOn '/'
  ((List.range components.length).filter (0 < ·)).map fun index =>
    String.ofList (['/'].intercalate (components.take index))

/-- No path is a directory of another. -/
def apart (paths : List String) : Bool :=
  paths.all fun path => (directories path).all fun directory => !paths.contains directory

/-- `_entries`. -/
def listed {O : Type} (entries : List (TreeEntry O)) : Except Failure (List (TreeEntry O)) := do
  require (decide (entries.map TreeEntry.path).Nodup) (refused "PUBLICATION_GIT_DUPLICATE_PATH")
  require (apart (entries.map TreeEntry.path)) (refused "PUBLICATION_GIT_PATH_COLLISION")
  return sortBy TreeEntry.path entries

inductive GitObject (O : Type) where
  | blob (data : Bytes)
  | tree (entries : List (TreeEntry O))
  | commit (tree : O) (parents : List O) (message date : String)
  deriving DecidableEq

/-- `QualifiedAnnexProfile`: the root, its mount, the repository and what else qualifies it. -/
structure Profile where
  rootIdentity : Nat × Nat × Nat
  mountId : Nat
  annexUuid : String
  configuration : String
  deriving Repr, DecidableEq

/-- `TreeSnapshot`. -/
structure Snapshot (O : Type) where
  rootIdentity : Nat × Nat × Nat
  mountId : Nat
  headRef : String
  headOid : O
  treeOid : O
  parents : List O
  entries : List (TreeEntry O)
  deriving DecidableEq

/-- A repository with its head, its index and its objects. -/
structure Repository (O : Type) where
  profile : Profile
  headRef : String
  headOid : O
  index : List (TreeEntry O)
  objects : List (GitObject O)
  /-- Where the annex keeps the object of a key. -/
  objectPath : String → Except Failure String

/-- What native commands change on the stage. -/
structure Scratch (O : Type) where
  index : List (TreeEntry O)
  refs : Dict String O
  objects : List (GitObject O)
  /-- The commits that were made so far, for the time that has passed. -/
  moment : Nat

/-- No ref and no object is lost. -/
structure Scratch.Adds {O : Type} (lookup : List (GitObject O) → O → Option (GitObject O)) (x y : Scratch O) :
    Prop where
  refs : ∀ (ref : String) (oid : O), x.refs[ref]? = some oid → y.refs[ref]? = some oid
  objects : ∀ (oid : O) (object : GitObject O), lookup x.objects oid = some object →
    lookup y.objects oid = some object

def commandFailed : Failure := refused "PUBLICATION_NATIVE_COMMAND_FAILED"

/-- Native Git, with what a publication relies on. -/
structure Git (O : Type) where
  /-- `git cat-file`: the object with a name, among those of a repository. -/
  lookup : List (GitObject O) → O → Option (GitObject O)
  /-- `git fetch` of an object from another repository, under a ref. -/
  fetch : Scratch O → Repository O → O → String → Except Failure (Scratch O)
  /-- `git update-index --index-info`. -/
  updateIndex : Scratch O → List (TreeEntry O) → Except Failure (Scratch O)
  /-- `git write-tree`, which prints the name of the tree. -/
  writeTree : Scratch O → Except Failure (Scratch O × O)
  /-- `git commit-tree` of a tree on a parent, which prints the name of the commit. -/
  commitTree : Scratch O → O → O → String → Except Failure (Scratch O × O)
  /-- A fetch under a new ref only adds. -/
  fetchAdds : ∀ {x y : Scratch O} {source : Repository O} {oid : O} {ref : String}, x.refs[ref]? = none →
    fetch x source oid ref = .ok y → y.index = x.index ∧ x.Adds lookup y
  updateIndexAdds : ∀ {x y : Scratch O} {rows : List (TreeEntry O)}, updateIndex x rows = .ok y → x.Adds lookup y
  writeTreeAdds : ∀ {x y : Scratch O} {tree : O}, writeTree x = .ok (y, tree) →
    y.index = x.index ∧ x.Adds lookup y
  /-- A tree that is written once is not written again. -/
  writeTreeAgain : ∀ {x y : Scratch O} {tree : O}, writeTree x = .ok (y, tree) → writeTree y = .ok (y, tree)
  commitTreeAdds : ∀ {x y : Scratch O} {tree parent head : O} {message : String},
    commitTree x tree parent message = .ok (y, head) → y.index = x.index ∧ x.Adds lookup y
  /-- What was committed once can be committed again, with another date, while nothing is lost. -/
  commitTreeAgain : ∀ {x y later : Scratch O} {tree parent head content : O} {message body date : String}
    {parents : List O}, commitTree x tree parent message = .ok (y, head) →
    lookup y.objects head = some (.commit content parents body date) → x.Adds lookup later →
      ∃ z again date, commitTree later tree parent message = .ok (z, again) ∧
        lookup z.objects again = some (.commit content parents body date)

namespace Git

variable {O : Type} (git : Git O)

/-- `_object` of a blob. -/
def readBlob (objects : List (GitObject O)) (oid : O) (limit : Nat) : Except Failure Bytes :=
  match git.lookup objects oid with
  | some (.blob data) => do
      require (decide (data.length ≤ limit)) (refused "PUBLICATION_GIT_OBJECT_TOO_LARGE")
      return data
  | _ => .error commandFailed

/-- `_commit`, with the message. -/
def readCommit (objects : List (GitObject O)) (oid : O) : Except Failure (O × List O × String) :=
  match git.lookup objects oid with
  | some (.commit tree parents message _) => .ok (tree, parents, message)
  | _ => .error commandFailed

/-- `ls-tree -r`. -/
def readTree (objects : List (GitObject O)) (oid : O) : Except Failure (List (TreeEntry O)) :=
  match git.lookup objects oid with
  | some (.tree entries) => listed entries
  | _ => .error commandFailed

/-- `_snapshot`: the head, the committed entries and an index that is the same. -/
def snapshot [DecidableEq O] (repository : Repository O) : Except Failure (Snapshot O) := do
  let (treeOid, parents, _) ← git.readCommit repository.objects repository.headOid
  let entries ← git.readTree repository.objects treeOid
  let index ← listed repository.index
  require (index == entries) (refused "PUBLICATION_GIT_INDEX_TREE_MISMATCH")
  return ⟨repository.profile.rootIdentity, repository.profile.mountId, repository.headRef,
    repository.headOid, treeOid, parents, entries⟩

end Git

def isWord (c : Char) : Bool :=
  c.isAlphanum

/-- The paths of the annex for the object of a key. -/
def isObjectPath (key path : String) : Bool :=
  match path.toList.splitOn '/' with
  | [git, annex, objects, upper, lower, directory, name] =>
      git == ".git".toList && annex == "annex".toList && objects == "objects".toList &&
        upper.length == 2 && upper.all isWord && lower.length == 2 && lower.all isWord &&
        directory == key.toList && name == key.toList
  | _ => false

/-- `posixpath.relpath` of an object from the directory of a file, which is never below `.git`. -/
def linkTarget (objectPath storedPath : String) : String :=
  String.join (List.replicate ((parts storedPath).length - 1) "../") ++ objectPath

def utf8 (text : String) : Bytes := text.toUTF8.data.toList

/-- `check_committed_pointer`. -/
def checkCommittedPointer (mode : Mode) (blob : Bytes) (storedPath key objectPath : String) :
    Except Failure Unit := do
  let _ ← relativePath storedPath
  let _ ← parseSha256Key key
  require (isObjectPath key objectPath) (refused "PUBLICATION_OBJECT_PATH_INVALID")
  let expected ← match mode with
    | .symlink => .ok (linkTarget objectPath storedPath)
    | .regular => .ok ("/annex/objects/" ++ key ++ "\n")
    | .executable => .error (refused "PUBLICATION_POINTER_MODE_INVALID")
  require (blob == utf8 expected) (refused "PUBLICATION_POINTER_MISMATCH")

end Modelark.Publication.MapFiles
