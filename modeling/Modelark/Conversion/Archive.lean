import Modelark.Library.Dict
import Modelark.Library.Json
import Modelark.Revision.Writers

/-!
# Archives of a conversion

The rules of publication for paths and content keys, and an annex archive: its files, the index, the
head commit and the objects of the annex. Git and git-annex are parameters, with the laws of the commands that a
conversion runs.
-/

namespace Modelark.Conversion

open Library Revision

abbrev Bytes := List UInt8

def refused (code : String) : Failure := .publication code

/-- The components of a path. -/
def parts (path : String) : List String :=
  (path.toList.splitOn '/').map String.ofList

theorem parts_of_notMem {name : String} (plain : '/' ∉ name.toList) : parts name = [name] := by
  simp [parts, List.splitOn_eq_singleton plain]

/-- The parts of a name below a directory. -/
theorem parts_append {directory name : String} :
    parts (directory ++ "/" ++ name) = parts directory ++ parts name := by
  have chars : (directory ++ "/" ++ name).toList = directory.toList ++ '/' :: name.toList := by simp
  rw [parts, chars, List.splitOn_append_cons_self, List.map_append]
  rfl

theorem parts_injective : Function.Injective parts := by
  intro left right same
  have lists : left.toList.splitOn '/' = right.toList.splitOn '/' :=
    (List.map_injective_iff.mpr fun _ _ equal => String.ofList_injective equal) same
  have texts := congrArg (['/'].intercalate) lists
  rw [List.intercalate_splitOn, List.intercalate_splitOn] at texts
  exact String.toList_injective texts

theorem parts_ne_nil (path : String) : parts path ≠ [] := by
  simp [parts, List.splitOn_ne_nil]

/-- A drive of Windows. -/
def hasDrive (path : String) : Bool :=
  path.toList.tail.head? == some ':'

/-- `relative_path`. -/
def relativePath (value : String) : Except Failure String := do
  require (value != "" && !value.toList.contains '\x00' && !value.toList.contains '\\' &&
    !hasDrive value && (parts value).all fun part => !(["", ".", "..", ".git"].contains part))
    (refused "PUBLICATION_PATH_INVALID")
  return value

/-- `NAMESPACE`. -/
def payloadNamespace : String := "__modelark_payload_v1__"

/-- `_SHA256`. -/
def isDigest (digest : String) : Bool :=
  digest.length == 64 && digest.toList.all Modelark.Archive.isHex

/-- `sha256_key`. -/
def sha256Key (size : Nat) (digest : String) : Except Failure String := do
  require (isDigest digest) (refused "PUBLICATION_CONTENT_ID_INVALID")
  return "SHA256-s" ++ String.ofList (Nat.toDigits 10 size) ++ "--" ++ digest

/-- `SHA256E_SUFFIXES`. -/
def sha256eSuffixes : List String :=
  ["", ".json", ".znn", ".zstd", ".gguf", ".bin", ".pt", ".pth", ".ckpt", ".pkl", ".onnx", ".npz", ".npy",
    ".md", ".txt", ".py", ".png", ".jpg", ".yaml", ".yml", ".blob", ".JSON", ".q4.gguf", ".json.znn",
    ".txt.znn", ".gguf.znn", ".tar.gz", ".json.gz", ".zip", ".bz2", ".zst"]

/-- The size and the digest of a key after its backend. -/
def readKey (suffixes : List String) (chars : List Char) : Option (Nat × String) := do
  let (size, rest) ← Json.parseNat chars
  let digest := (rest.drop 2).take 64
  guard (rest.take 2 = ['-', '-'] ∧ isDigest (String.ofList digest) = true ∧
    String.ofList (rest.drop 66) ∈ suffixes)
  return (size, String.ofList digest)

/-- `parse_sha256_key`. -/
def parseSha256Key (key : String) : Except Failure (Nat × String) :=
  let chars := key.toList
  let parsed :=
    if chars.take 8 = "SHA256-s".toList then readKey [""] (chars.drop 8)
    else if chars.take 9 = "SHA256E-s".toList then readKey sha256eSuffixes (chars.drop 9)
    else none
  match parsed with
  | some parsed => .ok parsed
  | none => .error (refused "PUBLICATION_KEY_UNQUALIFIED")

/-- A file of the worktree or a blob. -/
inductive Entry where
  | content (bytes : Bytes)
  /-- The symbolic link to an object of the annex, by the path of the object. -/
  | link (location : String)
  deriving Repr, DecidableEq

abbrev Tree := Dict String Entry

/-- An archive, its directories being those of its files. The objects of the annex are listed by their paths. -/
structure Archive where
  worktree : Tree
  index : Tree
  head : Tree
  objects : Dict String Bytes

/-- What the worktree, the index and the head commit have at a path. -/
@[ext] structure Tracked where
  worktree : Option Entry
  index : Option Entry
  head : Option Entry
  deriving Repr, DecidableEq

/-- One path lies below another. -/
def Below (above path : String) : Prop :=
  (above ++ "/").toList <+: path.toList

namespace Archive

variable (archive : Archive)

/-- `read_bytes`, through a link. -/
def read (path : String) : Option Bytes :=
  match archive.worktree[path]? with
  | some (.content bytes) => some bytes
  | some (.link location) => archive.objects[location]?
  | none => none

/-- A file that a path resolves to. -/
inductive Target where
  | file (path : String)
  | object (location : String)
  deriving Repr, DecidableEq

/-- `resolve`. -/
def resolve (path : String) : Target :=
  match archive.worktree[path]? with
  | some (.link location) => .object location
  | _ => .file path

/-- A file below the path. -/
def isDirectory (path : String) : Bool :=
  archive.worktree.keys.any fun other => (path ++ "/").toList.isPrefixOf other.toList

/-- A file above the path. -/
def isBlocked (path : String) : Bool :=
  archive.worktree.keys.any fun other => (other ++ "/").toList.isPrefixOf path.toList

/-- `exists`, through a link. -/
def pathExists (path : String) : Bool :=
  (archive.read path).isSome || archive.isDirectory path

/-- `is_file() or is_symlink()`. -/
def hasFile (path : String) : Bool :=
  archive.worktree[path]?.isSome

/-- `open(…, O_CREAT | O_EXCL)` of a new file with these bytes. -/
def create (path : String) (bytes : Bytes) : Option Archive :=
  if archive.hasFile path || archive.isDirectory path || archive.isBlocked path then none
  else some { archive with worktree := archive.worktree.insert path (.content bytes) }

def tracked (path : String) : Tracked :=
  ⟨archive.worktree[path]?, archive.index[path]?, archive.head[path]?⟩

/-- Git takes the path as it is, and not for a pattern. -/
def literal (path : String) : Bool :=
  path.toList.head? != some ':' && path.toList.all fun c => !(['*', '?', '[', '\\'].contains c)

/-- A path of the index or the head commit. -/
def Tracks (path : String) : Prop :=
  path ∈ archive.index ∨ path ∈ archive.head

/-- Git tracks nothing below the path or above it. -/
def Level (path : String) : Prop :=
  ∀ other, archive.Tracks other → ¬Below path other ∧ ¬Below other path

/-- A path in a directory that names at most one file for git. -/
structure Plain (path : String) : Prop where
  literal : literal path = true
  nested : '/' ∈ path.toList
  level : archive.Level path

/-- What is tracked at one path has changed, and nothing else in the trees. -/
structure Changed (before after : Archive) (path : String) (now : Tracked) : Prop where
  own : after.tracked path = now
  elsewhere : ∀ other, other ≠ path → after.tracked other = before.tracked other

end Archive

inductive GitCommand where
  | annexAdd
  | annexLookupkey
  | examinekey
  | commit
  | lsTree
  | lsFiles
  | rm
  deriving Repr, DecidableEq

/-- `hashlib.sha256(…).hexdigest()`. -/
structure Digests where
  sha256 : Bytes → String
  hex : ∀ bytes, isDigest (sha256 bytes) = true

namespace Digests

variable (tools : Digests)

/-- The key that the `SHA256` backend gives to bytes. -/
def key (bytes : Bytes) : String :=
  "SHA256-s" ++ String.ofList (Nat.toDigits 10 bytes.length) ++ "--" ++ tools.sha256 bytes

/-- The digest of a text. -/
def sha256Text (text : String) : String :=
  tools.sha256 text.toUTF8.data.toList

/-- `payload_relative_path`. -/
def payloadRelativePath (logicalPath : String) : Except Failure String := do
  let path ← relativePath logicalPath
  require (!(parts path).contains payloadNamespace) (refused "PUBLICATION_NAMESPACE_COLLISION")
  if (parts path).any fun part => part.toList.head? == some '.' then
    return payloadNamespace ++ "/p-" ++ tools.sha256Text logicalPath ++ ".blob"
  else return logicalPath

end Digests

/-- Git and git-annex, with what the conversion relies on. -/
structure Tools extends Digests where
  /-- Where the annex keeps the object of a key. -/
  objectPath : String → String
  /-- A command on a path or a key: what it leaves, and what it prints, without the blanks at the ends. A command that
      fails leaves the archive as it was. -/
  git : GitCommand → String → Archive → Option (Archive × String)
  /-- The bytes of a file that is not checked in become an object, and a link to it takes the place of the file. -/
  addsContent : ∀ {before : Archive} {path : String} {bytes : Bytes}, before.Plain path →
    before.worktree[path]? = some (.content bytes) → before.index[path]? ≠ some (.content bytes) →
      ∃ after output, git .annexAdd path before = some (after, output) ∧
        before.Changed after path ⟨some (.link (objectPath (toDigests.key bytes))),
          some (.link (objectPath (toDigests.key bytes))), before.head[path]?⟩ ∧
        after.objects =
          if objectPath (toDigests.key bytes) ∈ before.objects then before.objects
          else before.objects.insert (objectPath (toDigests.key bytes)) bytes
  /-- A link is only checked in: to add a file again changes nothing. -/
  addsLink : ∀ {before : Archive} {path : String} {bytes : Bytes}, before.Plain path →
    before.worktree[path]? = some (.link (objectPath (toDigests.key bytes))) →
      ∃ after output, git .annexAdd path before = some (after, output) ∧
        before.Changed after path ⟨some (.link (objectPath (toDigests.key bytes))),
          some (.link (objectPath (toDigests.key bytes))), before.head[path]?⟩ ∧
        after.objects = before.objects
  looksUp : ∀ {archive : Archive} {path : String} {bytes : Bytes}, archive.Plain path →
    archive.worktree[path]? = some (.link (objectPath (toDigests.key bytes))) →
    archive.index[path]? = some (.link (objectPath (toDigests.key bytes))) →
      git .annexLookupkey path archive = some (archive, toDigests.key bytes)
  examines : ∀ (archive : Archive) (bytes : Bytes),
    git .examinekey (toDigests.key bytes) archive = some (archive, objectPath (toDigests.key bytes))
  /-- What the worktree has at a path that is known, a link or nothing, goes to the index and the head commit. -/
  commits : ∀ {before : Archive} {path : String}, before.Plain path →
    ((before.tracked path).index.isSome = true ∨ (before.tracked path).head.isSome = true) →
    (∀ bytes, (before.tracked path).worktree ≠ some (.content bytes)) →
    (before.tracked path).head ≠ (before.tracked path).worktree →
      ∃ after output, git .commit path before = some (after, output) ∧
        before.Changed after path ⟨(before.tracked path).worktree, (before.tracked path).worktree,
          (before.tracked path).worktree⟩ ∧
        after.objects = before.objects
  /-- A commit of nothing fails. -/
  commitsNothing : ∀ {before : Archive} {path : String}, before.Plain path →
    (before.tracked path).head = (before.tracked path).worktree →
    (before.tracked path).index = (before.tracked path).worktree → git .commit path before = none
  /-- With a head commit that is not empty. -/
  listsTree : ∀ {archive : Archive} {path other : String}, archive.Plain path → other ∈ archive.head →
    ∃ output, git .lsTree path archive = some (archive, output) ∧ (output = "" ↔ archive.head[path]? = none)
  listsFiles : ∀ {archive : Archive} {path : String}, archive.Plain path →
    ∃ output, git .lsFiles path archive = some (archive, output) ∧ (output = "" ↔ archive.index[path]? = none)
  /-- A file without changes is removed. -/
  removes : ∀ {before : Archive} {path : String} {entry : Entry}, before.Plain path →
    before.tracked path = ⟨some entry, some entry, some entry⟩ →
      ∃ after output, git .rm path before = some (after, output) ∧
        before.Changed after path ⟨none, none, some entry⟩ ∧ after.objects = before.objects

/-- Where the annex keeps bytes. -/
def Tools.location (tools : Tools) (bytes : Bytes) : String :=
  tools.objectPath (tools.key bytes)

theorem sha256Key_digest (tools : Digests) (bytes : Bytes) :
    sha256Key bytes.length (tools.sha256 bytes) = .ok (tools.key bytes) := by
  simp [sha256Key, tools.hex bytes, require, Digests.key]

/-- The key of bytes is read back. -/
theorem parseSha256Key_key (tools : Digests) (bytes : Bytes) :
    parseSha256Key (tools.key bytes) = .ok (bytes.length, tools.sha256 bytes) := by
  have hex := tools.hex bytes
  have long : (tools.sha256 bytes).toList.length = 64 := by
    simp only [isDigest, Bool.and_eq_true, beq_iff_eq] at hex
    rw [String.length_toList]
    exact hex.1
  have chars : (tools.key bytes).toList = "SHA256-s".toList ++
      (Nat.toDigits 10 bytes.length ++ ('-' :: '-' :: (tools.sha256 bytes).toList)) := by
    simp [Digests.key]
  have parsed : Json.parseNat (Nat.toDigits 10 bytes.length ++ ('-' :: '-' :: (tools.sha256 bytes).toList)) =
      some (bytes.length, '-' :: '-' :: (tools.sha256 bytes).toList) :=
    Json.parseNat_toDigits bytes.length (by simp [Json.Ends])
  have digest : (tools.sha256 bytes).toList.take 64 = (tools.sha256 bytes).toList :=
    List.take_of_length_le (by omega)
  have rest : (tools.sha256 bytes).toList.drop 64 = [] := List.drop_of_length_le (by omega)
  have backend : "SHA256-s".toList.length = 8 := by decide
  have read : readKey [""] (Nat.toDigits 10 bytes.length ++ ('-' :: '-' :: (tools.sha256 bytes).toList)) =
      some (bytes.length, tools.sha256 bytes) := by
    simp [readKey, parsed, digest, hex, long]
  simp only [parseSha256Key, chars]
  rw [← backend, List.take_left', List.drop_left', read] <;> simp

end Modelark.Conversion
