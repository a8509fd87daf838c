import Modelark.Library.LeafTrees
import Modelark.Library.Md5
import Modelark.Library.Raising
import Modelark.Publication.MapPolicy

/-!
# Snapshots of metadata branches

The commit, the trees and the blobs of an annex branch, read from a repository object by object, each of them
checked against its name.
-/

namespace Modelark.Publication.MapTree

open Library Revision Conversion

def commitLimit : Nat := 1024 * 1024
def treeLimit : Nat := 1024 * 1024
def treeTotalLimit : Nat := 8 * 1024 * 1024
def blobLimit : Nat := 1024 * 1024
def blobTotalLimit : Nat := 16 * 1024 * 1024
def entryLimit : Nat := 65536
def depthLimit : Nat := 16

/-- What a repository is attached to, and its references. -/
structure Attachment where
  /-- `ensure`. -/
  ensured : Except Failure Unit
  rootIdentity : Nat × Nat × Nat
  mountId : Nat
  profileDigest : String
  /-- `rev-parse --verify`. -/
  revParse : String → Except Failure Bytes

/-- A repository, as it is attached before and after its objects are read. -/
structure QualifiedRepository where
  first : Attachment
  last : Attachment
  /-- `cat-file -s`. -/
  size : String → Except Failure Bytes
  /-- `cat-file`, of a kind. -/
  content : String → String → Except Failure Bytes

def utf8 (text : String) : Bytes := text.toUTF8.data.toList

/-- `metadata_path`. -/
def metadataPath (key : String) : Except Failure String := do
  let _ ← parseSha256Key key
  let bucket := md5 (utf8 key)
  return String.ofList (bucket.toList.take 3) ++ "/" ++ String.ofList ((bucket.toList.drop 3).take 3) ++ "/" ++ key ++
    ".log"

def isOid (oid : String) : Bool :=
  oid.length == 40 && oid.toList.all Modelark.Archive.isHex

/-- `_oid`. -/
def checkOid (oid : String) : Except Failure Unit :=
  require (isOid oid) (refused "PUBLICATION_GIT_OID_UNQUALIFIED")

/-- The characters of `_REF`. -/
def isRefChar (c : Char) : Bool :=
  c.isAlphanum || ['_', '.', '/', '-'].contains c

/-- `_reference`. -/
def checkReference (reference : String) : Except Failure Unit :=
  require (isOid reference ||
    (reference.startsWith "refs/" && 5 < reference.length && reference.toList.all isRefChar &&
      !(reference.toList.zip reference.toList.tail).contains ('.', '.') &&
      (parts reference).all fun part => part != "" && !part.startsWith "." && !part.endsWith "." &&
        !part.endsWith ".lock"))
    (refused "PUBLICATION_METADATA_REF_INVALID")

/-- `_require_digest`. -/
def checkDigest (digest : String) : Except Failure Unit :=
  require (isDigest digest) (refused "PUBLICATION_DIGEST_INVALID")

/-- `bytes.decode("ascii")`. -/
def asciiText (bytes : Bytes) : Option String :=
  if bytes.all (· < 128) then some (String.ofList (bytes.map fun byte => Char.ofNat byte.toNat)) else none

/-- `_line`. -/
def line (data : Bytes) : Except Failure String := do
  require (data.getLast? == some 10 && !data.dropLast.contains 10 && data.length ≤ 128)
    (refused "PUBLICATION_METADATA_NATIVE_FRAMING")
  match asciiText data.dropLast with
  | some text => .ok text
  | none => .error (refused "PUBLICATION_METADATA_NATIVE_FRAMING")

/-- `bytes.partition`. -/
def splitAt (separator : Bytes) : Bytes → Option (Bytes × Bytes)
  | [] => if separator.isEmpty then some ([], []) else none
  | byte :: bytes =>
      if separator.isPrefixOf (byte :: bytes) then some ([], (byte :: bytes).drop separator.length)
      else (splitAt separator bytes).map fun (before, after) => (byte :: before, after)

/-- The name git gives to an object. -/
def objectOid (kind : String) (raw : Bytes) : String :=
  sha1 (utf8 (kind ++ " " ++ toString raw.length) ++ 0 :: raw)

/-- `_object`. -/
def object (repository : QualifiedRepository) (kind oid : String) (limit : Nat) : Except Failure Bytes := do
  checkOid oid
  let sizeText ← line (← repository.size oid)
  match Json.parseNat sizeText.toList with
  | some (size, []) =>
      require (size ≤ limit) (refused "PUBLICATION_METADATA_OBJECT_TOO_LARGE")
      let raw ← repository.content kind oid
      require (raw.length == size) (refused "PUBLICATION_METADATA_OBJECT_MISMATCH")
      require (objectOid kind raw == oid) (refused "PUBLICATION_METADATA_OBJECT_MISMATCH")
      return raw
  | _ => .error (refused "PUBLICATION_METADATA_OBJECT_SIZE_INVALID")

/-- The object that a line of a commit names. -/
def readOid (bytes : Bytes) : Except Failure String :=
  match asciiText bytes with
  | some oid => do
      checkOid oid
      return oid
  | none => .error (refused "PUBLICATION_METADATA_COMMIT_INVALID")

/-- `_commit`: the tree of a commit and its parents. -/
def commit (repository : QualifiedRepository) (oid : String) : Except Failure (String × List String) := do
  let raw ← object repository "commit" oid commitLimit
  match splitAt [10, 10] raw with
  | none => .error (refused "PUBLICATION_METADATA_COMMIT_INVALID")
  | some (headers, _) =>
      let lines := headers.splitOn 10
      let isTree (line : Bytes) : Bool := (utf8 "tree ").isPrefixOf line
      require (lines.head?.any isTree && lines.countP isTree == 1) (refused "PUBLICATION_METADATA_COMMIT_INVALID")
      let treeOid ← readOid ((lines.headD []).drop 5)
      let parents ← (lines.filter fun line => (utf8 "parent ").isPrefixOf line).mapM fun line => readOid (line.drop 7)
      return (treeOid, parents)

/-- `_key_path`. -/
def checkKeyPath (path : String) : Except Failure Unit := do
  let _ ← relativePath path
  let base := (dropEnding ".met".toList path.toList).getD path.toList
  match dropEnding ".log".toList base with
  | none => return ()
  | some stem =>
      let name := ((parts (String.ofList stem)).getLastD "")
      if !base.contains '/' && !name.startsWith "SHA256" then return ()
      let _ ← parseSha256Key name
      let expected ← metadataPath name
      require (String.ofList base == expected) (refused "PUBLICATION_METADATA_KEY_PATH_MISMATCH")

structure MetadataBlob where
  path : String
  oid : String
  data : Bytes
  deriving Repr, DecidableEq

/-- `MetadataBlob.__post_init__`. -/
def MetadataBlob.check (blob : MetadataBlob) : Except Failure Unit := do
  checkKeyPath blob.path
  checkOid blob.oid
  require (blob.data.length ≤ blobLimit) (refused "PUBLICATION_METADATA_BLOB_INVALID")
  require (objectOid "blob" blob.data == blob.oid) (refused "PUBLICATION_METADATA_OBJECT_MISMATCH")

/-- A record of a tree. -/
structure TreeRecord where
  isDirectory : Bool
  name : Bytes
  oid : String
  deriving Repr, DecidableEq

def modeText (isDirectory : Bool) : Bytes :=
  utf8 (if isDirectory then "40000" else "100644")

/-- The first record of a tree and the rest. -/
def readRecord (raw : Bytes) : Except Failure (TreeRecord × Bytes) :=
  match splitAt [0] raw with
  | none => .error (refused "PUBLICATION_METADATA_TREE_INVALID")
  | some (header, after) => do
      require (20 ≤ after.length) (refused "PUBLICATION_METADATA_TREE_INVALID")
      match splitAt [32] header with
      | none => .error (refused "PUBLICATION_METADATA_MODE_UNQUALIFIED")
      | some (mode, name) =>
          require ((mode == modeText true || mode == modeText false) && name != [] && !name.contains 47)
            (refused "PUBLICATION_METADATA_MODE_UNQUALIFIED")
          return (⟨mode == modeText true, name, hexText (after.take 20)⟩, after.drop 20)

/-- What records are in the order of. -/
def orderKey (name : Bytes) (isDirectory : Bool) : Bytes :=
  name ++ if isDirectory then [47] else []

/-- What has been read. -/
structure Walked where
  entries : List MetadataBlob
  tree : Nat
  blob : Nat

def lift {α : Type} (result : Except Failure α) : Raising Walked Failure α :=
  Raising.look fun _ => result

/-- The path of a record. -/
def recordPath (pathPrefix : String) (name : Bytes) : Except Failure String :=
  match String.fromUTF8? ⟨name.toArray⟩ with
  | none => .error (refused "PUBLICATION_METADATA_PATH_INVALID")
  | some name => relativePath (pathPrefix ++ name)

/-- A file of a tree. -/
def addBlob (repository : QualifiedRepository) (path oid : String) : Raising Walked Failure Unit := do
  Raising.look fun state => require (state.entries.length < entryLimit) (refused "PUBLICATION_METADATA_TREE_LIMIT")
  lift (checkKeyPath path)
  let blob ← Raising.look fun state => object repository "blob" oid (min blobLimit (blobTotalLimit - state.blob))
  Raising.attempt fun state => .ok { state with blob := state.blob + blob.length }
  lift (MetadataBlob.check ⟨path, oid, blob⟩)
  Raising.attempt fun state => .ok { state with entries := state.entries ++ [⟨path, oid, blob⟩] }

section Walk

variable (repository : QualifiedRepository)

/-- What a record names: a tree to walk, or a file. -/
def visit (descend : String → String → Raising Walked Failure Unit) (path : String) (record : TreeRecord) :
    Raising Walked Failure Unit :=
  if record.isDirectory then descend record.oid (path ++ "/") else addBlob repository path record.oid

/-- The loop of `walk`. A record has more than twenty bytes, so there are fewer of them than bytes. -/
def walkRecords (descend : String → String → Raising Walked Failure Unit) (pathPrefix : String) :
    Nat → Bytes → List Bytes → Option Bytes → Raising Walked Failure Unit
  | 0, _, _, _ => pure ()
  | fuel + 1, raw, names, last =>
      if raw.isEmpty then pure ()
      else do
        let (record, rest) ← lift (readRecord raw)
        lift (require (!names.contains record.name) (refused "PUBLICATION_METADATA_DUPLICATE_PATH"))
        let order := orderKey record.name record.isDirectory
        lift (require (last.all fun last => last < order) (refused "PUBLICATION_METADATA_TREE_ORDER_INVALID"))
        let path ← lift (recordPath pathPrefix record.name)
        visit repository descend path record
        walkRecords descend pathPrefix fuel rest (record.name :: names) (some order)

/-- `walk`, with the directories that may still be entered. -/
def walk : Nat → String → String → Raising Walked Failure Unit
  | 0, _, _ => lift (.error (refused "PUBLICATION_METADATA_TREE_LIMIT"))
  | depth + 1, oid, pathPrefix => do
      let raw ← Raising.look fun state => object repository "tree" oid (min treeLimit (treeTotalLimit - state.tree))
      lift (require (pathPrefix == "" || !raw.isEmpty) (refused "PUBLICATION_METADATA_EMPTY_DIRECTORY"))
      Raising.attempt fun state => .ok { state with tree := state.tree + raw.length }
      walkRecords repository (walk depth) pathPrefix raw.length raw [] none

end Walk

structure MetadataSnapshot where
  bindingDigest : String
  profileDigest : String
  rootIdentity : Nat × Nat × Nat
  mountId : Nat
  ref : String
  commitOid : String
  treeOid : String
  parents : List String
  entries : List MetadataBlob
  deriving Repr, DecidableEq

/-- A path that is above another. -/
def isAbove (one other : String) : Bool :=
  (List.range (parts other).length).any fun count => 0 < count && "/".intercalate ((parts other).take count) == one

/-- `MetadataSnapshot.__post_init__`. -/
def MetadataSnapshot.check (snapshot : MetadataSnapshot) : Except Failure Unit := do
  checkDigest snapshot.bindingDigest
  checkDigest snapshot.profileDigest
  require (0 < snapshot.mountId) (refused "PUBLICATION_METADATA_SNAPSHOT_INVALID")
  checkReference snapshot.ref
  checkOid snapshot.commitOid
  checkOid snapshot.treeOid
  let paths := snapshot.entries.map MetadataBlob.path
  require (snapshot.entries == sortBy MetadataBlob.path snapshot.entries && paths.dedup.length == paths.length &&
    paths.length ≤ entryLimit && (snapshot.entries.map fun entry => entry.data.length).sum ≤ blobTotalLimit)
    (refused "PUBLICATION_METADATA_SNAPSHOT_INVALID")
  let _ ← snapshot.parents.mapM checkOid
  require (paths.all fun path => paths.all fun other => !isAbove other path)
    (refused "PUBLICATION_METADATA_DUPLICATE_PATH")

/-- `capture`. Entries of one path are refused, so they are sorted by their paths. -/
def capture (repository : QualifiedRepository) (ref bindingDigest : String) (expectedOid : Option String) :
    Except Failure MetadataSnapshot := do
  checkReference ref
  checkDigest bindingDigest
  let _ ← expectedOid.toList.mapM checkOid
  repository.first.ensured
  let oid ← line (← repository.first.revParse ref)
  checkOid oid
  require (expectedOid.all (· == oid)) (refused "PUBLICATION_METADATA_REF_CHANGED")
  let (treeOid, parents) ← commit repository oid
  let (walked, result) := (walk repository (depthLimit + 1) treeOid "").run ⟨[], 0, 0⟩
  result
  require ((← line (← repository.last.revParse ref)) == oid) (refused "PUBLICATION_METADATA_REF_CHANGED")
  repository.last.ensured
  require (repository.last.rootIdentity == repository.first.rootIdentity &&
    repository.last.mountId == repository.first.mountId &&
    repository.last.profileDigest == repository.first.profileDigest)
    (refused "PUBLICATION_METADATA_ATTACHMENT_CHANGED")
  let snapshot : MetadataSnapshot := ⟨bindingDigest, repository.first.profileDigest, repository.first.rootIdentity,
    repository.first.mountId, ref, oid, treeOid, parents, sortBy MetadataBlob.path walked.entries⟩
  snapshot.check
  return snapshot

end Modelark.Publication.MapTree
