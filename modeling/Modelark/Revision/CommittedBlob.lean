import Modelark.Library.PurePaths
import Modelark.Library.Sha1
import Modelark.Revision.Evidence

/-!
# Committed blobs

What a mounted archive shows of one stored path and of its head commit, and when its bytes prove a digest
of the original file.
-/

namespace Modelark.Revision

open Library

abbrev Bytes := List UInt8

/-- An entry of `ls-tree -z`: the words before its tab, when they are ASCII, and the path after it, when it
    is UTF-8. -/
structure TreeEntry where
  metadata : Option (List String)
  path : Option String
  deriving Repr, DecidableEq

/-- What `git ls-tree HEAD` says of a path. -/
inductive TreeAnswer where
  | notInstalled
  | failed (detail : String)
  /-- The entries, or nothing for one without a tab. -/
  | listed (entries : List (Option TreeEntry))
  deriving Repr, DecidableEq

/-- A path that resolves, as it is opened and read. -/
inductive StoredFile where
  | symlink
  | unopened (detail : String)
  | irregular
  /-- Its size or its times are not the same after the last read. -/
  | changing
  | regular (bytes : Bytes)
  deriving Repr, DecidableEq

/-- A mounted archive. -/
structure ArchiveView where
  /-- The path exists and, with all of its links resolved, is in the archive. -/
  within : PurePath → Bool
  lsTree : String → TreeAnswer
  stored : PurePath → StoredFile

/-- The reasons of a `HashRepairError` about one row. -/
inductive Unproven where
  | compressed
  | unsafePath (description value : String)
  | storedElsewhere (stored original : String)
  | missing
  | notInstalled
  | headUnread (detail : String)
  | untracked
  | malformedMetadata
  | otherPath
  | notRegularInHead (mode objectType : String)
  | unsupportedId (oid : String)
  | symlink
  | unopened (detail : String)
  | irregular
  | changed
  | otherBytes (expected got : String)
  | otherSize (size : Nat) (label : String) (expected : Nat)
  deriving Repr, DecidableEq

/-- `_safe_relative`. -/
def safeRelative (value description : String) : Except Unproven PurePath :=
  match safeRelative? value with
  | some path => .ok path
  | none => .error (.unsafePath description value)

/-- `_stored_relative`. -/
def storedRelative (row : ArchivedRow) : Except Unproven PurePath :=
  let stored := (PurePath.ofText row.rfilename).parent.join (.ofText (row.storedName.getD ""))
  safeRelative (if Archive.truthy row.storedRelpath then row.storedRelpath.getD "" else stored.text)
    "stored path"

/-- `_git_head_blob`: the mode and the object of a regular path of the head commit. -/
def gitHeadBlob (archive : ArchiveView) (relative : PurePath) : Except Unproven (String × String) :=
  match archive.lsTree relative.text with
  | .notInstalled => .error .notInstalled
  | .failed detail => .error (.headUnread detail)
  | .listed [some entry] =>
      match entry.metadata, entry.path with
      | some [mode, objectType, oid], some path => do
          require (path == relative.text) .otherPath
          require (objectType == "blob" && (mode == "100644" || mode == "100755"))
            (.notRegularInHead mode objectType)
          require ((oid.length == 40 || oid.length == 64) && oid.toList.all Archive.isHex)
            (.unsupportedId oid)
          return (mode, oid)
      | _, _ => .error .malformedMetadata
  | .listed _ => .error .untracked

/-- The name git gives to bytes, under the hash of another name. -/
def objectId (oid : String) (bytes : Bytes) : String :=
  let object := ("blob " ++ toString bytes.length ++ "\x00").toUTF8.data.toList ++ bytes
  if oid.length = 64 then sha256 object else sha1 object

/-- `_hash_regular_file`: the object, the digest and the size of the bytes. -/
def hashRegularFile (file : StoredFile) (headOid : String) : Except Unproven (String × String × Nat) :=
  match file with
  | .symlink => .error .symlink
  | .unopened detail => .error (.unopened detail)
  | .irregular => .error .irregular
  | .changing => .error .changed
  | .regular bytes => .ok (objectId headOid bytes, sha256 bytes, bytes.length)

/-- A recorded size must be the size of the bytes. -/
def checkSize (size : Nat) (label : String) (expected : Option Nat) : Except Unproven Unit :=
  match expected with
  | some expected => require (expected == size) (.otherSize size label expected)
  | none => .ok ()

/-- `_validate_candidate`: the proven digest and its size. -/
def validateCandidate (archive : ArchiveView) (row : ArchivedRow) (file : FileRow) :
    Except Unproven (String × Nat) := do
  require (!row.compressed) .compressed
  let repo ← safeRelative row.repoId "repository id"
  let original ← safeRelative row.rfilename "original file path"
  let stored ← storedRelative row
  require (stored == original) (.storedElsewhere stored.text original.text)
  let path := repo.join stored
  require (archive.within path) .missing
  let (_, headOid) ← gitHeadBlob archive path
  let (gitOid, digest, size) ← hashRegularFile (archive.stored path) headOid
  require (gitOid == headOid) (.otherBytes headOid gitOid)
  checkSize size "catalog_bytes" file.sizeBytes
  checkSize size "orig_bytes" row.origBytes
  checkSize size "stored_bytes" row.storedBytes
  return (digest, size)

/-- The mounted archives, by the label of their drive. -/
abbrev Archives := String → Option ArchiveView

/-- What the archives prove of the rows of their own drives. -/
def Archives.evidence (archives : Archives) : HeadEvidence where
  mounted label := (archives label).isSome
  validateCandidate row file :=
    (archives row.driveLabel).bind fun archive => ((validateCandidate archive row file).toOption).map Prod.fst

/-- The head commit of the archive has the original path of a raw row as a regular file, and the stored
    bytes are those of that blob, by their name in git. -/
structure CommittedBlob (archive : ArchiveView) (row : ArchivedRow) (digest : String) : Prop where
  raw : row.compressed = false
  committed : ∃ path mode oid bytes,
    path = (PurePath.ofText row.repoId).join (.ofText row.rfilename) ∧
      archive.lsTree path.text = .listed [some ⟨some [mode, "blob", oid], some path.text⟩] ∧
      archive.stored path = .regular bytes ∧ objectId oid bytes = oid ∧ digest = sha256 bytes

theorem safeRelative_eq_ok {value description : String} {path : PurePath} :
    safeRelative value description = .ok path → path = .ofText value := by
  intro accepted
  unfold safeRelative at accepted
  split at accepted
  · cases accepted
    exact (safeRelative?_eq_some ‹_›).2.2.2
  · cases accepted

theorem gitHeadBlob_eq_ok {archive : ArchiveView} {relative : PurePath} {mode oid : String}
    (found : gitHeadBlob archive relative = .ok (mode, oid)) :
    archive.lsTree relative.text = .listed [some ⟨some [mode, "blob", oid], some relative.text⟩] := by
  unfold gitHeadBlob at found
  split at found
  · cases found
  · cases found
  · rename_i entry answer
    split at found
    · rename_i mode' objectType oid' path metadata named
      simp only [bind_eq_ok, require_eq_ok, pure_eq_ok, Bool.and_eq_true, beq_iff_eq, exists_and_left,
        exists_const, Prod.mk.injEq] at found
      obtain ⟨samePath, ⟨blob, _⟩, _, rfl, rfl⟩ := found
      rw [answer, ← samePath, ← blob, ← metadata, ← named]
    · cases found
  · cases found

theorem hashRegularFile_eq_ok {file : StoredFile} {headOid gitOid digest : String} {size : Nat}
    (hashed : hashRegularFile file headOid = .ok (gitOid, digest, size)) :
    ∃ bytes, file = .regular bytes ∧ gitOid = objectId headOid bytes ∧ digest = sha256 bytes := by
  cases file with
  | regular bytes =>
      cases hashed
      exact ⟨bytes, rfl, rfl, rfl⟩
  | _ => cases hashed

/-- A validated candidate is backed by its committed blob. -/
theorem committedBlob_of_validated {archive : ArchiveView} {row : ArchivedRow} {file : FileRow}
    {digest : String} {size : Nat} (validated : validateCandidate archive row file = .ok (digest, size)) :
    CommittedBlob archive row digest := by
  simp only [validateCandidate, bind_eq_ok, require_eq_ok, pure_eq_ok, Prod.exists] at validated
  obtain ⟨_, raw, repo, repoSafe, original, originalSafe, stored, _, _, samePath, _, _, mode, headOid,
    inHead, gitOid, digest', size', hashed, _, sameObject, _, _, _, _, _, _, same⟩ := validated
  obtain ⟨rfl, rfl⟩ := Prod.mk.inj same
  obtain ⟨bytes, content, rfl, rfl⟩ := hashRegularFile_eq_ok hashed
  rw [Bool.not_eq_true'] at raw
  rw [beq_iff_eq] at samePath sameObject
  rw [safeRelative_eq_ok repoSafe, samePath, safeRelative_eq_ok originalSafe] at inHead content
  exact ⟨raw, _, mode, headOid, bytes, rfl, gitHeadBlob_eq_ok inHead, content, sameObject, rfl⟩

end Modelark.Revision
