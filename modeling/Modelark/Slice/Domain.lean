import Modelark.Archive.Digest
import Modelark.Conversion.Archive
import Modelark.Library.Scalars
import Modelark.Proposal.Assembly

/-!
# Slice proposals

An archive-only proposal: the part of a catalog snapshot that concerns the requested repositories, the files it
can serve with the evidence of their sources, the gaps that stand against it, and the seal of all of this that
an approval names.
-/

namespace Modelark.Slice.Domain

open Library Proposal Archive Conversion

/-- `DOMAIN_VERSION`. -/
def domainVersion : String := "modelark.slice.domain.v1"

/-- `PROFILE`. -/
def profile : String := "hf-tree-v1"

/-- `SliceRefusal`, or an exception of the interpreter. -/
inductive SliceRefusal where
  | coded (code detail : String)
  /-- Code `INVALID_SNAPSHOT`, with the identity in the detail. -/
  | duplicateEvidence (identity : List Scalar)
  | typeError
  deriving Repr, DecidableEq

/-- `_path`. -/
def isPath : Scalar → Bool
  | .str value => value != "" && !value.toList.contains '\\' && !value.toList.contains '\x00' &&
      !hasDrive value && (parts value).all fun part => !(["", ".", ".."].contains part)
  | _ => false

/-- `_digest`. -/
def isDigestText : Scalar → Bool
  | .str value => value.length == 64 && value.toList.all fun c => isHex c || ('A' ≤ c && c ≤ 'F')
  | _ => false

/-- `_integer`. -/
def isCount : Scalar → Bool
  | .int value => 0 ≤ value
  | _ => false

/-- The size in a content key, of the whole pattern `_ANNEX`. -/
def annexSize (decimal : Char → Option Nat) (key : String) : Option Nat := do
  let named ← dropText "SHA256" key.toList
  let sized ← dropText "-s" (if named.head? = some 'E' then named.tail else named)
  let digits := sized.takeWhile fun c => (decimal c).isSome
  guard (digits ≠ [])
  let body ← dropText "--" (sized.drop digits.length)
  let extension := body.drop 64
  guard ((body.take 64).length = 64 ∧ (body.take 64).all isHex)
  guard (extension = [] ∨ extension.head? = some '.' ∧ ∀ c ∈ extension, c ∉ ['/', '\\', '\x00'])
  digits.foldlM (fun size c => (decimal c).map fun digit => 10 * size + digit) 0

/-- `str(…)` of digest evidence that is refused. -/
def digestErrorText : DigestError → String
  | .conflict sources => "digest evidence conflict: " ++
      " ".intercalate (sources.map fun source => source.1 ++ "=" ++ source.2)
  | .malformedOrig orig annex => "malformed orig_sha256 with resolvable annex: " ++
      orig.elim "None" quoted ++ " " ++ annex
  | .malformedCatalog catalog => "malformed catalog_sha with other original-byte evidence: " ++
      catalog.elim "None" quoted
  | .indeterminateCompressed => "indeterminate compressed"
where
  /-- `repr(…)` of a text that needs no escape. -/
  quoted (text : String) : String := "\x27" ++ text ++ "\x27"

structure FileFact where
  repoId : Scalar
  rfilename : Scalar
  sizeBytes : Scalar
  sha256 : Scalar
  format : Scalar
  quant : Scalar
  deriving Repr, DecidableEq

structure CopyFact where
  repoId : Scalar
  rfilename : Scalar
  driveLabel : Scalar
  storedRelpath : Scalar
  origBytes : Scalar
  storedBytes : Scalar
  origSha256 : Scalar
  provenance : Scalar
  annexKey : Scalar
  compressed : Scalar
  present : Scalar
  deriving Repr, DecidableEq

structure DriveFact where
  driveLabel : Scalar
  fsUuid : Scalar
  annexUuid : Scalar
  serial : Scalar
  identityEpoch : Scalar
  writeGeneration : Scalar
  identityFingerprint : Scalar
  filesystemCapacityBytes : Scalar
  writeAuthority : Scalar
  lifecycle : Scalar
  eligibility : Scalar
  deriving Repr, DecidableEq

structure AnchorFact where
  driveLabel : Scalar
  identityEpoch : Scalar
  generation : Scalar
  identityFingerprint : Scalar
  filesystemCapacityBytes : Scalar
  writeAuthority : Scalar
  anchorId : Scalar
  deriving Repr, DecidableEq

structure Gap where
  repoId : Scalar
  rfilename : Scalar
  code : Scalar
  driveLabel : Scalar
  detail : Scalar
  deriving Repr, DecidableEq

instance : Record FileFact where
  fields file := [("format", file.format), ("quant", file.quant), ("repo_id", file.repoId),
    ("rfilename", file.rfilename), ("sha256", file.sha256), ("size_bytes", file.sizeBytes)]
  injective left right same := by
    cases left
    cases right
    simp_all

instance : Record CopyFact where
  fields copy := [("annex_key", copy.annexKey), ("compressed", copy.compressed),
    ("drive_label", copy.driveLabel), ("orig_bytes", copy.origBytes), ("orig_sha256", copy.origSha256),
    ("present", copy.present), ("provenance", copy.provenance), ("repo_id", copy.repoId),
    ("rfilename", copy.rfilename), ("stored_bytes", copy.storedBytes), ("stored_relpath", copy.storedRelpath)]
  injective left right same := by
    cases left
    cases right
    simp_all

instance : Record DriveFact where
  fields drive := [("annex_uuid", drive.annexUuid), ("drive_label", drive.driveLabel),
    ("eligibility", drive.eligibility), ("filesystem_capacity_bytes", drive.filesystemCapacityBytes),
    ("fs_uuid", drive.fsUuid), ("identity_epoch", drive.identityEpoch),
    ("identity_fingerprint", drive.identityFingerprint), ("lifecycle", drive.lifecycle),
    ("serial", drive.serial), ("write_authority", drive.writeAuthority),
    ("write_generation", drive.writeGeneration)]
  injective left right same := by
    cases left
    cases right
    simp_all

instance : Record AnchorFact where
  fields anchor := [("anchor_id", anchor.anchorId), ("drive_label", anchor.driveLabel),
    ("filesystem_capacity_bytes", anchor.filesystemCapacityBytes), ("generation", anchor.generation),
    ("identity_epoch", anchor.identityEpoch), ("identity_fingerprint", anchor.identityFingerprint),
    ("write_authority", anchor.writeAuthority)]
  injective left right same := by
    cases left
    cases right
    simp_all

instance : Record Gap where
  fields gap := [("code", gap.code), ("detail", gap.detail), ("drive_label", gap.driveLabel),
    ("repo_id", gap.repoId), ("rfilename", gap.rfilename)]
  injective left right same := by
    cases left
    cases right
    simp_all

/-- `del drive["eligibility"]`: eligibility for placement is no authority over a source. -/
def DriveFact.evidence (drive : DriveFact) : Json :=
  .obj (((Record.fields drive).filter fun field => field.1 != "eligibility").map (Prod.map id Scalar.json))

/-- Logical records of a catalog, however the physical catalog lays them out. -/
structure CatalogSnapshot where
  catalogId : String
  files : Rows FileFact
  copies : Rows CopyFact
  drives : Rows DriveFact
  anchors : Rows AnchorFact
  issues : Rows Gap
  schemaVersion : Int

/-- What is requested, and the destination that is meant. -/
structure SliceSpec where
  repoIds : List String
  destinationId : String
  destinationRoot : String
  sorted : repoIds.Pairwise (· < ·)
  nonempty : repoIds ≠ []
  repos : ∀ repo ∈ repoIds, isPath (.str repo) = true ∧ (parts repo).length = 2
  root : isPath (.str destinationRoot) = true

def SliceSpec.requests (spec : SliceSpec) : Scalar → Bool
  | .str repo => spec.repoIds.contains repo
  | _ => false

structure SourceEvidence where
  copy : CopyFact
  drive : DriveFact
  anchor : AnchorFact
  digestProvenance : String
  deriving Repr, DecidableEq

structure Artifact where
  repoId : Scalar
  rfilename : Scalar
  sizeBytes : Scalar
  sha256 : String
  format : Scalar
  quant : Scalar
  sources : List SourceEvidence
  deriving Repr, DecidableEq

structure SlicePreview where
  spec : SliceSpec
  snapshotId : String
  closure : List Artifact
  gaps : List Gap
  sealHash : String
  version : String

structure SliceApproval where
  previewSeal : String
  stage : String
  version : String
  deriving Repr, DecidableEq

variable (u : Unicode) (decimal : Char → Option Nat) (sha : Digester)

/-- `SliceSpec(…)`. -/
def sliceSpec (repoIds : List String) (destinationId destinationRoot consumerProfile : String) :
    Except SliceRefusal SliceSpec :=
  if valid : repoIds ≠ [] ∧ (∀ repo ∈ repoIds, isPath (.str repo) = true ∧ (parts repo).length = 2) ∧
      u.strip destinationId ≠ "" ∧ isPath (.str destinationRoot) = true then
    if consumerProfile = profile then
      .ok {
        repoIds := sortedSet repoIds
        destinationId
        destinationRoot
        sorted := sortedSet_lt repoIds
        nonempty := fun none => valid.1 (sortedSet_eq_nil.mp none)
        repos := fun repo listed => valid.2.1 repo (mem_sortedSet.mp listed)
        root := valid.2.2.2 }
    else .error (.coded "UNSUPPORTED_PROFILE" consumerProfile)
  else .error (.coded "INVALID_SPEC" "explicit repositories and safe destination intent required")

def FileFact.key (file : FileFact) : List Scalar := [file.repoId, file.rfilename]

def CopyFact.key (copy : CopyFact) : List Scalar := [copy.repoId, copy.rfilename, copy.driveLabel]

def CopyFact.fileKey (copy : CopyFact) : List Scalar := [copy.repoId, copy.rfilename]

def DriveFact.key (drive : DriveFact) : List Scalar := [drive.driveLabel]

def DriveFact.generationKey (drive : DriveFact) : List Scalar :=
  [drive.driveLabel, drive.identityEpoch, drive.writeGeneration]

def AnchorFact.key (anchor : AnchorFact) : List Scalar :=
  [anchor.driveLabel, anchor.identityEpoch, anchor.generation]

/-- Equality of tuples. -/
def sameKey (left right : List Scalar) : Bool :=
  left.map Scalar.plain == right.map Scalar.plain

/-- `_scope`. -/
def scope (snapshot : CatalogSnapshot) (spec : SliceSpec) : CatalogSnapshot :=
  let files := snapshot.files.filter fun file => spec.requests file.repoId
  let copies := snapshot.copies.filter fun copy => files.items.any fun file => sameKey copy.fileKey file.key
  let drives := snapshot.drives.filter fun drive =>
    copies.items.any fun copy => sameKey drive.key [copy.driveLabel]
  let anchors := snapshot.anchors.filter fun anchor =>
    drives.items.any fun drive => sameKey anchor.key drive.generationKey
  { snapshot with
    files, copies, drives, anchors, issues := snapshot.issues.filter fun gap => spec.requests gap.repoId }

/-- `_source_snapshot_id`. -/
def sourceSnapshotId (snapshot : CatalogSnapshot) : String :=
  sha.hash (Json.dict [("catalog_id", .str snapshot.catalogId),
    ("files", .arr (snapshot.files.items.map Record.json)),
    ("copies", .arr (snapshot.copies.items.map Record.json)),
    ("drives", .arr (snapshot.drives.items.map DriveFact.evidence)),
    ("anchors", .arr (snapshot.anchors.items.map Record.json)),
    ("issues", .arr (snapshot.issues.items.map Record.json)),
    ("schema_version", .int snapshot.schemaVersion)]).dumps

/-- `_index`; the dictionary keeps the order of the items. -/
def index {α : Type} (key : α → List Scalar) (items : List α) : Except SliceRefusal (List α) :=
  thread (fun result item =>
    if result.any fun other => sameKey (key other) (key item) then .error (.duplicateEvidence (key item))
    else .ok (result ++ [item])) [] items

/-- `.get(…)` of an index. -/
def lookupKey {α : Type} (key : α → List Scalar) (items : List α) (wanted : List Scalar) : Option α :=
  items.find? fun item => sameKey (key item) wanted

/-- The fingerprint of an identity of the snapshot. -/
def identityFingerprintV1 (fsUuid annexUuid serial filesystemCapacityBytes : Scalar) : String :=
  Capacity.identityFingerprintV1 sha.hash fsUuid.json annexUuid.json serial.json filesystemCapacityBytes.json

def isTextOrNull : Scalar → Bool
  | .null => true
  | .str _ => true
  | _ => false

def isNonblank : Scalar → Bool
  | .str text => u.strip text != ""
  | _ => false

def isPositive : Scalar → Bool
  | .int value => 1 ≤ value
  | _ => false

def isFlag : Scalar → Option Bool
  | .bool value => some value
  | _ => none

/-- `archive_hash.expected_sha256` of a file and one of its copies. -/
def originalDigest (file : FileFact) (copy : CopyFact) : Except DigestError (Option String) :=
  u.expectedSha256 file.sha256.str? copy.origSha256.str? (isFlag copy.compressed) copy.annexKey.str?

/-- The provenances that establish an original digest by themselves. -/
def independentProvenances : List String :=
  ["ingestion_computed", "hub_confirmed", "archive-head-blob", "annex_key"]

/-- `proof` of `_source`. -/
def digestProof (copy : CopyFact) (keySize : Option Nat) : Option String :=
  match copy.provenance with
  | .str provenance =>
      if copy.origSha256 ≠ .null ∧ provenance ∈ independentProvenances then some provenance
      else rawProof
  | _ => rawProof
where
  /-- The key of a raw copy names its bytes, whatever the catalog recorded. -/
  rawProof : Option String :=
    if copy.compressed ≠ .bool true ∧ keySize.isSome then some "annex_key" else none

/-- The digest of a copy that qualifies, with its anchor and the provenance of the digest, or the one refusal
    of the candidate. -/
def qualify (file : FileFact) (copy : CopyFact) (drive : DriveFact) (anchors : List AnchorFact) :
    Except Gap (String × AnchorFact × String) := do
  let fail (code detail : String) : Gap :=
    ⟨file.repoId, file.rfilename, .str code, copy.driveLabel, .str detail⟩
  require (isTextOrNull drive.fsUuid && isTextOrNull drive.annexUuid &&
    (isNonblank u drive.fsUuid || isNonblank u drive.annexUuid)) (fail "SOURCE_IDENTITY_UNPROVEN" "")
  require (drive.lifecycle == .str "active")
    { fail "SOURCE_INACTIVE" "" with detail := drive.lifecycle }
  require (isPositive drive.identityEpoch && isPositive drive.writeGeneration &&
    isCount drive.filesystemCapacityBytes && drive.writeAuthority == .str "dedicated_local")
    (fail "SOURCE_RECONCILIATION_REQUIRED" "current clean generation required")
  let fingerprint := identityFingerprintV1 sha drive.fsUuid drive.annexUuid drive.serial
    drive.filesystemCapacityBytes
  let unbound := fail "SOURCE_RECONCILIATION_REQUIRED" "anchor does not bind current identity/generation"
  let anchor ← (lookupKey AnchorFact.key anchors drive.generationKey).elim (.error unbound) .ok
  require (drive.identityFingerprint == .str fingerprint && anchor.anchorId.truthy &&
    anchor.identityFingerprint == .str fingerprint &&
    anchor.filesystemCapacityBytes.plain == drive.filesystemCapacityBytes.plain &&
    anchor.writeAuthority == .str "dedicated_local") unbound
  require (isPath copy.storedRelpath) (fail "SOURCE_PATH_UNSAFE" copy.storedRelpath.text)
  require (isTextOrNull copy.annexKey) (fail "SOURCE_IDENTITY_UNPROVEN" "malformed recorded annex identity")
  let keySize := annexSize decimal (copy.annexKey.str?.getD "")
  require (isCount copy.origBytes && copy.origBytes == file.sizeBytes && isCount copy.storedBytes &&
    keySize.all (fun size => copy.storedBytes == .int size) &&
    (copy.compressed != .bool false || copy.origBytes == copy.storedBytes)) (fail "SOURCE_SIZE_MISMATCH" "")
  require (isFlag copy.compressed).isSome
    (fail "SOURCE_PROVENANCE_UNPROVEN" "compression state unknown")
  require (copy.origSha256 == .null || isDigestText copy.origSha256)
    (fail "SOURCE_PROVENANCE_UNPROVEN" "malformed original digest")
  let digest ← (originalDigest u file copy).mapError fun error =>
    fail "SOURCE_DIGEST_CONFLICT" (digestErrorText error)
  let proof ← (digestProof copy keySize).elim
    (.error (fail "SOURCE_PROVENANCE_UNPROVEN" "no independently established original-byte digest")) .ok
  let unknown := fail "SOURCE_PROVENANCE_UNPROVEN" "original digest unknown"
  let digest ← digest.elim (.error unknown) .ok
  require (isDigestText (.str digest)) unknown
  return (u.lower digest, anchor, proof)

/-- `_source`. -/
def sourceOf (file : FileFact) (copy : CopyFact) (drive : Option DriveFact) (anchors : List AnchorFact) :
    Except Gap (String × SourceEvidence) := do
  let fail (code : String) : Gap :=
    ⟨file.repoId, file.rfilename, .str code, copy.driveLabel, .str ""⟩
  require (copy.present != .bool false) (fail "SOURCE_COPY_ABSENT")
  match drive with
  | none => .error (fail "SOURCE_IDENTITY_UNPROVEN")
  | some drive =>
      let (digest, anchor, proof) ← qualify u decimal sha file copy drive anchors
      return (digest, ⟨copy, drive, anchor, proof⟩)

namespace SlicePreview

variable (preview : SlicePreview)

def sourceReady : Bool :=
  preview.closure != [] && preview.gaps == []

end SlicePreview

def SliceSpec.json (spec : SliceSpec) : Json :=
  .dict [("repo_ids", .arr (spec.repoIds.map .str)), ("destination_id", .str spec.destinationId),
    ("destination_root", .str spec.destinationRoot), ("consumer_profile", .str profile)]

def SourceEvidence.json (source : SourceEvidence) : Json :=
  .dict [("copy", Record.json source.copy), ("drive", source.drive.evidence),
    ("anchor", Record.json source.anchor), ("digest_provenance", .str source.digestProvenance)]

def Artifact.json (artifact : Artifact) : Json :=
  .dict [("repo_id", artifact.repoId.json), ("rfilename", artifact.rfilename.json),
    ("size_bytes", artifact.sizeBytes.json), ("sha256", .str artifact.sha256),
    ("format", artifact.format.json), ("quant", artifact.quant.json),
    ("sources", .arr (artifact.sources.map SourceEvidence.json))]

/-- The text that is sealed. -/
def SlicePreview.canonicalBytes (preview : SlicePreview) : String :=
  (Json.dict [("spec", preview.spec.json), ("snapshot_id", .str preview.snapshotId),
    ("closure", .arr (preview.closure.map Artifact.json)),
    ("gaps", .arr (preview.gaps.map Record.json)), ("version", .str preview.version)]).dumps

/-- Where a file is written, when its name is a path. -/
def outputPath (file : FileFact) : Option String :=
  if isPath file.rfilename then some (file.repoId.text ++ "/" ++ file.rfilename.text) else none

/-- The directories above a path. -/
def parents (path : String) : List String :=
  let names := parts path
  (List.range (names.length - 1)).map fun above => "/".intercalate (names.take (above + 1))

def gapOf (file : FileFact) (code detail : String) : Gap :=
  ⟨file.repoId, file.rfilename, .str code, .null, .str detail⟩

/-- The artifact of copies that qualify, when all of them have one original. -/
def agreed (file : FileFact) (digest : String) (available : List (String × SourceEvidence)) :
    Except SliceRefusal (List Gap ⊕ Artifact) :=
  if available.any fun candidate => candidate.1 != digest then
    .ok (.inl [gapOf file "SOURCE_DIGEST_AMBIGUOUS" "qualifying archived originals disagree"])
  else
    match sortedByTuple (fun source : SourceEvidence => [source.drive.driveLabel]) (available.map Prod.snd) with
    | none => .error .typeError
    | some sources =>
        .ok (.inr ⟨file.repoId, file.rfilename, file.sizeBytes, digest, file.format, file.quant, sources⟩)

/-- What the candidates of a file come to. -/
def resolve (file : FileFact) (candidates : List (Except Gap (String × SourceEvidence))) :
    Except SliceRefusal (List Gap ⊕ Artifact) :=
  match candidates.filterMap Except.toOption with
  | [] =>
      let rejected := candidates.filterMap fun
        | .error refused => some refused
        | .ok _ => none
      .ok (.inl (if rejected = [] then [gapOf file "ARCHIVE_MISSING" ""] else rejected))
  | (digest, source) :: available => agreed file digest ((digest, source) :: available)

/-- One file of the manifest: the gaps that stand against it, or the artifact of its sources. -/
def examine (outputs : List String) (copies : List CopyFact) (drives : List DriveFact)
    (anchors : List AnchorFact) (file : FileFact) : Except SliceRefusal (List Gap ⊕ Artifact) :=
  match outputPath file with
  | none => .ok (.inl [gapOf file "ARTIFACT_PATH_UNSAFE" file.rfilename.text])
  | some output =>
      if (parents output).any outputs.contains then .ok (.inl [gapOf file "OUTPUT_COLLISION" output])
      else if !isCount file.sizeBytes then .ok (.inl [gapOf file "ARTIFACT_SIZE_UNKNOWN" ""])
      else if file.sha256 != .null && !isDigestText file.sha256 then
        .ok (.inl [gapOf file "ARTIFACT_DIGEST_INVALID" ""])
      else
        resolve file ((copies.filter fun copy => sameKey copy.fileKey file.key).map fun copy =>
          sourceOf u decimal sha file copy (lookupKey DriveFact.key drives [copy.driveLabel]) anchors)

/-- The preview of a closure and what stands against it, under its seal. -/
def composePreview (spec : SliceSpec) (snapshotId : String) (closure : List Artifact) (gaps : List Gap) :
    SlicePreview :=
  let proposal : SlicePreview := ⟨spec, snapshotId, closure, (Rows.of gaps).items, "", domainVersion⟩
  { proposal with sealHash := sha.hash proposal.canonicalBytes }

/-- The gaps of repositories without a manifest, where nothing else explains that. -/
def unlisted (spec : SliceSpec) (selected : List FileFact) (issues : List Gap) : List Gap :=
  (spec.repoIds.filter fun repo =>
    !selected.any (fun file => file.repoId == .str repo) && !issues.any fun gap => gap.repoId == .str repo).map
      fun repo => ⟨.str repo, .null, .str "MANIFEST_UNAVAILABLE", .null,
        .str "repository has no archive manifest"⟩

/-- `preview` of a snapshot that is reduced to its scope. -/
def survey (spec : SliceSpec) (files : List FileFact) (copies : List CopyFact) (drives : List DriveFact)
    (anchors : List AnchorFact) (issues : List Gap) (snapshotId : String) :
    Except SliceRefusal SlicePreview := do
  let files ← index FileFact.key files
  let copies ← index CopyFact.key copies
  let drives ← index DriveFact.key drives
  let anchors ← index AnchorFact.key anchors
  let issues := issues.filter fun gap => spec.requests gap.repoId
  let selected := files.filter fun file => spec.requests file.repoId
  let outputs := selected.filterMap outputPath
  let ordered ← (sortedByTuple FileFact.key selected).elim (.error .typeError) .ok
  let examined ← ordered.mapM (examine u decimal sha outputs copies drives anchors)
  let gaps := issues ++ unlisted spec selected issues ++ examined.flatMap (Sum.elim id fun _ => [])
  return composePreview sha spec snapshotId (examined.filterMap Sum.getRight?) gaps

/-- `preview`. -/
def preview (spec : SliceSpec) (snapshot : CatalogSnapshot) : Except SliceRefusal SlicePreview := do
  require (snapshot.schemaVersion == 7 && snapshot.catalogId != "")
    (.coded "INVALID_SNAPSHOT" "logical schema v7 and snapshot provenance required")
  let part := scope snapshot spec
  survey u decimal sha spec part.files.items part.copies.items part.drives.items part.anchors.items
    part.issues.items (sourceSnapshotId sha part)

/-- `_verify`. -/
def verify (proposal : SlicePreview) : Except SliceRefusal Unit :=
  require (proposal.version == domainVersion && proposal.sealHash == sha.hash proposal.canonicalBytes)
    (.coded "PREVIEW_TAMPERED" "")

/-- `approve`. -/
def approve (proposal : SlicePreview) (expectedSeal : String) (currentSnapshot : CatalogSnapshot) :
    Except SliceRefusal SliceApproval := do
  verify sha proposal
  require (expectedSeal == proposal.sealHash) (.coded "PREVIEW_STALE" "reviewed seal differs")
  require proposal.sourceReady (.coded "PREVIEW_BLOCKED" "")
  let current ← preview u decimal sha proposal.spec currentSnapshot
  require (current.sealHash == proposal.sealHash)
    (.coded "PREVIEW_STALE" "catalog evidence changed since preview")
  return ⟨proposal.sealHash, "domain", domainVersion⟩

/-- `validate_approval`. -/
def validateApproval (proposal : SlicePreview) (approval : SliceApproval) : Except SliceRefusal Unit := do
  verify sha proposal
  require (approval.stage == "domain" && approval.version == domainVersion &&
    approval.previewSeal == proposal.sealHash && proposal.sourceReady) (.coded "APPROVAL_MISMATCH" "")

end Modelark.Slice.Domain
