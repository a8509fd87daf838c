import Modelark.Slice.Contracts

/-!
# Stored plans

The three kinds of plans that share the column of the transaction store: transfers to a whole drive, to a folder of
a native filesystem and to a folder of a FAT32 filesystem. Each writes itself as a record under its own version, and
one loader reads them back.
-/

namespace Modelark.Slice.Domain

open Library Proposal Archive
open Conversion (parts)

section Texts

variable (u : Unicode)

/-- `_text`. -/
def isText (value : String) : Bool :=
  value != "" && u.strip value == value && !value.toList.contains '\x00'

/-- `_component`. -/
def isComponent (value : String) : Bool :=
  isText u value && value != "." && value != ".." && value.toList.all fun c => !(['/', '\\', ':'].contains c)

end Texts

/-- A lowercase hexadecimal text of this length. -/
def isHexText (length : Nat) (value : String) : Bool :=
  value.length == length && value.toList.all isHex

/-- `str(PurePosixPath(…))` of segments: a segment that starts at a root replaces those before it. -/
def purePath (segments : List String) : String :=
  let joined := segments.foldl (fun path segment =>
    if segment.startsWith "/" then segment
    else if path = "" || path.endsWith "/" then path ++ segment else path ++ "/" ++ segment) ""
  let root := if joined.startsWith "//" && !joined.startsWith "///" then "//"
    else if joined.startsWith "/" then "/" else ""
  let names := (parts joined).filter fun part => part != "" && part != "."
  if root = "" ∧ names = [] then "." else root ++ "/".intercalate names

def planInvalid (detail : String) : Failure :=
  refuse "FOLDER_PLAN_INVALID" detail

/-- `_absolute`. -/
def checkAbsolute (value : String) : Except Failure Unit :=
  require (value.startsWith "/" && !value.toList.contains '\x00' && !value.startsWith "//" &&
    purePath [value] == value && !(parts value).contains "..") (planInvalid "canonical absolute path required")

/-- `_backing`. -/
def checkBacking (u : Unicode) (values : List String) : Except Failure Unit := do
  require (values != [] && values.all (isText u)) (planInvalid "backing identities required")
  require (decide (values.Pairwise (· < ·))) (planInvalid "backing identities must be sorted and unique")

structure CapacityObservation where
  availableBytes : Nat
  freeInodes : Option Nat
  headroomBytes : Nat
  deriving Repr, DecidableEq

namespace CapacityObservation

def names : List String := ["available_bytes", "free_inodes", "headroom_bytes"]

def record (capacity : CapacityObservation) : Json :=
  .dict [("available_bytes", .int capacity.availableBytes),
    ("free_inodes", .ofInt (capacity.freeInodes.map Int.ofNat)), ("headroom_bytes", .int capacity.headroomBytes)]

def read (record : Json) : Except Failure CapacityObservation := do
  let refused := contractRefused "nonnegative integer capacity observations required"
  let availableBytes ← countOr refused (← field "available_bytes" record)
  let freeInodes ← match ← field "free_inodes" record with
    | .null => .ok none
    | value => (countOr refused value).map some
  let headroomBytes ← countOr refused (← field "headroom_bytes" record)
  return ⟨availableBytes, freeInodes, headroomBytes⟩

end CapacityObservation

/-- `DecodePolicy` with its limits and its memory policy, at the one version of either. -/
structure DecodePolicy where
  storedFrameBytes : Nat
  decodedFrameBytes : Nat
  readBytes : Nat
  zstdWindowBytes : Nat
  addressSpaceBytes : Nat
  reserveBytes : Nat
  deriving Repr, DecidableEq

namespace DecodePolicy

def names : List String := ["version", "limits", "memory", "zstd_window_unit"]

def limitNames : List String :=
  ["stored_frame_bytes", "decoded_frame_bytes", "read_bytes", "zstd_window_bytes"]

def memoryNames : List String := ["version", "address_space_bytes", "reserve_bytes"]

def record (policy : DecodePolicy) : Json :=
  .dict [("version", .str "modelark.original-decode.v1"),
    ("limits", .dict [("stored_frame_bytes", .int policy.storedFrameBytes),
      ("decoded_frame_bytes", .int policy.decodedFrameBytes), ("read_bytes", .int policy.readBytes),
      ("zstd_window_bytes", .int policy.zstdWindowBytes)]),
    ("memory", .dict [("version", .str "modelark.codec-memory.v1"),
      ("address_space_bytes", .int policy.addressSpaceBytes), ("reserve_bytes", .int policy.reserveBytes)]),
    ("zstd_window_unit", .str "bytes")]

def check (policy : DecodePolicy) : Except Failure Unit := do
  require (decide (0 < policy.storedFrameBytes ∧ 0 < policy.decodedFrameBytes ∧ 0 < policy.readBytes ∧
    0 < policy.zstdWindowBytes ∧ 0 < policy.addressSpaceBytes)) .raised
  require (decide (policy.readBytes ≤ 2 ^ 20 ∧ policy.decodedFrameBytes ≤ policy.addressSpaceBytes ∧
    policy.storedFrameBytes ≤ policy.addressSpaceBytes ∧ policy.zstdWindowBytes ≤ 2 ^ 26)) .raised

/-- `DecodePolicy.from_record`. -/
def fromRecord (record : Json) : Except Failure DecodePolicy := do
  require (record.hasKeys names) .raised
  let limits ← field "limits" record
  require (limits.hasKeys limitNames) .raised
  let memory ← field "memory" record
  require (memory.hasKeys memoryNames) .raised
  let policy : DecodePolicy := ⟨← countOr .raised (← field "stored_frame_bytes" limits),
    ← countOr .raised (← field "decoded_frame_bytes" limits), ← countOr .raised (← field "read_bytes" limits),
    ← countOr .raised (← field "zstd_window_bytes" limits),
    ← countOr .raised (← field "address_space_bytes" memory), ← countOr .raised (← field "reserve_bytes" memory)⟩
  require ((← textOr .raised (← field "version" memory)) == "modelark.codec-memory.v1") .raised
  require ((← textOr .raised (← field "version" record)) == "modelark.original-decode.v1") .raised
  require ((← textOr .raised (← field "zstd_window_unit" record)) == "bytes") .raised
  policy.check
  return policy

end DecodePolicy

/-- Inode and birth time of a native parent, or the token of a live session. -/
inductive ParentIdentity where
  | native (inode birth : Nat)
  | token (text : String)
  deriving Repr, DecidableEq

def ParentIdentity.record : ParentIdentity → Json
  | .native inode birth => .arr [.int inode, .int birth]
  | .token text => .str text

structure FolderTarget where
  profile : FolderProfile
  filesystemScope : String
  parentParts : List String
  parentIdentity : ParentIdentity
  childName : String
  deriving Repr, DecidableEq

def readProfile (refused : Failure) : Json → Except Failure FolderProfile
  | .str text =>
      if text = FolderProfile.nativeExt4.value then .ok .nativeExt4
      else if text = FolderProfile.fat32Session.value then .ok .fat32Session
      else .error refused
  | _ => .error refused

namespace FolderTarget

def names : List String :=
  ["profile", "filesystem_scope", "parent_parts", "parent_identity", "child_name"]

def fields (target : FolderTarget) : List (String × Json) :=
  [("profile", .str target.profile.value), ("filesystem_scope", .str target.filesystemScope),
    ("parent_parts", .arr (target.parentParts.map .str)), ("parent_identity", target.parentIdentity.record),
    ("child_name", .str target.childName)]

/-- `_record`. -/
def taggedRecord (target : FolderTarget) : Json :=
  .dict (("version", .str "modelark.slice.folder-target.v1") :: target.fields)

def targetId (sha : Digester) (target : FolderTarget) : String :=
  "folder-target-v1:" ++ sha.hash target.taggedRecord.dumps

def identityRefused : FolderProfile → Failure
  | .nativeExt4 => contractRefused "native parent inode and birth identity required"
  | .fat32Session => contractRefused
      "retained-session parent token required; persistent FAT32 identity is unsupported"

def check (u : Unicode) (target : FolderTarget) : Except Failure Unit := do
  require (isText u target.filesystemScope) (contractRefused "unambiguous filesystem scope required")
  require (target.parentParts.all (isComponent u)) (contractRefused "canonical single path component required")
  require (isComponent u target.childName) (contractRefused "canonical single path component required")
  match target.profile, target.parentIdentity with
  | .nativeExt4, .native inode birth =>
      require (decide (inode ≠ 0 ∧ birth ≠ 0)) (identityRefused .nativeExt4)
  | .fat32Session, .token text => require (isHexText 32 text) (identityRefused .fat32Session)
  | profile, _ => .error (identityRefused profile)

def readIdentity (profile : FolderProfile) : Json → Except Failure ParentIdentity
  | .arr [inode, birth] => do
      return .native (← countOr (identityRefused profile) inode) (← countOr (identityRefused profile) birth)
  | .str text => .ok (.token text)
  | _ => .error (identityRefused profile)

/-- `FolderTarget(**record)`. -/
def read (u : Unicode) (record : Json) : Except Failure FolderTarget := do
  let profile ← readProfile (contractRefused "unsupported folder profile") (← field "profile" record)
  let filesystemScope ← textOr (contractRefused "unambiguous filesystem scope required")
    (← field "filesystem_scope" record)
  let parentParts ← textsOr (contractRefused "filesystem-relative parent components required")
    (← field "parent_parts" record)
  let childName ← textOr (contractRefused "canonical single path component required")
    (← field "child_name" record)
  let parentIdentity ← readIdentity profile (← field "parent_identity" record)
  let target : FolderTarget := ⟨profile, filesystemScope, parentParts, parentIdentity, childName⟩
  target.check u
  return target

end FolderTarget

namespace Fat32Layout

def layoutRefused (detail : String) : Failure :=
  refuse "DESTINATION_LAYOUT_UNSUPPORTED" detail

/-- `_DEVICES`. -/
def devices : List String :=
  ["CON", "PRN", "AUX", "NUL", "CLOCK$", "COM1", "COM2", "COM3", "COM4", "COM5", "COM6", "COM7", "COM8", "COM9",
    "LPT1", "LPT2", "LPT3", "LPT4", "LPT5", "LPT6", "LPT7", "LPT8", "LPT9"]

def lowerAscii (text : String) : String :=
  String.ofList (text.toList.map Char.toLower)

def upperAscii (text : String) : String :=
  String.ofList (text.toList.map Char.toUpper)

/-- `_TEMPORARY`. -/
def temporary : String := ".slice-" ++ String.ofList (List.replicate 32 '0')

/-- `_name`. The pattern leaves only ASCII characters, of which the blank alone is stripped. -/
def checkName (generated : Bool) (value : String) : Except Failure Unit := do
  require (value != "" && value.toList.all isAsciiName && value != "." && value != ".." &&
    value.toList.head? != some ' ' && value.toList.getLast? != some ' ' && value.toList.getLast? != some '.' &&
    value.length ≤ 255) (layoutRefused "unsupported FAT32 component")
  require (!devices.contains (upperAscii (String.ofList (value.toList.takeWhile (· != '.')))))
    (layoutRefused "reserved DOS device name")
  require (generated || !(lowerAscii value).startsWith ".slice-") (layoutRefused "reserved temporary namespace")

/-- `_size`. -/
def checkSize (size : Scalar) : Except Failure Unit :=
  match size with
  | .int value => require (decide (0 ≤ value ∧ value < 2 ^ 32))
      (layoutRefused "FAT32 requires each file, control and report to fit 32-bit size")
  | _ => .error (layoutRefused "FAT32 requires each file, control and report to fit 32-bit size")

/-- `path_length`. -/
def checkLength (parentPath path : String) : Except Failure Unit :=
  let parent := String.ofList (parentPath.toList.reverse.dropWhile (· == '/')).reverse
  require (decide (path.utf8ByteSize < 4096 ∧ (parent ++ "/" ++ path).utf8ByteSize < 4096))
    (layoutRefused "FAT32 output or intermediate path exceeds qualified path bound")

/-- The entries of a path that is written: its directories and the file. -/
def entriesOf (path : String) : List (String × Bool) :=
  let names := parts path
  (List.range names.length).map fun place =>
    ("/".intercalate (names.take (place + 1)), place + 1 == names.length)

/-- One entry joins the namespace, in which case does not count. -/
def admitEntry (spaces : List (String × Bool)) (entry : String × Bool) :
    Except Failure (List (String × Bool)) := do
  require ((spaces.find? fun other => lowerAscii other.1 == lowerAscii entry.1).all fun other =>
    other == entry && !entry.2) (layoutRefused "duplicate, case-equivalent or file/directory collision")
  return spaces ++ [entry]

/-- The directory of a path. -/
def parentOf (path : String) : String :=
  "/".intercalate (parts path).dropLast

def admitPath (parentPath : String) (spaces : List (String × Bool)) (path : String) :
    Except Failure (List (String × Bool)) := do
  thread (fun _ name => checkName false name) () (parts path)
  let spaces ← thread admitEntry spaces (entriesOf path)
  checkLength parentPath path
  checkName true temporary
  checkLength parentPath (parentOf path ++ "/" ++ temporary)
  return spaces

/-- `admit_layout`. -/
def admitLayout (files : List (String × Scalar)) (outputRoot parentPath : String)
    (controlSize receiptSize : Nat) : Except Failure Unit := do
  checkName false outputRoot
  (checkAbsolute parentPath).mapError fun _ =>
    layoutRefused "FOLDER_PLAN_INVALID: canonical absolute path required"
  checkSize (.int controlSize)
  checkSize (.int receiptSize)
  require (files != []) (layoutRefused "nonempty payload layout required")
  thread (fun _ file => do
    thread (fun _ name => checkName false name) () (parts file.1)
    checkSize file.2) () files
  let paths := (files.map fun file => outputRoot ++ "/" ++ file.1) ++
    [outputRoot ++ "/.modelark-slice-owner", outputRoot ++ "/.modelark-slice-receipt.json"]
  let _ ← thread (admitPath parentPath) [] paths
  return ()

end Fat32Layout

structure Fat32Intent where
  profile : FolderProfile
  filesystemScope : String
  parentParts : List String
  childName : String
  deriving Repr, DecidableEq

namespace Fat32Intent

def names : List String := ["profile", "filesystem_scope", "parent_parts", "child_name"]

def fields (target : Fat32Intent) : List (String × Json) :=
  [("profile", .str target.profile.value), ("filesystem_scope", .str target.filesystemScope),
    ("parent_parts", .arr (target.parentParts.map .str)), ("child_name", .str target.childName)]

def taggedRecord (target : Fat32Intent) : Json :=
  .dict (("version", .str "modelark.slice.fat32-intent.v1") :: target.fields)

def targetId (sha : Digester) (target : Fat32Intent) : String :=
  "fat32-intent-v1:" ++ sha.hash target.taggedRecord.dumps

def check (u : Unicode) (target : Fat32Intent) : Except Failure Unit := do
  require (target.profile == .fat32Session && isText u target.filesystemScope)
    (refuse "FAT32_PLAN_INVALID" "FAT32 path/backing intent required")
  thread (fun _ name => Fat32Layout.checkName false name) () (target.parentParts ++ [target.childName])

/-- `Fat32Intent(**record)`. -/
def read (u : Unicode) (record : Json) : Except Failure Fat32Intent := do
  let required := refuse "FAT32_PLAN_INVALID" "FAT32 path/backing intent required"
  let profile ← readProfile (refuse "FAT32_PLAN_INVALID" "FAT32 session profile required")
    (← field "profile" record)
  let filesystemScope ← textOr required (← field "filesystem_scope" record)
  let parentParts ← textsOr required (← field "parent_parts" record)
  let childName ← textOr (Fat32Layout.layoutRefused "unsupported FAT32 component")
    (← field "child_name" record)
  let target : Fat32Intent := ⟨profile, filesystemScope, parentParts, childName⟩
  target.check u
  return target

end Fat32Intent

section Metadata

variable (sha : Digester)

/-- The first source with the longest record. -/
def longestSource : List SourceEvidence → Option SourceEvidence
  | [] => none
  | source :: sources => some (sources.foldl (fun longest other =>
      if longest.record.dumps.length < other.record.dumps.length then other else longest) source)

/-- The entry of an artifact in a receipt. -/
def receiptFile (destinationRoot : String) (artifact : Artifact) : Except Failure Json := do
  let repoId ← (artifact.repoId.str?).elim (.error .raised) .ok
  let rfilename ← (artifact.rfilename.str?).elim (.error .raised) .ok
  let source ← (longestSource artifact.sources).elim (.error .raised) .ok
  return .dict [("path", .str (purePath [destinationRoot, repoId, rfilename])), ("size", artifact.sizeBytes.json),
    ("sha256", .str artifact.sha256), ("source", source.record)]

def receiptFiles (proposal : SlicePreview) : Except Failure (List Json) :=
  proposal.closure.mapM (receiptFile proposal.spec.destinationRoot)

def emptyTransaction : String := String.ofList (List.replicate 32 '0')

/-- The length of the control record of a transaction. -/
def controlSize (planSeal : String) (destination : Json) : Nat :=
  (Json.dict [("transaction", .str emptyTransaction), ("seal", .str planSeal), ("store", .str ""),
    ("destination", destination)]).dumps.length

/-- `verification` of a receipt. -/
def verification (layout : String) (count : Nat) : Json :=
  .dict [("content", .str "sha256-original-bytes"), ("layout", .str layout), ("result", .str "verified"),
    ("file_count", .int count)]

/-- The number that a scalar is to a sum. -/
def summand : Scalar → Except Failure Int
  | .int value => .ok value
  | .bool value => .ok value.toInt
  | _ => .error .raised

/-- `total_bytes`. -/
def totalBytes (proposal : SlicePreview) : Except Failure Int := do
  return (← proposal.closure.mapM fun artifact => summand artifact.sizeBytes).sum

end Metadata

structure DestinationBinding where
  deviceId : String
  filesystemId : String
  mountId : String
  availableBytes : Nat
  deriving Repr, DecidableEq

namespace DestinationBinding

def names : List String := ["device_id", "filesystem_id", "mount_id", "available_bytes"]

def record (binding : DestinationBinding) : Json :=
  .dict [("device_id", .str binding.deviceId), ("filesystem_id", .str binding.filesystemId),
    ("mount_id", .str binding.mountId), ("available_bytes", .int binding.availableBytes)]

def check (u : Unicode) (binding : DestinationBinding) : Except Failure Unit :=
  require ([binding.deviceId, binding.filesystemId, binding.mountId].all fun text => u.strip text != "")
    (refuse "DESTINATION_UNPROVEN" "")

/-- `DestinationBinding(**record)`. -/
def read (u : Unicode) (record : Json) : Except Failure DestinationBinding := do
  require (record.hasKeys names) .raised
  let unproven := refuse "DESTINATION_UNPROVEN" ""
  let binding : DestinationBinding := ⟨← textOr unproven (← field "device_id" record),
    ← textOr unproven (← field "filesystem_id" record), ← textOr unproven (← field "mount_id" record),
    ← countOr unproven (← field "available_bytes" record)⟩
  binding.check u
  return binding

end DestinationBinding

inductive TransferVersion where
  | v1
  | v2
  | v3
  deriving Repr, DecidableEq

def TransferVersion.value : TransferVersion → String
  | .v1 => "modelark.slice.transaction.v1"
  | .v2 => "modelark.slice.transaction.v2"
  | .v3 => "modelark.slice.transaction.v3"

def TransferVersion.all : List TransferVersion := [.v1, .v2, .v3]

structure TransferPlan where
  proposal : SlicePreview
  destination : DestinationBinding
  version : TransferVersion
  metadataReserveBytes : Option Nat

namespace TransferPlan

variable (u : Unicode) (sha : Digester)

/-- What `to_json` writes. -/
def record (plan : TransferPlan) : Json :=
  .dict ([("proposal", plan.proposal.record), ("destination", plan.destination.record),
    ("version", .str plan.version.value)] ++
      if plan.version = .v3 then [("metadata_reserve_bytes", .ofInt (plan.metadataReserveBytes.map Int.ofNat))]
      else [])

def toJson (plan : TransferPlan) : String :=
  plan.record.dumps

/-- `seal`. -/
def sealHash (plan : TransferPlan) : String :=
  sha.hash plan.toJson

def receipt (plan : TransferPlan) (files : List Json) : Json :=
  .dict ([("version", .str plan.version.value), ("transaction", .str emptyTransaction),
    ("seal", .str (plan.sealHash sha)), ("destination", plan.destination.record), ("files", .arr files)] ++
      if plan.version = .v1 then []
      else [("plan", plan.record), ("topology", .str "direct"), ("status", .str "complete"),
        ("verification", verification "authenticated" files.length)])

/-- `required_bytes("")`. -/
def requiredBytes (plan : TransferPlan) : Except Failure Int := do
  let files ← receiptFiles plan.proposal
  let minimum := controlSize (plan.sealHash sha) plan.destination.record +
    (plan.receipt sha files).dumps.length
  let reserve := plan.metadataReserveBytes.getD minimum
  let total ← totalBytes plan.proposal
  require (decide (minimum ≤ reserve ∧ total + reserve ≤ plan.destination.availableBytes))
    (refuse "DESTINATION_CAPACITY_INSUFFICIENT" "artifact and transaction metadata charge")
  return total + reserve

/-- `__post_init__`. -/
def check (plan : TransferPlan) : Except Failure Unit := do
  (verify sha plan.proposal).mapError SliceRefusal.failure
  require plan.proposal.sourceReady (refuse "PREVIEW_BLOCKED" "")
  require (plan.proposal.spec.destinationId == plan.destination.deviceId)
    (refuse "DESTINATION_CHANGED" "binding differs from reviewed destination intent")
  require (decide ((← totalBytes plan.proposal) ≤ plan.destination.availableBytes))
    (refuse "DESTINATION_CAPACITY_INSUFFICIENT" "")
  require (plan.metadataReserveBytes.isSome == (plan.version == .v3))
    (refuse "DESTINATION_CAPACITY_UNPROVEN" "explicit metadata reserve required")
  require ((parts plan.proposal.spec.destinationRoot).head? != some ".modelark-slice-owner")
    (refuse "OUTPUT_COLLISION" "reserved control path")
  if plan.version = .v3 then
    let _ ← plan.requiredBytes sha
  return ()

/-- The envelope of a version. -/
def names (version : TransferVersion) : List String :=
  ["proposal", "destination", "version"] ++ if version = .v3 then ["metadata_reserve_bytes"] else []

/-- `TransferPlan.from_json`, of a record without a key twice. The reserve of an earlier version is dropped. -/
def fromRecord (record : Json) : Except Failure TransferPlan := do
  let unsupported := Failure.raised
  let text ← textOr unsupported (← field "version" record)
  let version ← (TransferVersion.all.find? fun version => version.value == text).elim (.error unsupported) .ok
  require (record.hasKeys (names version)) .raised
  let proposal ← decodeProposal u (← field "proposal" record)
  let destination ← DestinationBinding.read u (← field "destination" record)
  let metadataReserveBytes ←
    if version = .v3 then
      (countOr (refuse "DESTINATION_CAPACITY_UNPROVEN" "explicit metadata reserve required")
        (← field "metadata_reserve_bytes" record)).map some
    else .ok none
  let plan : TransferPlan := ⟨proposal, destination, version, metadataReserveBytes⟩
  plan.check sha
  return plan

end TransferPlan

/-- What one kind of folder plans does its own way. -/
structure FolderKind (τ : Type) where
  version : String
  policyVersion : String
  admissionPrefix : String
  policyPrefix : String
  invalid : String
  bindingDetail : String
  admissionDetail : String
  changedDetail : String
  reserveDetail : String
  targetNames : List String
  targetFields : τ → List (String × Json)
  taggedRecord : τ → Json
  targetId : τ → String
  childName : τ → String
  profile : τ → FolderProfile
  ownProfile : FolderProfile
  checkTarget : τ → Except Failure Unit
  readTarget : Json → Except Failure τ
  receiptFields : List (String × Json)
  layout : String
  /-- The check of the layout, of a proposal, the parent path, the child name and the two sizes. -/
  checkLayout : SlicePreview → String → String → Nat → Nat → Except Failure Unit

structure FolderBinding (τ : Type) where
  target : τ
  admissionId : String
  deriving DecidableEq

structure FolderPlan (τ : Type) where
  proposal : SlicePreview
  destination : FolderBinding τ
  catalog : String
  parentPath : String
  backingIds : List String
  capacity : CapacityObservation
  metadataReserveBytes : Nat
  decodePolicy : Option DecodePolicy

namespace FolderKind

variable {τ : Type} (kind : FolderKind τ) (u : Unicode) (sha : Digester)

/-- The version that goes with a decoding policy or without one. -/
def versionOf (policy : Option DecodePolicy) : String :=
  if policy.isSome then kind.policyVersion else kind.version

def targetRecord (target : τ) : Json :=
  .dict (kind.targetFields target)

def bindingRecord (binding : FolderBinding τ) : Json :=
  .dict [("target", kind.targetRecord binding.target), ("admission_id", .str binding.admissionId)]

/-- `__post_init__` of a binding. -/
def checkBinding (binding : FolderBinding τ) : Except Failure Unit :=
  let name := String.ofList (binding.admissionId.toList.takeWhile (· != ':'))
  let digest := String.ofList (binding.admissionId.toList.drop (name.length + 1))
  require (kind.profile binding.target == kind.ownProfile &&
    (name == kind.admissionPrefix || name == kind.policyPrefix) && isHexText 64 digest)
    (refuse kind.invalid kind.bindingDetail)

/-- `binding_for`. -/
def bindingFor (target : τ) (catalog parentPath : String) (backingIds : List String)
    (policy : Option DecodePolicy) : Except Failure (FolderBinding τ) := do
  checkAbsolute catalog
  checkAbsolute parentPath
  checkBacking u backingIds
  let payload := Json.dict ([("version", .str (kind.versionOf policy)), ("target", kind.taggedRecord target),
    ("catalog", .str catalog), ("parent_path", .str parentPath), ("backing_ids", .arr (backingIds.map .str))] ++
      policy.elim [] fun policy => [("decode_policy", policy.record)])
  let name := if policy.isSome then kind.policyPrefix else kind.admissionPrefix
  let binding : FolderBinding τ := ⟨target, name ++ ":" ++ sha.hash payload.dumps⟩
  kind.checkBinding binding
  return binding

/-- What `to_json` writes. -/
def record (plan : FolderPlan τ) : Json :=
  .dict ([("proposal", plan.proposal.record), ("destination", kind.bindingRecord plan.destination),
    ("catalog", .str plan.catalog), ("parent_path", .str plan.parentPath),
    ("backing_ids", .arr (plan.backingIds.map .str)), ("capacity", plan.capacity.record),
    ("metadata_reserve_bytes", .int plan.metadataReserveBytes),
    ("version", .str (kind.versionOf plan.decodePolicy))] ++
      plan.decodePolicy.elim [] fun policy => [("decode_policy", policy.record)])

def toJson (plan : FolderPlan τ) : String :=
  (kind.record plan).dumps

/-- `seal`. -/
def sealHash (plan : FolderPlan τ) : String :=
  sha.hash (kind.toJson plan)

def receipt (plan : FolderPlan τ) (files : List Json) : Json :=
  .dict ([("version", .str (kind.versionOf plan.decodePolicy)), ("transaction", .str emptyTransaction),
    ("seal", .str (kind.sealHash sha plan)), ("destination", kind.bindingRecord plan.destination),
    ("files", .arr files), ("plan", kind.record plan), ("topology", .str "folder"),
    ("profile", .str (kind.profile plan.destination.target).value),
    ("capacity_evidence", .str "advisory-shared-space-not-reserved"),
    ("verification", verification kind.layout files.length)] ++ kind.receiptFields)

/-- `required_bytes("")`. -/
def requiredBytes (plan : FolderPlan τ) : Except Failure Int := do
  let files ← receiptFiles plan.proposal
  let control := controlSize (kind.sealHash sha plan) (kind.bindingRecord plan.destination)
  let receipt := (kind.receipt sha plan files).dumps.length
  kind.checkLayout plan.proposal plan.parentPath (kind.childName plan.destination.target) control receipt
  require (decide (control + receipt ≤ plan.metadataReserveBytes))
    (refuse "DESTINATION_CAPACITY_UNPROVEN" kind.reserveDetail)
  return (← totalBytes plan.proposal) + plan.metadataReserveBytes + plan.capacity.headroomBytes

/-- `__post_init__` of a plan. -/
def check (plan : FolderPlan τ) : Except Failure Unit := do
  (verify sha plan.proposal).mapError SliceRefusal.failure
  require plan.proposal.sourceReady (refuse "PREVIEW_BLOCKED" "")
  checkBacking u plan.backingIds
  let expected ← kind.bindingFor u sha plan.destination.target plan.catalog plan.parentPath plan.backingIds
    plan.decodePolicy
  require (plan.destination.admissionId == expected.admissionId) (refuse "ADMISSION_CORRUPT" kind.admissionDetail)
  require (plan.proposal.spec.destinationId == kind.targetId plan.destination.target &&
    plan.proposal.spec.destinationRoot == kind.childName plan.destination.target)
    (refuse "DESTINATION_CHANGED" kind.changedDetail)
  let _ ← kind.requiredBytes sha plan
  return ()

/-- The fields of a plan of this version. -/
def names (version : String) : List String :=
  ["proposal", "destination", "catalog", "parent_path", "backing_ids", "capacity", "metadata_reserve_bytes",
    "version"] ++ if version = kind.policyVersion then ["decode_policy"] else []

def readBinding (record : Json) : Except Failure (FolderBinding τ) := do
  requireFields ["target", "admission_id"] record
  let target ← field "target" record
  requireFields kind.targetNames target
  let binding : FolderBinding τ := ⟨← kind.readTarget target,
    ← textOr (refuse kind.invalid kind.bindingDetail) (← field "admission_id" record)⟩
  kind.checkBinding binding
  return binding

def readPolicy (version : String) (record : Json) : Except Failure (Option DecodePolicy) :=
  if version = kind.policyVersion then do
    return some (← DecodePolicy.fromRecord (← field "decode_policy" record))
  else .ok none

/-- `from_json`, of the record. -/
def fromRecord (record : Json) : Except Failure (FolderPlan τ) := do
  let version ← textOr .raised ((record.get? "version").getD .null)
  requireFields (kind.names version) record
  require (version == kind.version || version == kind.policyVersion) .raised
  let proposal ← field "proposal" record
  checkProposal proposal
  let typed := refuse kind.invalid "typed plan required"
  let capacity ← field "capacity" record
  requireFields CapacityObservation.names capacity
  let proposal ← decodeProposal u proposal
  let destination ← kind.readBinding (← field "destination" record)
  let capacity ← CapacityObservation.read capacity
  let policy ← kind.readPolicy version record
  let catalog ← textOr (planInvalid "canonical absolute path required") (← field "catalog" record)
  let parentPath ← textOr (planInvalid "canonical absolute path required") (← field "parent_path" record)
  let backingIds ← textsOr (planInvalid "backing identities required") (← field "backing_ids" record)
  let metadataReserveBytes ← countOr typed (← field "metadata_reserve_bytes" record)
  let plan : FolderPlan τ := ⟨proposal, destination, catalog, parentPath, backingIds, capacity,
    metadataReserveBytes, policy⟩
  kind.check u sha plan
  return plan

end FolderKind

/-- Plans for a folder of a native filesystem. -/
def nativeKind (u : Unicode) (sha : Digester) : FolderKind FolderTarget where
  version := "modelark.slice.native-transaction.v1"
  policyVersion := "modelark.slice.native-transaction.v2"
  admissionPrefix := "native-folder-v1"
  policyPrefix := "native-folder-v2"
  invalid := "FOLDER_PLAN_INVALID"
  bindingDetail := "native binding required"
  admissionDetail := "native admission differs from binding"
  changedDetail := "closure differs from reviewed folder intent"
  reserveDetail := "native metadata reserve is too small"
  targetNames := FolderTarget.names
  targetFields := FolderTarget.fields
  taggedRecord := FolderTarget.taggedRecord
  targetId := FolderTarget.targetId sha
  childName := FolderTarget.childName
  profile := FolderTarget.profile
  ownProfile := .nativeExt4
  checkTarget := FolderTarget.check u
  readTarget := FolderTarget.read u
  receiptFields := [("status", .str "complete"), ("resume_policy", .str "authenticated")]
  layout := "authenticated"
  checkLayout _ _ _ _ _ := .ok ()

/-- The file of an artifact in a FAT32 layout. -/
def layoutFile (artifact : Artifact) : Except Failure (String × Scalar) := do
  let repoId ← (artifact.repoId.str?).elim (.error .raised) .ok
  let rfilename ← (artifact.rfilename.str?).elim (.error .raised) .ok
  return (repoId ++ "/" ++ rfilename, artifact.sizeBytes)

/-- Plans for a folder of a FAT32 filesystem. -/
def fat32Kind (u : Unicode) (sha : Digester) : FolderKind Fat32Intent where
  version := "modelark.slice.fat32-transaction.v1"
  policyVersion := "modelark.slice.fat32-transaction.v2"
  admissionPrefix := "fat32-folder-v1"
  policyPrefix := "fat32-folder-v2"
  invalid := "FAT32_PLAN_INVALID"
  bindingDetail := "FAT32 intent binding required"
  admissionDetail := "FAT32 admission differs from binding"
  changedDetail := "closure differs from reviewed FAT32 intent"
  reserveDetail := "FAT32 metadata reserve is too small"
  targetNames := Fat32Intent.names
  targetFields := Fat32Intent.fields
  taggedRecord := Fat32Intent.taggedRecord
  targetId := Fat32Intent.targetId sha
  childName := Fat32Intent.childName
  profile := Fat32Intent.profile
  ownProfile := .fat32Session
  checkTarget := Fat32Intent.check u
  readTarget := Fat32Intent.read u
  receiptFields := [("status", .str "export-verified"), ("resume_policy", .str "new-root"),
    ("host_transaction_completion", .str "not-claimed"),
    ("receipt_persistence", .str "not-self-certified")]
  layout := "live-session-authenticated"
  checkLayout proposal parentPath childName control receipt := do
    Fat32Layout.admitLayout (← proposal.closure.mapM layoutFile) childName parentPath control receipt

abbrev NativePlan := FolderPlan FolderTarget

abbrev Fat32Plan := FolderPlan Fat32Intent

/-- A plan of any kind. -/
inductive StoredPlan where
  | transfer (plan : TransferPlan)
  | native (plan : NativePlan)
  | fat32 (plan : Fat32Plan)

/-- What a refusal that is raised again says of the one before it. -/
def failureDetail : Failure → String
  | .refused refusal => refusal.text
  | .raised => ""

section Loading

variable (u : Unicode) (sha : Digester)

/-- `except …: raise TransferRefusal("STATE_CORRUPT", …)`. -/
def corrupt {α : Type} (start : String) (result : Except Failure α) : Except Failure α :=
  result.mapError fun failure => refuse "STATE_CORRUPT" (start ++ failureDetail failure)

/-- `NativePlan.from_json`. -/
def NativePlan.fromJson (payload : String) : Except Failure NativePlan :=
  corrupt "invalid native plan: " (do (nativeKind u sha).fromRecord u sha (← decodePayload payload))

/-- `Fat32Plan.from_json`. -/
def Fat32Plan.fromJson (payload : String) : Except Failure Fat32Plan :=
  corrupt "invalid FAT32 plan: " (do (fat32Kind u sha).fromRecord u sha (← decodePayload payload))

/-- `TransferPlan.from_json`, of a payload that `_decode` has read before. -/
def TransferPlan.fromJson (payload : String) : Except Failure TransferPlan :=
  corrupt "" (do TransferPlan.fromRecord u sha (← (Json.loads payload).elim (.error .raised) .ok))

/-- `_load_plan`. -/
def loadPlan (payload : String) : Except Failure StoredPlan :=
  corrupt "" (do
    let record ← decodePayload payload
    require (record matches .obj _) .raised
    match record.get? "version" with
    | some (.str version) =>
        if version = (nativeKind u sha).version ∨ version = (nativeKind u sha).policyVersion then
          (NativePlan.fromJson u sha payload).map .native
        else if version = (fat32Kind u sha).version ∨ version = (fat32Kind u sha).policyVersion then
          (Fat32Plan.fromJson u sha payload).map .fat32
        else (TransferPlan.fromJson u sha payload).map .transfer
    | _ => (TransferPlan.fromJson u sha payload).map .transfer)

end Loading

end Modelark.Slice.Domain
