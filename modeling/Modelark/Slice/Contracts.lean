import Modelark.Library.JsonRecords
import Modelark.Slice.Domain
import Modelark.Slice.Plans

/-!
# Contracts of stored plans

The values a stored plan is made of: proposals, destinations, targets, capacities and decoding policies, each with
the checks of its construction, the record that is written of it and how it is read back.
-/

namespace Modelark.Slice.Domain

open Library Proposal Archive
open Conversion (parts)

def contractRefused (detail : String) : Failure :=
  refuse "FOLDER_CONTRACT_INVALID" detail

/-- `SliceRefusal` is an error like a `TransferRefusal`. -/
def SliceRefusal.failure : SliceRefusal → Failure
  | .coded code detail => refuse code detail
  | .duplicateEvidence _ => refuse "INVALID_SNAPSHOT" "duplicate evidence"
  | .typeError => .raised

/-- `record[name]`. -/
def field (name : String) (record : Json) : Except Failure Json :=
  (record.get? name).elim (.error .raised) .ok

def textOr (refused : Failure) : Json → Except Failure String
  | .str text => .ok text
  | _ => .error refused

/-- A number that is no boolean and not negative. -/
def countOr (refused : Failure) : Json → Except Failure Nat
  | .int value => if 0 ≤ value then .ok value.toNat else .error refused
  | _ => .error refused

def scalarOf (value : Json) : Except Failure Scalar :=
  (Scalar.ofJson? value).elim (.error .raised) .ok

/-- What a loop runs through. -/
def itemsOf : Json → Except Failure (List Json)
  | .arr items => .ok items
  | .obj fields => .ok (fields.map fun field => .str field.1)
  | .str text => .ok (text.toList.map fun c => .str (String.singleton c))
  | _ => .error .raised

/-- A list of texts; a text is no list. -/
def textsOr (refused : Failure) : Json → Except Failure (List String)
  | .arr items => items.mapM (textOr refused)
  | _ => .error refused

/-- `_fields`. -/
def requireFields (names : List String) (record : Json) : Except Failure Unit :=
  require (record.hasKeys names) (contractRefused "missing, extra or mixed-version fields")

/-- `_decode`. -/
def decodePayload (payload : String) : Except Failure Json :=
  match Json.loads payload with
  | none => .error (contractRefused "invalid JSON")
  | some record => do
      require record.distinct
        (contractRefused "invalid JSON: FOLDER_CONTRACT_INVALID: duplicate JSON key")
      return record

def CopyFact.names : List String :=
  ["annex_key", "compressed", "drive_label", "orig_bytes", "orig_sha256", "present", "provenance", "repo_id",
    "rfilename", "stored_bytes", "stored_relpath"]

def DriveFact.names : List String :=
  ["annex_uuid", "drive_label", "eligibility", "filesystem_capacity_bytes", "fs_uuid", "identity_epoch",
    "identity_fingerprint", "lifecycle", "serial", "write_authority", "write_generation"]

def AnchorFact.names : List String :=
  ["anchor_id", "drive_label", "filesystem_capacity_bytes", "generation", "identity_epoch",
    "identity_fingerprint", "write_authority"]

def Gap.names : List String := ["code", "detail", "drive_label", "repo_id", "rfilename"]

instance : ReadableRecord CopyFact where
  names := CopyFact.names
  named _ := rfl
  distinct := by decide
  read value := do
    return ⟨← value "repo_id", ← value "rfilename", ← value "drive_label", ← value "stored_relpath",
      ← value "orig_bytes", ← value "stored_bytes", ← value "orig_sha256", ← value "provenance",
      ← value "annex_key", ← value "compressed", ← value "present"⟩
  reads copy value agrees := by
    simp only [Record.fields, List.forall_mem_cons] at agrees
    simp [agrees]

instance : ReadableRecord DriveFact where
  names := DriveFact.names
  named _ := rfl
  distinct := by decide
  read value := do
    return ⟨← value "drive_label", ← value "fs_uuid", ← value "annex_uuid", ← value "serial",
      ← value "identity_epoch", ← value "write_generation", ← value "identity_fingerprint",
      ← value "filesystem_capacity_bytes", ← value "write_authority", ← value "lifecycle",
      ← value "eligibility"⟩
  reads drive value agrees := by
    simp only [Record.fields, List.forall_mem_cons] at agrees
    simp [agrees]

instance : ReadableRecord AnchorFact where
  names := AnchorFact.names
  named _ := rfl
  distinct := by decide
  read value := do
    return ⟨← value "drive_label", ← value "identity_epoch", ← value "generation",
      ← value "identity_fingerprint", ← value "filesystem_capacity_bytes", ← value "write_authority",
      ← value "anchor_id"⟩
  reads anchor value agrees := by
    simp only [Record.fields, List.forall_mem_cons] at agrees
    simp [agrees]

instance : ReadableRecord Gap where
  names := Gap.names
  named _ := rfl
  distinct := by decide
  read value := do
    return ⟨← value "repo_id", ← value "rfilename", ← value "code", ← value "drive_label", ← value "detail"⟩
  reads gap value agrees := by
    simp only [Record.fields, List.forall_mem_cons] at agrees
    simp [agrees]

def SourceEvidence.names : List String := ["copy", "drive", "anchor", "digest_provenance"]

def SourceEvidence.record (source : SourceEvidence) : Json :=
  .dict [("copy", Record.json source.copy), ("drive", Record.json source.drive),
    ("anchor", Record.json source.anchor), ("digest_provenance", .str source.digestProvenance)]

def Artifact.names : List String :=
  ["repo_id", "rfilename", "size_bytes", "sha256", "format", "quant", "sources"]

def Artifact.record (artifact : Artifact) : Json :=
  .dict [("repo_id", artifact.repoId.json), ("rfilename", artifact.rfilename.json),
    ("size_bytes", artifact.sizeBytes.json), ("sha256", .str artifact.sha256),
    ("format", artifact.format.json), ("quant", artifact.quant.json),
    ("sources", .arr (artifact.sources.map SourceEvidence.record))]

def SliceSpec.names : List String := ["repo_ids", "destination_id", "destination_root", "consumer_profile"]

def SlicePreview.names : List String := ["spec", "snapshot_id", "closure", "gaps", "seal", "version"]

/-- `asdict(proposal)`. -/
def SlicePreview.record (proposal : SlicePreview) : Json :=
  .dict [("spec", proposal.spec.json), ("snapshot_id", .str proposal.snapshotId),
    ("closure", .arr (proposal.closure.map Artifact.record)), ("gaps", .arr (proposal.gaps.map Record.json)),
    ("seal", .str proposal.sealHash), ("version", .str proposal.version)]

section Reading

variable (u : Unicode)

def readFact {α : Type} [Record α] [ReadableRecord α] (defaults : List (String × Scalar)) (record : Json) :
    Except Failure α :=
  (Record.ofJson? defaults record).elim (.error .raised) .ok

/-- `SliceSpec(**record)`. -/
def readSpec (record : Json) : Except Failure SliceSpec := do
  let (.obj fields) := record | .error .raised
  require (fields.all fun field => SliceSpec.names.contains field.1) .raised
  let repoIds ← textsOr (refuse "INVALID_SPEC" "repositories must be an explicit sequence")
    (← field "repo_ids" record)
  let invalid := refuse "INVALID_SPEC" "explicit repositories and safe destination intent required"
  let destinationId ← textOr invalid (← field "destination_id" record)
  let destinationRoot ← textOr invalid (← field "destination_root" record)
  let consumerProfile ← textOr (refuse "UNSUPPORTED_PROFILE" "")
    ((record.get? "consumer_profile").getD (.str profile))
  (sliceSpec u repoIds destinationId destinationRoot consumerProfile).mapError SliceRefusal.failure

def readSource (record : Json) : Except Failure SourceEvidence := do
  let copy ← readFact [("present", .null)] (← field "copy" record)
  let drive ← readFact [] (← field "drive" record)
  let anchor ← readFact [] (← field "anchor" record)
  let digestProvenance ← textOr .raised (← field "digest_provenance" record)
  return ⟨copy, drive, anchor, digestProvenance⟩

def readArtifact (record : Json) : Except Failure Artifact := do
  let sources ← (← itemsOf (← field "sources" record)).mapM readSource
  require (record.hasKeys Artifact.names) .raised
  return ⟨← scalarOf (← field "repo_id" record), ← scalarOf (← field "rfilename" record),
    ← scalarOf (← field "size_bytes" record), ← textOr .raised (← field "sha256" record),
    ← scalarOf (← field "format" record), ← scalarOf (← field "quant" record), sources⟩

/-- `decode_proposal`. -/
def decodeProposal (record : Json) : Except Failure SlicePreview := do
  let closure ← (← itemsOf (← field "closure" record)).mapM readArtifact
  let spec ← readSpec u (← field "spec" record)
  let snapshotId ← textOr .raised (← field "snapshot_id" record)
  let gaps ← (← itemsOf (← field "gaps" record)).mapM
    (readFact [("drive_label", .null), ("detail", .str "")])
  let sealHash ← textOr .raised (← field "seal" record)
  let version ← textOr .raised (← field "version" record)
  return ⟨spec, snapshotId, closure, gaps, sealHash, version⟩

/-- A check of everything that a loop runs through. -/
def checkEach (check : Json → Except Failure Unit) (value : Json) : Except Failure Unit := do
  thread (fun _ item => check item) () (← itemsOf value)

def checkSource (record : Json) : Except Failure Unit := do
  requireFields SourceEvidence.names record
  requireFields CopyFact.names (← field "copy" record)
  requireFields DriveFact.names (← field "drive" record)
  requireFields AnchorFact.names (← field "anchor" record)

def checkArtifact (record : Json) : Except Failure Unit := do
  requireFields Artifact.names record
  checkEach checkSource (← field "sources" record)

/-- `_proposal_record`. -/
def checkProposal (record : Json) : Except Failure Unit := do
  requireFields SlicePreview.names record
  requireFields SliceSpec.names (← field "spec" record)
  checkEach checkArtifact (← field "closure" record)
  checkEach (requireFields Gap.names) (← field "gaps" record)

end Reading

end Modelark.Slice.Domain
