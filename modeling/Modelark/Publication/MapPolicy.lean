import Modelark.Library.JsonLayout
import Modelark.Publication.Annotations

/-!
# Admission of a merged map

The annex branch of an archive map before a merge, of the source, and of the merged candidate, as trees of
blobs; what a source may bring in, and what the candidate must be.
-/

namespace Modelark.Publication

open Library Revision Conversion

abbrev MetadataTree := Dict String Bytes

/-- `hashlib.sha256(…).hexdigest()`. -/
abbrev Sha256 := Bytes → String

/-- `_seal`. -/
def sealJson (sha256 : Sha256) (value : Json) : String :=
  sha256 value.sortKeys.dumps.toUTF8.data.toList

/-- `_clock`, of a decimal. -/
def clockText (clock : ℚ) : String :=
  let places := ((List.range (Nat.log2 clock.den + 1)).find? fun places =>
    10 ^ places % clock.den == 0).getD 0
  let digits := Nat.toDigits 10 (clock.num.toNat * 10 ^ places / clock.den)
  let padded := List.replicate (places + 1 - digits.length) '0' ++ digits
  if places = 0 then String.ofList digits
  else String.ofList (padded.take (padded.length - places) ++ '.' :: padded.drop (padded.length - places))

/-- `bytes.hex`. -/
def hexText (bytes : Bytes) : String :=
  String.ofList (bytes.flatMap fun byte =>
    [Nat.digitChar (byte.toNat / 16), Nat.digitChar (byte.toNat % 16)])

/-- `_tree_seal`. -/
def treeSeal (sha256 : Sha256) (tree : MetadataTree) : String :=
  sealJson sha256 (.obj (tree.toList.map fun entry => (entry.1, .str (sha256 entry.2))))

/-- A text without its ending. -/
def dropEnding (ending chars : List Char) : Option (List Char) :=
  if ending.isSuffixOf chars then some (chars.take (chars.length - ending.length)) else none

/-- `_LOG`: the key, and whether the path is that of its annotations. -/
def logName (path : String) : Option (String × Bool) :=
  let chars := path.toList
  let name := chars.drop 8
  let isBucket := chars.length ≥ 8 && (chars.take 3).all Modelark.Archive.isHex && chars[3]? == some '/' &&
    ((chars.drop 4).take 3).all Modelark.Archive.isHex && chars[7]? == some '/'
  let named (key : List Char) : Bool :=
    "SHA256".toList.isPrefixOf key && !key.contains '/' && !key.contains '\x00'
  if isBucket then
    match dropEnding ".log".toList name, dropEnding ".log.met".toList name with
    | some key, _ => if named key then some (String.ofList key, false) else none
    | none, some key => if named key then some (String.ofList key, true) else none
    | none, none => none
  else none

/-- `_recognized`. -/
def recognized (path : String) : Except Failure (Option (String × Bool)) :=
  match logName path with
  | none => .ok none
  | some info => do
      let _ ← parseSha256Key info.1
      return some info

/-- `removesuffix(".met")`. -/
def withoutMet (path : String) : String :=
  String.ofList ((dropEnding ".met".toList path.toList).getD path.toList)

/-- `_tree`. -/
def checkTree (tree : MetadataTree) : Except Failure Unit :=
  thread (fun () path => do
    let _ ← relativePath path
    return ()) () tree.keys

/-- One path of `_paths`, with the places of the keys so far. -/
def placeKey (locations : Dict String String) (path : String) : Except Failure (Dict String String) := do
  match ← recognized path with
  | none => return locations
  | some (key, _) => do
      require (locations[key]?.all (· == withoutMet path)) (refused "PUBLICATION_METADATA_KEY_PATH_CONFLICT")
      return locations.insert key (withoutMet path)

/-- `_paths`. -/
def checkPaths (paths : List String) : Except Failure Unit := do
  let _ ← thread placeKey ∅ paths
  return ()

structure AnnotationWrite where
  path : String
  before : Bytes
  after : Bytes
  assignments : List (String × String)
  bindingDigest : String

/-- `AnnotationWrite.seal`. -/
def AnnotationWrite.sealText (sha256 : Sha256) (write : AnnotationWrite) : Except Failure String := do
  let info ← recognized write.path
  require (info.any Prod.snd) (refused "PUBLICATION_ANNOTATION_PROOF_INVALID")
  require (isDigest write.bindingDigest) (refused "PUBLICATION_ANNOTATION_PROOF_INVALID")
  require (!write.assignments.isEmpty) (refused "PUBLICATION_ANNOTATION_PROOF_INVALID")
  require (decide (write.assignments = sortBy toLex write.assignments) &&
      decide (write.assignments.map Prod.fst).Nodup)
    (refused "PUBLICATION_ANNOTATION_PROOF_INVALID")
  return sealJson sha256 (.obj [("version", .int 1), ("path", .str write.path),
    ("before", .str (hexText write.before)), ("after", .str (hexText write.after)),
    ("assignments", .arr (write.assignments.map fun assignment =>
      .arr [.str assignment.1, .str assignment.2])),
    ("binding_digest", .str write.bindingDigest)])

abbrev AllowedUuids := Dict String (Finset String)

/-- `_contract`. -/
def checkContract (allowedKeyUuids : AllowedUuids) (mapUuid : String) (clockCeiling : ℚ) :
    Except Failure Unit := do
  require (isUuid mapUuid) (refused "PUBLICATION_MAP_UUID_INVALID")
  require (decide (0 ≤ clockCeiling)) (refused "PUBLICATION_CLOCK_BOUND_INVALID")
  thread (fun () entry => do
    let _ ← parseSha256Key entry.1
    require (decide (entry.2.Nonempty ∧ ∀ identity ∈ entry.2, isUuid identity = true ∧ identity ≠ mapUuid))
      (refused "PUBLICATION_METADATA_ALLOWLIST_INVALID")) () allowedKeyUuids.toList

/-- The identities that are allowed for a key. -/
def allowedFor (allowed : AllowedUuids) (key : String) : Finset String :=
  allowed[key]?.getD ∅

/-- What a caller asks for: the trees, what may be added, and the sealed annotation writes. -/
structure MapInput where
  baseline : MetadataTree
  incoming : MetadataTree
  allowedKeyUuids : AllowedUuids
  mapUuid : String
  clockCeiling : ℚ
  annotationWrites : Dict String AnnotationWrite
  expectedAnnotationSeals : Dict String String

/-- A cell that a source brings in. -/
def checkIncomingCell (clockCeiling : ℚ) (previous : AnnotationState)
    (entry : (String ×ₗ String) × AnnotationCell) : Except Failure Unit :=
  if previous[entry.1]? = some entry.2 then .ok ()
  else do
    require (modelFields.contains (ofLex entry.1).1) (refused "PUBLICATION_ANNOTATION_UNRELATED_CHANGE")
    require (previous[entry.1]?.all fun prior => prior.clock != entry.2.clock)
      (refused "PUBLICATION_ANNOTATION_CLOCK_CONFLICT")
    require (decide (entry.2.clock ≤ clockCeiling)) (refused "PUBLICATION_FUTURE_CLOCK")

/-- One write of `_annotations`. -/
def checkWrite (sha256 : Sha256) (input : MapInput) (seals : Dict String String)
    (entry : String × AnnotationWrite) : Except Failure (Dict String String) := do
  let (path, proof) := entry
  require (proof.path == path) (refused "PUBLICATION_ANNOTATION_PROOF_INVALID")
  let seal' ← proof.sealText sha256
  require (some seal' == input.expectedAnnotationSeals[path]?) (refused "PUBLICATION_ANNOTATION_PROOF_CHANGED")
  let info ← recognized path
  require (info.any fun info => decide (info.1 ∈ input.allowedKeyUuids))
    (refused "PUBLICATION_METADATA_KEY_UNSELECTED")
  require (input.incoming[path]? == some proof.after) (refused "PUBLICATION_ANNOTATION_SOURCE_CHANGED")
  checkAnnotationWrite proof.before proof.after proof.assignments input.clockCeiling
  let previous ← parseAnnotations (input.baseline[path]?.getD [])
  let cells ← parseAnnotations proof.after
  thread (fun () cell => checkIncomingCell input.clockCeiling previous cell) () cells.toList
  return seals.insert path seal'

/-- `_annotations`. -/
def checkAnnotations (sha256 : Sha256) (input : MapInput) : Except Failure (Dict String String) := do
  require (input.annotationWrites.keys == input.expectedAnnotationSeals.keys)
    (refused "PUBLICATION_ANNOTATION_PROOF_SET_MISMATCH")
  thread (checkWrite sha256 input) ∅ input.annotationWrites.toList

/-- `_records`. -/
def records (blob : Option Bytes) : Except Failure LocationRecords :=
  match blob with
  | none => .ok ∅
  | some blob => parseLocationLog blob

/-- `_addition_summary`. -/
def additionSummary (additions : LocationRecords) : Json :=
  .arr ((sortedMembers additions).map fun record => .obj [("uuid", .str record.identity),
    ("clock", .str (clockText record.clock)), ("present", .bool record.present)])

def linesOf (data : Bytes) : List Bytes :=
  (data.splitOn 10).dropLast

/-- `_description_subset`. -/
def descriptionSubset (before source : Bytes) : Bool :=
  !before.isEmpty && before.getLast? == some 10 && source.getLast? == some 10 && !before.contains 0 &&
    !source.contains 0 && !(linesOf source).contains [] && (linesOf source).all (linesOf before).contains

/-- What has been admitted. -/
structure AdmittedInput where
  baselineDigest : String
  sourceDigest : String
  mapUuid : String
  allowlist : AllowedUuids
  clockCeiling : ℚ
  locationAdditions : Dict String LocationRecords
  annotationSeals : Dict String String

def AdmittedInput.json (admitted : AdmittedInput) : Json :=
  .obj [("version", .int 1), ("phase", .str "ADMITTED_INPUT"), ("baseline_digest", .str admitted.baselineDigest),
    ("source_digest", .str admitted.sourceDigest), ("map_uuid", .str admitted.mapUuid),
    ("allowlist", .obj (admitted.allowlist.toList.map fun entry =>
      (entry.1, .arr ((sortedMembers entry.2).map .str)))),
    ("clock_ceiling", .str (clockText admitted.clockCeiling)),
    ("location_additions", .obj (admitted.locationAdditions.toList.map fun entry =>
      (entry.1, additionSummary entry.2))),
    ("annotation_seals", .obj (admitted.annotationSeals.toList.map fun entry => (entry.1, .str entry.2)))]

/-- One blob of the source. -/
def admitBlob (input : MapInput) (seals : Dict String String) (additions : Dict String LocationRecords)
    (entry : String × Bytes) : Except Failure (Dict String LocationRecords) := do
  let (path, blob) := entry
  if path ∈ seals ∨ input.baseline[path]? = some blob then return additions
  else
    match ← recognized path with
    | some (key, false) => do
        let before ← records input.baseline[path]?
        let after ← records (some blob)
        let delta ← checkLocationDelta before after (allowedFor input.allowedKeyUuids key) input.mapUuid
          input.clockCeiling false
        return if delta = ∅ then additions else additions.insert key delta
    | _ => do
        require (path == "uuid.log" && input.baseline[path]?.any (descriptionSubset · blob))
          (refused "PUBLICATION_METADATA_INPUT_UNADMITTED")
        return additions

/-- `admit_input`. -/
def admitInput (sha256 : Sha256) (input : MapInput) : Except Failure AdmittedInput := do
  checkTree input.baseline
  checkTree input.incoming
  checkPaths (input.baseline.keys ++ input.incoming.keys)
  checkContract input.allowedKeyUuids input.mapUuid input.clockCeiling
  let seals ← checkAnnotations sha256 input
  let additions ← thread (admitBlob input seals) ∅ input.incoming.toList
  return ⟨treeSeal sha256 input.baseline, treeSeal sha256 input.incoming, input.mapUuid, input.allowedKeyUuids,
    input.clockCeiling, additions, seals⟩

/-- What has been found of the candidate so far. -/
structure Findings where
  locations : Dict String (List String)
  annotations : Dict String AnnotationState

/-- The summary of a candidate that is accepted. -/
structure ValidatedCandidate where
  admissionDigest : String
  baselineDigest : String
  sourceDigest : String
  candidateDigest : String
  effectiveLocations : Dict String (List String)
  requiredLocations : AllowedUuids
  annotations : Dict String AnnotationState
  locationAdditions : Dict String LocationRecords

/-- One path of the candidate. -/
def validatePath (input : MapInput) (candidate : MetadataTree) (found : Findings) (path : String) :
    Except Failure Findings := do
  if path ∈ input.annotationWrites then
    match candidate[path]?, input.incoming[path]? with
    | some merged, some source => do
        checkAnnotationMerge (input.baseline[path]?.getD []) source merged
        let cells ← parseAnnotations merged
        return { found with annotations := found.annotations.insert path cells }
    | none, _ => .error (refused "PUBLICATION_ANNOTATION_MERGE_MISMATCH")
    | _, none => .error (.raised "KeyError")
  else
    let isSame := candidate[path]? == input.baseline[path]?
    match ← recognized path with
    | some (key, false) =>
        if key ∈ input.allowedKeyUuids then
          match candidate[path]? with
          | none => .error (refused "PUBLICATION_LOCATION_HISTORY_CHANGED")
          | some merged => do
              let before ← records input.baseline[path]?
              let after ← records (some merged)
              let _ ← checkLocationDelta before after (allowedFor input.allowedKeyUuids key) input.mapUuid
                input.clockCeiling true
              let source ← records input.incoming[path]?
              require (decide (after = before ∪ source)) (refused "PUBLICATION_LOCATION_MERGE_MISMATCH")
              let effective ← effectiveLocations after
              return { found with locations := found.locations.insert key effective }
        else do
          require isSame (refused "PUBLICATION_METADATA_UNRELATED_CHANGE")
          return found
    | _ => do
        require isSame (refused "PUBLICATION_METADATA_UNRELATED_CHANGE")
        return found

/-- `validate_candidate`. -/
def validateCandidate (sha256 : Sha256) (input : MapInput) (candidate : MetadataTree)
    (requiredKeyUuids : AllowedUuids) : Except Failure ValidatedCandidate := do
  checkTree input.baseline
  checkTree input.incoming
  checkTree candidate
  checkPaths (input.baseline.keys ++ (input.incoming.keys ++ candidate.keys))
  let admitted ← admitInput sha256 input
  checkContract requiredKeyUuids input.mapUuid input.clockCeiling
  thread (fun () entry => require (decide (entry.1 ∈ input.allowedKeyUuids ∧
      entry.2 ⊆ allowedFor input.allowedKeyUuids entry.1))
    (refused "PUBLICATION_REQUIRED_LOCATION_UNPROVEN")) () requiredKeyUuids.toList
  let found ← thread (validatePath input candidate) ⟨∅, ∅⟩
    (sortedSet (input.baseline.keys ++ (input.incoming.keys ++ candidate.keys)))
  thread (fun () entry => require (decide (∀ identity ∈ entry.2, identity ∈ (found.locations[entry.1]?.getD [])))
    (refused "PUBLICATION_REQUIRED_LOCATION_MISSING")) () requiredKeyUuids.toList
  return ⟨sealJson sha256 admitted.json, treeSeal sha256 input.baseline, treeSeal sha256 input.incoming,
    treeSeal sha256 candidate, found.locations, requiredKeyUuids, found.annotations, admitted.locationAdditions⟩

end Modelark.Publication
