import Modelark.Revision.DriveRuns

/-!
# Admission evidence

The facts that admission reads of one drive, and the evidence that it derives from them and from an
observation. What is derived is always about the facts that were read in the same step.
-/

namespace Modelark.Admission

open Library Execution Capacity Revision

/-- The serial rules, with the safety floor of a filesystem. -/
structure AdmissionRules extends SerialRules where
  safetyFloor : Nat → Bool → Nat

/-- `Evidence`, with the provenance that the admission shell attaches. -/
structure AdmissionEvidence extends CapacityEvidence where
  observedAt : String
  identityEpoch : Option Nat
  deriving Repr, DecidableEq

/-- `replace` of a verdict that is not to be executed. -/
def AdmissionEvidence.refuse (evidence : AdmissionEvidence) (code : String) : AdmissionEvidence :=
  { evidence with kind := .unknown, executable := false, admissibleFree := 0, code := some code }

/-- `_Facts`. -/
structure AdmissionFacts where
  drive : Option FleetDrive
  raid : Bool
  /-- The anchor of exactly the current epoch and generation. -/
  anchor : Option CleanAnchor
  deriving Repr, DecidableEq

/-- `_facts`. -/
def admissionFacts (c : Catalog) (label : String) : AdmissionFacts :=
  match c.fleet.findDrive label with
  | none => ⟨none, false, none⟩
  | some drive =>
      { drive := some drive
        raid := (c.tables.driveColumns.find label).any DriveColumns.raidBacked
        anchor := c.findAnchor label drive.fence.identityEpoch drive.writeGeneration }

namespace AdmissionFacts

variable (facts : AdmissionFacts) (rules : AdmissionRules)

def fenceIdentity : Option FenceIdentity := facts.drive.map FleetDrive.fence

def epoch : Option Nat := facts.drive.map fun drive => drive.fence.identityEpoch

def fingerprint : Option String := facts.drive.bind fun drive => drive.fence.identityFingerprint

def filesystemCapacity : Option Nat :=
  facts.drive.bind fun drive => drive.fence.filesystemCapacityBytes

def authority : String := (facts.drive.map FleetDrive.writeAuthority).getD "unknown"

def dirty : Bool := (facts.drive.any fun drive => 0 < drive.writeGeneration) && facts.anchor.isNone

def floor : Nat := (facts.filesystemCapacity.map fun capacity => rules.safetyFloor capacity facts.raid).getD 0

/-- The identity of an observation agrees with the facts. -/
def proves (observation : Observation) : Bool :=
  (nonempty? facts.fingerprint).isSome && observation.identityProven &&
    observation.fingerprint == facts.fingerprint &&
    observation.filesystemCapacity == facts.filesystemCapacity

/-- The arguments that `_derive` gives to `derive`. -/
def evidenceFacts (observation : Option Observation) (fenceHeld : Bool) : EvidenceFacts where
  mounted := observation.isSome
  identityProven := observation.any facts.proves
  fenceHeld := fenceHeld
  writeAuthority := facts.authority
  currentEpoch := facts.epoch
  filesystemCapacityBytes := facts.filesystemCapacity.map Int.ofNat
  currentFingerprint := facts.fingerprint
  liveFreeBytes := (observation.bind Observation.freeBytes).map Int.ofNat
  dirty := facts.dirty
  anchorFreeBytes := (facts.anchor.bind CleanAnchor.anchorFreeBytes).map Int.ofNat
  anchorEpoch := facts.anchor.map CleanAnchor.identityEpoch
  anchorFingerprint := facts.anchor.bind CleanAnchor.identityFingerprint
  anchorFilesystemCapacity := (facts.anchor.bind CleanAnchor.filesystemCapacityBytes).map Int.ofNat
  safetyFloorBytes := facts.floor rules

/-- The observation is of a drive whose saved fingerprint was made without its serial. -/
def serialMismatch (observation : Observation) : Bool :=
  !observation.identityProven && observation.refusalCode == some "DRIVE_SERIAL_REPAIR_REQUIRED" &&
    observation.filesystemCapacity == facts.filesystemCapacity &&
    facts.drive.any fun drive => rules.isLegacySerialMismatch drive observation.fingerprint

/-- `_derive`, from the facts that it has read. -/
def derive (observation : Option Observation) (fenceHeld : Bool) (now : String) : AdmissionEvidence :=
  let evidence := (facts.evidenceFacts rules observation fenceHeld).derive
  let code :=
    if evidence.code == some "DRIVE_IDENTITY_UNPROVEN" && fenceHeld &&
        facts.authority == "dedicated_local" && observation.any (facts.serialMismatch rules) then
      some "DRIVE_SERIAL_REPAIR_REQUIRED"
    else evidence.code
  { evidence with code, observedAt := now, identityEpoch := facts.epoch }

variable {facts rules} {observation : Option Observation} {fenceHeld : Bool} {now : String}

@[simp] theorem derive_identityEpoch :
    (facts.derive rules observation fenceHeld now).identityEpoch = facts.epoch := rfl

/-- Executable evidence is of a dedicated drive, and is observed free space less the safety floor. -/
theorem derive_executable
    (executable : (facts.derive rules observation fenceHeld now).executable = true) :
    facts.authority = "dedicated_local" ∧
    ∃ free : Nat, (facts.derive rules observation fenceHeld now).observedFree = some (free : Int) ∧
      (facts.derive rules observation fenceHeld now).admissibleFree = max 0 ((free : Int) - facts.floor rules) ∧
      ((∃ seen, observation = some seen ∧ (facts.derive rules observation fenceHeld now).kind = .live ∧
          facts.proves seen = true ∧ fenceHeld = true ∧ seen.freeBytes = some free) ∨
        (observation = none ∧ (facts.derive rules observation fenceHeld now).kind = .anchor ∧
          ∃ anchor, facts.anchor = some anchor ∧ anchor.anchorFreeBytes = some free)) := by
  obtain ⟨authority, free, observed, admissible, source⟩ := EvidenceFacts.derive_executable executable
  refine ⟨authority, ?_⟩
  rcases source with ⟨mounted, live, proven, held, bytes⟩ | ⟨offline, kind, _, bytes⟩
  · simp only [evidenceFacts, Option.any_eq_true, Option.map_eq_some_iff,
      Option.bind_eq_some_iff] at proven bytes
    obtain ⟨seen, rfl, proves⟩ := proven
    obtain ⟨count, ⟨other, same, counted⟩, rfl⟩ := bytes
    cases same
    exact ⟨count, observed, admissible, .inl ⟨seen, rfl, live, proves, held, counted⟩⟩
  · simp only [evidenceFacts, Option.map_eq_some_iff, Option.bind_eq_some_iff,
      Option.isSome_eq_false_iff, Option.isNone_iff_eq_none] at offline bytes
    obtain ⟨count, ⟨anchor, found, counted⟩, rfl⟩ := bytes
    exact ⟨count, observed, admissible, .inr ⟨offline, kind, anchor, found, counted⟩⟩

end AdmissionFacts

end Modelark.Admission
