import Modelark.Library.Json

/-!
# Capacity evidence

The fail-closed precedence rule over one drive's observation: live free space under a held fence,
else the clean anchor of exactly the current identity epoch, else unknown. The safety floor is
subtracted once, here.
-/

namespace Modelark.Capacity

open Library

/-- `identity_fingerprint_v1`, of an identity that one of its identifiers proves. -/
def identityFingerprintV1 (sha256 : String → String)
    (fsUuid annexUuid serial filesystemCapacityBytes : Json) : String :=
  sha256 (Json.dict [("annex_uuid", annexUuid),
    ("filesystem_capacity_bytes", filesystemCapacityBytes), ("fs_uuid", fsUuid),
    ("serial", serial), ("v", .int 1)]).dumps

inductive EvidenceKind where
  | live
  | anchor
  | unknown
  deriving Repr, DecidableEq

structure CapacityEvidence where
  kind : EvidenceKind
  executable : Bool
  admissibleFree : Int
  code : Option String
  observedFree : Option Int
  optimisticUsableMax : Option Int
  deriving Repr, DecidableEq

/-- The arguments of `derive`. -/
structure EvidenceFacts where
  mounted : Bool
  identityProven : Bool
  fenceHeld : Bool
  writeAuthority : String
  currentEpoch : Option Nat
  filesystemCapacityBytes : Option Int
  currentFingerprint : Option String
  liveFreeBytes : Option Int
  dirty : Bool
  anchorFreeBytes : Option Int
  anchorEpoch : Option Nat
  anchorFingerprint : Option String
  anchorFilesystemCapacity : Option Int
  safetyFloorBytes : Int
  deriving Repr, DecidableEq

namespace EvidenceFacts

variable (facts : EvidenceFacts)

def optimisticUsableMax : Option Int :=
  facts.filesystemCapacityBytes.map fun capacity => max 0 (capacity - facts.safetyFloorBytes)

def unknown (code : String) : CapacityEvidence :=
  ⟨.unknown, false, 0, some code, none, facts.optimisticUsableMax⟩

def deriveMounted : CapacityEvidence :=
  if !facts.identityProven then facts.unknown "DRIVE_IDENTITY_UNPROVEN"
  else if facts.writeAuthority ≠ "dedicated_local" then facts.unknown "UNSUPPORTED_SHARED_WRITER"
  else if !facts.fenceHeld then facts.unknown "DRIVE_FENCE_UNAVAILABLE"
  else
    match facts.liveFreeBytes with
    | none => facts.unknown "CAPACITY_EVIDENCE_UNKNOWN"
    | some free => ⟨.live, true, max 0 (free - facts.safetyFloorBytes), none, some free,
        facts.optimisticUsableMax⟩

def deriveOffline : CapacityEvidence :=
  if facts.dirty then facts.unknown "DRIVE_RECONCILIATION_REQUIRED"
  else
    match facts.anchorFreeBytes with
    | none => facts.unknown "CAPACITY_EVIDENCE_UNKNOWN"
    | some free =>
        if facts.writeAuthority ≠ "dedicated_local" then facts.unknown "UNSUPPORTED_SHARED_WRITER"
        else if facts.anchorEpoch ≠ facts.currentEpoch ∨
            facts.anchorFingerprint ≠ facts.currentFingerprint ∨
            facts.anchorFilesystemCapacity ≠ facts.filesystemCapacityBytes then
          facts.unknown "DRIVE_RECONCILIATION_REQUIRED"
        else if facts.filesystemCapacityBytes.all fun capacity => free < 0 ∨ capacity < free then
          facts.unknown "ANCHOR_OUT_OF_RANGE"
        else ⟨.anchor, true, max 0 (free - facts.safetyFloorBytes), none, some free,
          facts.optimisticUsableMax⟩

def derive : CapacityEvidence :=
  if facts.mounted then facts.deriveMounted else facts.deriveOffline

variable {facts}

/-- Unknown evidence admits nothing, and known evidence never a negative number of bytes. -/
theorem derive_admissible : 0 ≤ facts.derive.admissibleFree ∧
    (facts.derive.executable = false → facts.derive.admissibleFree = 0) := by
  have refused : ∀ code, 0 ≤ (facts.unknown code).admissibleFree ∧
      ((facts.unknown code).executable = false → (facts.unknown code).admissibleFree = 0) :=
    fun _ => ⟨le_refl _, fun _ => rfl⟩
  unfold derive
  split
  · unfold deriveMounted
    cases facts.liveFreeBytes with
    | none => split_ifs <;> exact refused _
    | some free =>
        split_ifs <;> try exact refused _
        exact ⟨le_max_left _ _, fun unknown => nomatch unknown⟩
  · unfold deriveOffline
    cases facts.anchorFreeBytes with
    | none => split_ifs <;> exact refused _
    | some free =>
        dsimp only
        split_ifs <;> try exact refused _
        exact ⟨le_max_left _ _, fun unknown => nomatch unknown⟩

/-- Offline evidence is executable only from an anchor. -/
theorem anchor_of_offline (offline : facts.mounted = false)
    (executable : facts.derive.executable = true) :
    facts.dirty = false ∧ ∃ free, facts.anchorFreeBytes = some free ∧
      facts.anchorEpoch = facts.currentEpoch := by
  unfold derive deriveOffline at executable
  simp only [offline, Bool.false_eq_true, if_false] at executable
  cases dirty : facts.dirty with
  | true => simp [dirty, unknown] at executable
  | false =>
      cases anchored : facts.anchorFreeBytes with
      | none => simp [dirty, anchored, unknown] at executable
      | some free =>
          refine ⟨rfl, free, rfl, ?_⟩
          by_contra other
          simp only [dirty, anchored, Bool.false_eq_true, if_false] at executable
          split_ifs at executable <;> simp_all [unknown]

/-- Executable evidence subtracts the safety floor once from what was observed: live under the fence, or
    offline from the anchor of a clean generation. -/
theorem derive_executable (executable : facts.derive.executable = true) :
    facts.writeAuthority = "dedicated_local" ∧
    ∃ free, facts.derive.observedFree = some free ∧
      facts.derive.admissibleFree = max 0 (free - facts.safetyFloorBytes) ∧
      ((facts.mounted = true ∧ facts.derive.kind = .live ∧ facts.identityProven = true ∧
          facts.fenceHeld = true ∧ facts.liveFreeBytes = some free) ∨
        (facts.mounted = false ∧ facts.derive.kind = .anchor ∧ facts.dirty = false ∧
          facts.anchorFreeBytes = some free)) := by
  cases mounted : facts.mounted with
  | true =>
      simp only [derive, mounted, if_true, deriveMounted] at executable ⊢
      cases live : facts.liveFreeBytes with
      | none =>
          simp only [live] at executable
          split_ifs at executable <;> simp [unknown] at executable
      | some free =>
          simp only [live] at executable ⊢
          split_ifs at executable ⊢ <;> simp_all [unknown]
  | false =>
      simp only [derive, mounted, Bool.false_eq_true, if_false, deriveOffline] at executable ⊢
      cases anchored : facts.anchorFreeBytes with
      | none =>
          simp only [anchored] at executable
          split_ifs at executable <;> simp [unknown] at executable
      | some free =>
          simp only [anchored] at executable ⊢
          split_ifs at executable ⊢ <;> simp_all [unknown]

end EvidenceFacts

end Modelark.Capacity
