import Modelark.Revision.Evidence

/-!
# Reconciliation and serial repair of a drive

`reconcile_drive` establishes, refreshes, renews or recovers the evidence of one drive, and
`repair_serial_identity` corrects its saved fingerprint. Both decide on what they read under their
fences, and check it again in the transaction that writes. Catalogs here are of a supported version and
have no archive publication.
-/

namespace Modelark.Revision

open Library Execution

def refuse {α : Type} (code : String) : Except Failure α := .error (.control (.mutation code))

def requireOr (holds : Bool) (code : String) : Except Failure Unit :=
  require holds (.control (.mutation code))

/-- `_LiveEvidence`, with the texts of its observation. -/
structure LiveEvidence where
  path : Option String
  fsUuid : Option String
  annexUuid : Option String
  serial : Option String
  capacity : Option Nat
  free : Option Nat
  allocUnit : Option Nat
  fingerprint : Option String
  proven : Bool
  identitySerial : Option String
  identityProof : String
  fenceProof : String
  deriving Repr, DecidableEq

def LiveEvidence.observation (evidence : LiveEvidence) : Observation where
  identityProven := evidence.proven
  freeBytes := evidence.free
  filesystemCapacity := evidence.capacity
  fingerprint := evidence.fingerprint
  identityProof := evidence.identityProof
  fenceProof := evidence.fenceProof
  refusalCode := none

/-- What a saved anchor proves of a drive's serial, besides the fingerprints themselves. -/
structure SerialRules extends FenceRules where
  isLegacySerialMismatch : FleetDrive → Option String → Bool
  recognizeLegacyAnchor : FleetDrive → CleanAnchor → Bool
  /-- The serial of the identity of a drive that has none saved, where the anchor proves it. -/
  seriallessAnchorSerial : FleetDrive → CleanAnchor → Option (Option String)
  /-- The observed serial of a recognized bridge anchor. -/
  recognizeBridgeAnchor : FleetDrive → CleanAnchor → Option String
  legacyProof : FleetDrive → String

namespace Catalog

variable (c : Catalog)

/-- `_persisted`. -/
def persisted (label : String) : Except Failure FleetDrive := lift (c.fleet.drive label)

/-- `_reconcile_metadata`: the lifecycle and the eligibility of an active drive. -/
def reconcileMetadata (label : String) (expected : Option (String × String)) :
    Except Failure (String × String) :=
  let code := if expected.isNone then "DRIVE_IDENTITY_UNPROVEN" else "DRIVE_RECOVERY_OWNER_CHANGED"
  match c.tables.driveColumns.find label with
  | none => refuse code
  | some columns => do
      let metadata := (columns.lifecycle, columns.eligibility)
      requireOr (metadata.1 == "active" && expected.all (· == metadata)) code
      return metadata

def findGeneration (label : String) (identityEpoch generation : Nat) : Option DirtyGeneration :=
  c.tables.dirty.find? fun row =>
    row.driveLabel == label && row.identityEpoch == identityEpoch && row.generation == generation

def findAnchor (label : String) (identityEpoch generation : Nat) : Option CleanAnchor :=
  c.tables.anchors.find? fun row =>
    row.driveLabel == label && row.identityEpoch == identityEpoch && row.generation == generation

end Catalog

/-- `_RecoveryOwner`. -/
structure RecoveryOwner where
  sessionId : String
  token : Nat
  state : SessionState
  deriving Repr, DecidableEq

namespace Catalog

variable (c : Catalog)

/-- `_dirty_owner`. -/
def dirtyOwner (facts : FleetDrive) : Option (String × Nat) :=
  if c.fleet.generationIsClean facts.driveLabel facts.facts then none
  else (c.findGeneration facts.driveLabel facts.fence.identityEpoch facts.writeGeneration).bind
    DirtyGeneration.owner

/-- `_capture_recovery_owner`: the ended session that owns the dirty generation. -/
def captureRecoveryOwner (rules : SerialRules) (facts : FleetDrive) (expected : Option RecoveryOwner)
    (childFenceHeld : Bool) : Except Failure (Option RecoveryOwner) :=
  let code := if expected.isSome then "DRIVE_RECOVERY_OWNER_CHANGED"
    else "DRIVE_RECOVERY_OWNER_UNPROVEN"
  match c.dirtyOwner facts with
  | none => if expected.isSome then refuse code else .ok none
  | some (sessionId, token) =>
      match c.sessions.find sessionId with
      | none => refuse code
      | some session => do
          let captured : RecoveryOwner := ⟨sessionId, token, session.state⟩
          requireOr (rules.unicode.strip sessionId != "" && 1 ≤ token) code
          requireOr (expected.all (· == captured)) code
          -- an expected owner is in the state in which it was captured, a new one has ended
          requireOr (session.fencingToken == token && (expected.isSome || !session.live)) code
          requireOr (!childFenceHeld) "DRIVE_RECOVERY_CHILD_UNPROVEN"
          return some captured

end Catalog

inductive SerialStatus where
  | alreadyCorrect
  | correctIdentityDirty
  | observedSerialClean
  | legacyClean
  | legacyDirty
  | bridgeEncodedClean
  deriving Repr, DecidableEq

structure SerialState where
  facts : FleetDrive
  metadata : String × String
  dirtyGeneration : DirtyGeneration
  ownerSession : Option Session
  anchor : CleanAnchor
  status : SerialStatus
  requiredLiveSerial : Option String
  fenceKeys : List (String × Nat)
  canonicalFingerprint : String
  /-- The approved proposals that are bound to the drive. -/
  affectedApprovals : List String
  deriving Repr, DecidableEq

/-- The latest earlier anchor of the drive's current identity. -/
def Catalog.earlierAnchor (c : Catalog) (facts : FleetDrive) : Option CleanAnchor :=
  (sortBy (fun row => row.generation) (c.tables.anchors.filter fun row =>
    row.driveLabel == facts.driveLabel && row.identityEpoch == facts.fence.identityEpoch &&
      row.generation < facts.writeGeneration &&
      row.identityFingerprint == facts.fence.identityFingerprint &&
      row.filesystemCapacityBytes == facts.fence.filesystemCapacityBytes &&
      row.writeAuthority == facts.writeAuthority)).getLast?

/-- The status of a drive and the serial that its repair must observe. -/
def serialStatus (rules : SerialRules) (facts : FleetDrive) (clean repaired : Bool)
    (anchor : CleanAnchor) (canonical : String) : Except Failure (SerialStatus × Option String) :=
  match facts.fence.serial with
  | none => do
      requireOr clean "DRIVE_SERIAL_REPAIR_UNPROVEN"
      match rules.seriallessAnchorSerial facts anchor with
      | none => refuse "DRIVE_SERIAL_REPAIR_UNPROVEN"
      | some required =>
          return (if required.isNone then .alreadyCorrect else .observedSerialClean, required)
  | some serial =>
      if facts.fence.identityFingerprint == some canonical then
        .ok (if clean then .alreadyCorrect else .correctIdentityDirty, some serial)
      else if rules.recognizeLegacyAnchor facts anchor then
        .ok (if clean then .legacyClean else .legacyDirty, some serial)
      else do
        requireOr clean "DRIVE_SERIAL_REPAIR_UNPROVEN"
        match rules.recognizeBridgeAnchor facts anchor with
        | none => refuse "DRIVE_SERIAL_REPAIR_UNPROVEN"
        | some observed =>
            -- a bridge is repaired at most once in an epoch
            requireOr (!repaired) "DRIVE_SERIAL_REPAIR_UNPROVEN"
            return (.bridgeEncodedClean, some observed)

/-- `_serial_repair_state`. -/
def Catalog.serialRepairState (c : Catalog) (rules : SerialRules) (affectedApprovals : List String)
    (label : String) : Except Failure SerialState := do
  let facts ← c.persisted label
  let identity := facts.fence
  requireOr (facts.writeAuthority == "dedicated_local" && 1 ≤ facts.writeGeneration)
    "DRIVE_SERIAL_REPAIR_UNPROVEN"
  match c.tables.driveColumns.find label,
      c.findGeneration label identity.identityEpoch facts.writeGeneration,
      identity.filesystemCapacityBytes with
  | some columns, some dirtyGeneration, some capacity =>
      requireOr (columns.lifecycle == "active") "DRIVE_SERIAL_REPAIR_UNPROVEN"
      let clean := c.fleet.generationIsClean label facts.facts
      let currentAnchor := c.findAnchor label identity.identityEpoch facts.writeGeneration
      requireOr (currentAnchor.isNone || clean) "DRIVE_SERIAL_REPAIR_UNPROVEN"
      match currentAnchor <|> c.earlierAnchor facts with
      | none => refuse "DRIVE_SERIAL_REPAIR_UNPROVEN"
      | some anchor =>
          requireOr (identity.serial.all fun serial =>
            serial != "" && rules.unicode.strip serial == serial) "DRIVE_SERIAL_REPAIR_UNPROVEN"
          let canonicalFingerprint := rules.identityFingerprintV1 identity.fsUuid identity.annexUuid
            identity.serial capacity
          let repaired := c.tables.dirty.any fun row =>
            row.driveLabel == label && row.identityEpoch == identity.identityEpoch &&
              row.operationCode == "serial_identity_repair"
          let (status, requiredLiveSerial) ←
            serialStatus rules facts clean repaired anchor canonicalFingerprint
          -- the fences exclude the saved identity, and the canonical one of a bridge
          let saved := rules.lockKeys { identity with serial := requiredLiveSerial }
          let bridged := if status == .bridgeEncodedClean then
            rules.lockKeys { identity with identityFingerprint := some canonicalFingerprint } else some []
          match saved, bridged with
          | some saved, some bridged =>
              return { facts, dirtyGeneration, anchor, status, requiredLiveSerial, canonicalFingerprint,
                       affectedApprovals
                       metadata := (columns.lifecycle, columns.eligibility)
                       ownerSession := dirtyGeneration.owner.bind fun owner => c.sessions.find owner.1
                       fenceKeys := (saved ++ bridged).dedup }
          | _, _ => refuse "DRIVE_SERIAL_REPAIR_UNPROVEN"
  | _, _, _ => refuse "DRIVE_SERIAL_REPAIR_UNPROVEN"

/-- `bridge_repair_required`. -/
def Catalog.bridgeRepairRequired (c : Catalog) (rules : SerialRules) (label : String) : Bool :=
  (c.serialRepairState rules [] label).toOption.any (·.status == .bridgeEncodedClean)

structure ReconcileCall where
  label : String
  dedicated : Bool
  acceptDrift : Bool
  now : String
  deriving Repr, DecidableEq

/-- A reconciliation under its controller lock. -/
structure Reconciling where
  call : ReconcileCall
  facts : FleetDrive
  metadata : String × String
  owner : Option RecoveryOwner
  evidence : LiveEvidence
  deriving Repr, DecidableEq

namespace Reconciling

variable (job : Reconciling)

/-- A capacity change on the same stable identity. -/
def transition : Bool :=
  job.facts.fence.identityFingerprint.isSome &&
    job.evidence.capacity != job.facts.fence.filesystemCapacityBytes

/-- The identities that the drive fences are derived from. -/
def identities : List FenceIdentity :=
  let observed : FenceIdentity :=
    { fsUuid := job.evidence.fsUuid
      annexUuid := job.evidence.annexUuid
      serial := job.facts.fence.serial
      filesystemCapacityBytes := job.evidence.capacity
      identityEpoch :=
        if job.transition then job.facts.fence.identityEpoch + 1 else job.facts.fence.identityEpoch
      identityFingerprint := job.evidence.fingerprint }
  observed :: if job.facts.fence.identityFingerprint.isSome then [job.facts.fence] else []

end Reconciling

/-- `_stable_identity_matches`. -/
def stableIdentityMatches (evidence : LiveEvidence) (identity : FenceIdentity) : Bool :=
  (identity.fsUuid.isNone || evidence.fsUuid == identity.fsUuid) &&
    (identity.annexUuid.isNone || evidence.annexUuid == identity.annexUuid)

/-- What a reconciliation or a repair meets outside the catalog. -/
structure FencedWorld where
  evidence : LiveEvidence
  /-- The observation after the inventory. -/
  final : LiveEvidence
  /-- `_require_complete_inventory` proves every catalogued copy. -/
  inventoryComplete : Bool
  childFenceHeld : Bool
  fencesFree : Bool
  affectedApprovals : List String

/-- `reconcile_drive` under the controller lock. Without the assertion of a dedicated drive it returns
    here, and persists nothing. -/
def Catalog.reconcileCapture (c : Catalog) (rules : SerialRules) (call : ReconcileCall)
    (world : FencedWorld) : Except Failure (Option Reconciling) := do
  require (!c.sessions.liveExists) (refusal "FILL_SESSION_ACTIVE")
  let facts ← c.persisted call.label
  let metadata ← c.reconcileMetadata call.label none
  requireOr (!c.bridgeRepairRequired rules call.label) "DRIVE_SERIAL_REPAIR_REQUIRED"
  let owner ← c.captureRecoveryOwner rules facts none world.childFenceHeld
  let evidence := world.evidence
  let identity := facts.fence
  requireOr evidence.proven "DRIVE_IDENTITY_UNPROVEN"
  requireOr (stableIdentityMatches evidence identity) "DRIVE_IDENTITY_MISMATCH"
  requireOr (!rules.isLegacySerialMismatch facts evidence.fingerprint) "DRIVE_SERIAL_REPAIR_REQUIRED"
  if !call.dedicated then
    requireOr (facts.writeAuthority != "dedicated_local") "DRIVE_AUTHORITY_DOWNGRADE_REFUSED"
    return none
  else
    requireOr (owner.isNone || 0 < facts.writeGeneration &&
      identity.identityFingerprint == evidence.fingerprint &&
      identity.filesystemCapacityBytes == evidence.capacity &&
      facts.writeAuthority == "dedicated_local") "DRIVE_RECOVERY_IDENTITY_CHANGED"
    let job : Reconciling := { call, facts, metadata, owner, evidence }
    requireOr (job.identities.all fun identity => (rules.lockKeys identity).isSome)
      "DRIVE_IDENTITY_UNPROVEN"
    requireOr world.fencesFree "DRIVE_FENCE_UNAVAILABLE"
    return some job

/-- How a reconciliation settles a drive. -/
inductive Settlement where
  | bootstrap
  | renew
  | advance (operationCode : String)
  | recover
  deriving Repr, DecidableEq

/-- `free_drift_tolerance_v1`. -/
def freeDriftTolerance (allocUnit : Nat) : Nat := allocUnit + 1048576

/-- `_decide_and_commit`, up to its transactions. -/
def Catalog.decision (c : Catalog) (job : Reconciling) : Except Failure Settlement :=
  let facts := job.facts
  let identity := facts.fence
  if identity.identityFingerprint.isNone then .ok .bootstrap
  else if job.transition then .ok .renew
  else if facts.writeGeneration == 0 then .ok (.advance "reconcile")
  else if !c.fleet.generationIsClean job.call.label
      { facts.facts with writeAuthority := "dedicated_local" } then do
    let dirty := c.findGeneration job.call.label identity.identityEpoch facts.writeGeneration
    requireOr (dirty.all fun row => row.owner.isNone) "DRIVE_RECOVERY_SESSION_ACTIVE"
    return .recover
  else
    match (c.findAnchor job.call.label identity.identityEpoch facts.writeGeneration).bind
        CleanAnchor.anchorFreeBytes, job.evidence.free, job.evidence.allocUnit with
    | some anchored, some free, some allocUnit => do
        let drifted := freeDriftTolerance allocUnit < max anchored free - min anchored free
        requireOr (!drifted || job.call.acceptDrift) "DRIVE_FREE_DRIFT"
        return .advance (if drifted then "accept-drift" else "reconcile")
    | _, _, _ => .error (.raised "TypeError")

/-- `_final_observation` of a fresh observation after the inventory. -/
def finalObservation (evidence final : LiveEvidence) : Bool :=
  final.proven && final.fingerprint == evidence.fingerprint && final.capacity == evidence.capacity &&
    final.serial == evidence.serial

/-- A settled reconciliation, before its transaction. -/
structure Settling where
  job : Reconciling
  settlement : Settlement
  final : LiveEvidence
  deriving Repr, DecidableEq

/-- `reconcile_drive` under the drive fences: the captured facts again, the decision, the inventory and
    the final observation. An owned generation is always recovered. -/
def Catalog.reconcileFenced (c : Catalog) (rules : SerialRules) (job : Reconciling)
    (world : FencedWorld) : Except Failure Settling := do
  require (!c.sessions.liveExists) (refusal "FILL_SESSION_ACTIVE")
  let _ ← c.reconcileMetadata job.call.label (some job.metadata)
  let facts ← c.persisted job.call.label
  requireOr (facts == job.facts) "DRIVE_RECOVERY_OWNER_CHANGED"
  let owner ← c.captureRecoveryOwner rules job.facts job.owner world.childFenceHeld
  requireOr (owner == job.owner) "DRIVE_RECOVERY_OWNER_CHANGED"
  let settlement ← if owner.isSome then pure .recover else c.decision job
  requireOr world.inventoryComplete "DRIVE_RECONCILIATION_REQUIRED"
  requireOr (finalObservation job.evidence world.final) "DRIVE_IDENTITY_UNPROVEN"
  return { job, settlement, final := world.final }

namespace Settling

variable (settling : Settling)

/-- The checks at the start of the transaction. -/
def current (rules : SerialRules) (childFenceHeld : Bool) : Check := fun c => do
  let job := settling.job
  require (!c.sessions.liveExists) (refusal "FILL_SESSION_ACTIVE")
  let _ ← c.reconcileMetadata job.call.label (some job.metadata)
  let facts ← c.persisted job.call.label
  requireOr (facts == job.facts) "DRIVE_RECOVERY_OWNER_CHANGED"
  match job.owner with
  | none => requireOr (c.dirtyOwner job.facts).isNone "DRIVE_RECOVERY_OWNER_CHANGED"
  | some owner => do
      let _ ← c.captureRecoveryOwner rules job.facts (some owner) childFenceHeld
      return ()

def inventory (epoch : Nat) : Inventory := ⟨epoch, settling.final.observation, settling.job.call.now⟩

/-- The transaction of the settlement. -/
def commit (rules : SerialRules) (childFenceHeld : Bool) (c : Catalog) : Except Failure Catalog :=
  let job := settling.job
  let epoch := job.facts.fence.identityEpoch
  let current := settling.current rules childFenceHeld
  match settling.settlement with
  | .bootstrap => bootstrapped current job.call.label (settling.inventory epoch) c
  | .renew => epochAdvanced current job.call.label (settling.inventory (epoch + 1)) c
  | .advance operationCode => refreshed current job.call.label operationCode (settling.inventory epoch) c
  | .recover =>
      recovered current job.call.label job.facts.writeGeneration (settling.inventory epoch) c

end Settling

/-- `_serial_live`. -/
def serialLive (state : SerialState) (evidence : LiveEvidence) : Bool :=
  let identity := state.facts.fence
  let observed := if identity.serial.isSome && state.status != .bridgeEncodedClean then
    (nonempty? evidence.identitySerial).or evidence.serial else evidence.serial
  evidence.proven && (nonempty? evidence.path).isSome && evidence.fsUuid == identity.fsUuid &&
    evidence.annexUuid == identity.annexUuid &&
    (state.requiredLiveSerial.isNone || observed == state.requiredLiveSerial) &&
    evidence.capacity == identity.filesystemCapacityBytes &&
    evidence.fingerprint == some state.canonicalFingerprint &&
    evidence.free.any fun free => identity.filesystemCapacityBytes.any (free ≤ ·)

/-- `_serial_guard`. -/
def serialGuard (rules : SerialRules) (affectedApprovals : List String) (state : SerialState) :
    Check := fun c => do
  require (!c.sessions.liveExists) (refusal "FILL_SESSION_ACTIVE")
  let current ← c.serialRepairState rules affectedApprovals state.facts.driveLabel
  requireOr (current == state) "DRIVE_SERIAL_REPAIR_STALE"

/-- The observation that bridges a dirty generation to its old identity. -/
def legacyObservation (rules : SerialRules) (state : SerialState) (final : LiveEvidence) :
    Observation where
  identityProven := true
  freeBytes := final.free
  filesystemCapacity := final.capacity
  fingerprint := state.facts.fence.identityFingerprint
  identityProof := rules.legacyProof state.facts
  fenceProof := final.identityProof
  refusalCode := none

/-- A repair that has been proven under its fences. -/
structure Repairing where
  state : SerialState
  owner : Option RecoveryOwner
  now : String
  deriving Repr, DecidableEq

/-- `_serial_recover_locked`. -/
def Repairing.recover (repair : Repairing) (rules : SerialRules) (world : FencedWorld)
    (final : LiveEvidence) (c : Catalog) : Except Failure (Catalog × SerialState) := do
  let state := repair.state
  let label := state.facts.driveLabel
  let current : Check := fun c => do
    serialGuard rules world.affectedApprovals state c
    requireOr (state.status == .legacyDirty) "DRIVE_SERIAL_REPAIR_UNPROVEN"
    let owner ← c.captureRecoveryOwner rules state.facts repair.owner world.childFenceHeld
    requireOr (owner == repair.owner) "DRIVE_RECOVERY_OWNER_CHANGED"
  let after ← recovered current label state.facts.writeGeneration
    ⟨state.facts.fence.identityEpoch, legacyObservation rules state final, repair.now⟩ c
  let clean ← after.serialRepairState rules world.affectedApprovals label
  requireOr (clean == { state with anchor := clean.anchor, status := .legacyClean })
    "DRIVE_SERIAL_REPAIR_STALE"
  return (after, clean)

/-- `_serial_enrich_locked`, from the state of a clean generation. -/
def Repairing.enrich (repair : Repairing) (rules : SerialRules) (world : FencedWorld)
    (final : LiveEvidence) (c : Catalog) : Except Failure Catalog :=
  let state := repair.state
  let current : Check := fun c => do
    serialGuard rules world.affectedApprovals state c
    requireOr (state.status == .legacyClean || state.status == .observedSerialClean ||
      state.status == .bridgeEncodedClean) "DRIVE_SERIAL_REPAIR_UNPROVEN"
  serialEnrich current state.facts.driveLabel state.facts.facts state.canonicalFingerprint
    ⟨state.facts.fence.identityEpoch, final.observation, repair.now⟩ c

/-- `repair_serial_identity` up to its transactions, with the rehearsal of both on a copy. -/
def Catalog.repairCapture (c : Catalog) (rules : SerialRules) (label now : String)
    (expected : SerialState → Bool) (world : FencedWorld) : Except Failure Repairing := do
  require (!c.sessions.liveExists) (refusal "FILL_SESSION_ACTIVE")
  let state ← c.serialRepairState rules world.affectedApprovals label
  requireOr (expected state) "DRIVE_SERIAL_REPAIR_STALE"
  requireOr world.fencesFree "DRIVE_FENCE_UNAVAILABLE"
  requireOr (serialLive state world.evidence) "DRIVE_SERIAL_REPAIR_LIVE_MISMATCH"
  requireOr (state.status == .legacyClean || state.status == .legacyDirty ||
    state.status == .observedSerialClean || state.status == .bridgeEncodedClean)
    "DRIVE_SERIAL_REPAIR_UNPROVEN"
  let owner ← c.captureRecoveryOwner rules state.facts none world.childFenceHeld
  requireOr world.inventoryComplete "DRIVE_RECONCILIATION_REQUIRED"
  requireOr (serialLive state world.final) "DRIVE_SERIAL_REPAIR_LIVE_MISMATCH"
  let repair : Repairing := { state, owner, now }
  let (copy, clean) ← if state.status == .legacyDirty then repair.recover rules world world.final c
    else pure (c, state)
  let _ ← Repairing.enrich { repair with state := clean } rules world world.final copy
  return repair

end Modelark.Revision
