import Modelark.Capacity.Evidence
import Modelark.Library.Journal
import Modelark.Library.Runs
import Modelark.Revision.Reconcile

/-!
# Runs of operations on drives

Drive mutations, `begin_generation`, `publish_clean_anchor`, reconciliations and serial repairs of any
connections on one catalog. Each read phase and each transaction is one atomic step; an operation can
fail at any of them, and transactions of other operations come in between.
-/

namespace Modelark.Revision

open Library Execution Capacity

def generationKey (row : DirtyGeneration) : String × Nat × Nat :=
  (row.driveLabel, row.identityEpoch, row.generation)

def anchorKey (row : CleanAnchor) : String × Nat × Nat :=
  (row.driveLabel, row.identityEpoch, row.generation)

def dirtyChecked (row : DirtyGeneration) : Bool :=
  1 ≤ row.identityEpoch && 1 ≤ row.generation && nonblank row.operationCode &&
    row.owner.all fun owner => 1 ≤ owner.2

def anchorChecked (row : CleanAnchor) : Bool :=
  1 ≤ row.identityEpoch && 1 ≤ row.generation && row.identityFingerprint.any (·.length == 64) &&
    row.writeAuthority == "dedicated_local" && row.identityProof != "" && row.fenceProof != "" &&
    row.anchorFreeBytes.any fun free => row.filesystemCapacityBytes.any (free ≤ ·)

/-- Distinct keys, and every anchor refers to a generation. -/
def Tables.evidenceAccepted (tables : Tables) : Bool :=
  (tables.dirty.map generationKey).Nodup && (tables.anchors.map anchorKey).Nodup &&
    tables.anchors.all (fun row => (tables.dirty.map generationKey).contains (anchorKey row)) &&
    tables.dirty.all dirtyChecked && tables.anchors.all anchorChecked

/-- A drive mutation after its first transaction. -/
structure Envelope where
  sessionId : Option String
  fencingToken : Option Nat
  advanced : List (Captured × Nat)
  deriving Repr, DecidableEq

/-- What a connection's operation carries from one step to the next. -/
inductive DriveOp where
  | idle
  | entering (operationCode : String) (sessionId : Option String) (fencingToken : Option Nat)
      (captured : List Captured)
  /-- The body runs. -/
  | mutating (envelope : Envelope)
  | finishing (envelope : Envelope)
  | reconciling (job : Reconciling)
  | settling (settling : Settling)
  | repairing (repair : Repairing)
  | enriching (repair : Repairing)
  deriving Repr, DecidableEq

inductive DriveAction where
  /-- An exception or a crash ends the operation; this is also how the body of a mutation fails. -/
  | abandon
  | beginGeneration (label operationCode : String) (identityEpoch : Option Nat)
  | publishCleanAnchor (label : String) (generation : Nat) (proven : Inventory)
  | capture (labels : List String) (operationCode : String) (sessionId : Option String)
      (fencingToken : Option Nat) (world : MutationWorld)
  | enter
  | bodyReturns
  | close (world : MutationWorld)
  | reconcile (call : ReconcileCall) (world : FencedWorld)
  | fence (world : FencedWorld)
  | settle (childFenceHeld : Bool)
  | repair (label now : String) (expected : SerialState → Bool) (world : FencedWorld)
  | recover (world : FencedWorld) (final : LiveEvidence)
  | enrich (world : FencedWorld) (final : LiveEvidence)

/-- A transaction on the drives, with its result. -/
def Catalog.onDrives {α : Type} (c : Catalog) (transaction : Fleet → Except Refused (Fleet × α)) :
    Except Failure (Catalog × α) := do
  let (fleet, result) ← lift (transaction c.fleet)
  return (⟨c.tables.withFleet fleet, fleet.plannerRevision, fleet.sessions⟩, result)

namespace DriveOp

variable (rules : SerialRules) (c : Catalog)

/-- `drive_mutation` up to its first transaction: the facts under the controller lock, and the proof of
    every identity under the drive fences. -/
def capture (labels : List String) (operationCode : String) (sessionId : Option String)
    (fencingToken : Option Nat) (world : MutationWorld) : Except Failure DriveOp := do
  let _ ← lift (ownerPair sessionId fencingToken)
  let captured ← lift (thread (fun (seen : List Captured) label => do
    let entry ← c.fleet.capture rules.toFenceRules label
    return seen ++ [entry]) [] (sortedSet labels))
  requireOr world.fencesFree "DRIVE_FENCE_UNAVAILABLE"
  lift (c.fleet.requireFenceIdentities rules.toFenceRules captured)
  lift (thread (fun _ entry => Fleet.requireIdentity (world.observe entry.label) entry.facts) () captured)
  return .entering operationCode sessionId fencingToken captured

/-- One step of an operation; a step that the operation does not have now changes nothing. -/
def perform (op : DriveOp) (action : DriveAction) : Except Failure (Catalog × DriveOp) :=
  match op, action with
  | _, .abandon => .error (.raised "abandoned")
  | .idle, .beginGeneration label operationCode identityEpoch => do
      let (after, _) ← c.onDrives (·.beginGeneration label operationCode identityEpoch)
      return (after, .idle)
  | .idle, .publishCleanAnchor label generation proven => do
      let after ← Revision.publishCleanAnchor label generation proven c
      return (after, .idle)
  | .idle, .capture labels operationCode sessionId fencingToken world => do
      let next ← capture rules c labels operationCode sessionId fencingToken world
      return (c, next)
  | .entering operationCode sessionId fencingToken captured, .enter => do
      let owner ← lift (ownerPair sessionId fencingToken)
      let (after, advanced) ← c.onDrives (·.writeAs owner
        (·.dirtyBody rules.toFenceRules operationCode owner captured))
      return (after, .mutating ⟨sessionId, fencingToken, advanced⟩)
  | .mutating envelope, .bodyReturns => .ok (c, .finishing envelope)
  | .finishing envelope, .close world => do
      let (after, _) ← c.onDrives (·.close rules.toFenceRules envelope.sessionId envelope.fencingToken
        world envelope.advanced)
      return (after, .idle)
  | .idle, .reconcile call world => do
      let job ← c.reconcileCapture rules call world
      return (c, (job.map DriveOp.reconciling).getD .idle)
  | .reconciling job, .fence world => do
      let settled ← c.reconcileFenced rules job world
      return (c, .settling settled)
  | .settling settled, .settle childFenceHeld => do
      let after ← settled.commit rules childFenceHeld c
      return (after, .idle)
  | .idle, .repair label now expected world => do
      let repair ← c.repairCapture rules label now expected world
      return (c, if repair.state.status == .legacyDirty then .repairing repair else .enriching repair)
  | .repairing repair, .recover world final => do
      requireOr (serialLive repair.state final) "DRIVE_SERIAL_REPAIR_LIVE_MISMATCH"
      let (after, clean) ← repair.recover rules world final c
      return (after, .enriching { repair with state := clean })
  | .enriching repair, .enrich world final => do
      requireOr (serialLive repair.state final) "DRIVE_SERIAL_REPAIR_LIVE_MISMATCH"
      let after ← repair.enrich rules world final c
      return (after, .idle)
  | op, _ => .ok (c, op)

end DriveOp

structure DriveSystem where
  catalog : Catalog
  operations : Nat → DriveOp

inductive DriveEvent where
  | drive (conn : Nat) (action : DriveAction)
  /-- A transaction of another operation, such as the write of a mutation's body. -/
  | others (other : Catalog)

namespace DriveSystem

variable (rules : SerialRules) (sys : DriveSystem)

def setOperation (conn : Nat) (next : DriveOp) : DriveSystem :=
  { sys with operations := Function.update sys.operations conn next }

/-- The other operations leave the drives and their evidence alone. -/
def step : DriveEvent → DriveSystem
  | .drive conn action =>
      match (sys.operations conn).perform rules sys.catalog action with
      | .error _ => sys.setOperation conn .idle
      | .ok (after, next) =>
          -- a violated constraint rolls the transaction back
          if after.tables.evidenceAccepted then { sys with catalog := after }.setOperation conn next
          else sys.setOperation conn .idle
  | .others other => { sys with catalog := { other with tables := other.tables.withFleet sys.catalog.fleet } }

end DriveSystem

/-- The drive facts of `admission._facts`, for a drive that is not mounted, with its anchor of exactly the
    current epoch and generation. -/
def Catalog.offlineFacts (c : Catalog) (safetyFloor : FleetDrive → Int) (label : String) : EvidenceFacts :=
  match c.fleet.findDrive label with
  | none =>
      { mounted := false, identityProven := false, fenceHeld := false, writeAuthority := "unknown",
        currentEpoch := none, filesystemCapacityBytes := none, currentFingerprint := none,
        liveFreeBytes := none, dirty := false, anchorFreeBytes := none, anchorEpoch := none,
        anchorFingerprint := none, anchorFilesystemCapacity := none, safetyFloorBytes := 0 }
  | some drive =>
      let anchor := c.findAnchor label drive.fence.identityEpoch drive.writeGeneration
      { mounted := false, identityProven := false, fenceHeld := false
        writeAuthority := drive.writeAuthority
        currentEpoch := some drive.fence.identityEpoch
        filesystemCapacityBytes := drive.fence.filesystemCapacityBytes.map Int.ofNat
        currentFingerprint := drive.fence.identityFingerprint
        liveFreeBytes := none
        dirty := decide (0 < drive.writeGeneration) && anchor.isNone
        anchorFreeBytes := (anchor.bind CleanAnchor.anchorFreeBytes).map Int.ofNat
        anchorEpoch := anchor.map CleanAnchor.identityEpoch
        anchorFingerprint := anchor.bind CleanAnchor.identityFingerprint
        anchorFilesystemCapacity := (anchor.bind CleanAnchor.filesystemCapacityBytes).map Int.ofNat
        safetyFloorBytes := safetyFloor drive }

end Modelark.Revision
