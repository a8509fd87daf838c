import Modelark.Archive.Digest
import Modelark.Capacity.Evidence
import Modelark.Execution.Sessions
import Modelark.Library.Fallible
import Modelark.Library.Sorting

/-!
# The physical-mutation envelope

A mutation of drives begins a dirty generation on each of them in one transaction, runs its body and
publishes a clean anchor for each in another. With a session's identity both transactions are writes of
that session; without one they are operator writes, which the revision bump excludes while any session
is live. Catalogs here have no archive publication.
-/

namespace Modelark.Execution

open Library

inductive Refused where
  /-- A refusal of the control plane. -/
  | refusal (code : String)
  /-- `DriveMutationRefused`. -/
  | mutation (code : String)
  deriving Repr, DecidableEq

/-- The facts that the drive locks are derived from. -/
structure FenceIdentity where
  fsUuid : Option String
  annexUuid : Option String
  serial : Option String
  filesystemCapacityBytes : Option Nat
  identityEpoch : Nat
  identityFingerprint : Option String
  deriving Repr, DecidableEq

/-- `_drive_facts`. -/
structure DriveFacts where
  identityEpoch : Nat
  writeGeneration : Nat
  identityFingerprint : Option String
  filesystemCapacityBytes : Option Nat
  writeAuthority : String
  deriving Repr, DecidableEq

structure FleetDrive where
  driveLabel : String
  fence : FenceIdentity
  writeGeneration : Nat
  writeAuthority : String
  deriving Repr, DecidableEq

def FleetDrive.facts (drive : FleetDrive) : DriveFacts where
  identityEpoch := drive.fence.identityEpoch
  writeGeneration := drive.writeGeneration
  identityFingerprint := drive.fence.identityFingerprint
  filesystemCapacityBytes := drive.fence.filesystemCapacityBytes
  writeAuthority := drive.writeAuthority

structure DirtyGeneration where
  driveLabel : String
  identityEpoch : Nat
  generation : Nat
  operationCode : String
  /-- The session and the token of the owner; an operator's mutation has none. -/
  owner : Option (String × Nat)
  deriving Repr, DecidableEq

structure CleanAnchor where
  driveLabel : String
  identityEpoch : Nat
  generation : Nat
  anchorFreeBytes : Option Nat
  filesystemCapacityBytes : Option Nat
  identityFingerprint : Option String
  writeAuthority : String
  identityProof : String
  fenceProof : String
  observedAt : String
  deriving Repr, DecidableEq

/-- A fenced observation of a drive. -/
structure Observation where
  identityProven : Bool
  freeBytes : Option Nat
  filesystemCapacity : Option Nat
  fingerprint : Option String
  identityProof : String
  fenceProof : String
  refusalCode : Option String
  deriving Repr, DecidableEq

/-- The anchor that an observation is published as. -/
def Observation.anchor (observation : Observation) (label : String) (identityEpoch generation : Nat)
    (writeAuthority now : String) : CleanAnchor where
  driveLabel := label
  identityEpoch := identityEpoch
  generation := generation
  anchorFreeBytes := observation.freeBytes
  filesystemCapacityBytes := observation.filesystemCapacity
  identityFingerprint := observation.fingerprint
  writeAuthority := writeAuthority
  identityProof := observation.identityProof
  fenceProof := observation.fenceProof
  observedAt := now

/-- The part of the catalog that mutations of drives work on. -/
structure Fleet where
  sessions : SessionTable
  plannerRevision : Nat
  drives : List FleetDrive
  dirty : List DirtyGeneration
  anchors : List CleanAnchor
  deriving DecidableEq

/-- The text tables and the digest that fence identities are made with. -/
structure FenceRules where
  unicode : Archive.Unicode
  sha256 : String → String

/-- `x or None`. -/
def nonempty? (text : Option String) : Option String :=
  text.filter (· != "")

/-- The fingerprint of an identity of the catalog. -/
def FenceRules.identityFingerprintV1 (rules : FenceRules) (fsUuid annexUuid serial : Option String)
    (filesystemCapacityBytes : Nat) : String :=
  Capacity.identityFingerprintV1 rules.sha256 (.ofText fsUuid) (.ofText annexUuid) (.ofText serial)
    (.int filesystemCapacityBytes)

/-- `FenceIdentity.lock_keys`, up to the order of the keys. -/
def FenceRules.lockKeys (rules : FenceRules) (identity : FenceIdentity) : Option (List (String × Nat)) :=
  let stripped (text : Option String) : Bool := text.all fun value => rules.unicode.strip value == value
  match identity.filesystemCapacityBytes with
  | none => none
  | some capacity =>
      let fingerprint (serial : Option String) :=
        rules.identityFingerprintV1 identity.fsUuid identity.annexUuid serial capacity
      let fingerprints := [fingerprint none, fingerprint (nonempty? identity.serial)]
      if stripped identity.fsUuid && stripped identity.annexUuid && stripped identity.serial &&
          ((nonempty? identity.fsUuid).isSome || (nonempty? identity.annexUuid).isSome) &&
          0 < capacity && 1 ≤ identity.identityEpoch &&
          identity.identityFingerprint.any fingerprints.contains then
        some (fingerprints.dedup.map fun key => (key, identity.identityEpoch))
      else none

/-- A drive as the envelope captured it under its fences. -/
structure Captured where
  label : String
  facts : DriveFacts
  identity : FenceIdentity
  deriving Repr, DecidableEq

/-- What an envelope meets outside the catalog: its fences, its observations on entry and before the
    anchors, and what the reconciliation of a drive's touched set refuses. -/
structure MutationWorld where
  fencesFree : Bool
  observe : String → Observation
  observeAfter : String → Observation
  reconcile : String → Option String
  now : String

/-- A session pair is given whole or not at all. -/
def ownerPair (sessionId : Option String) (fencingToken : Option Nat) :
    Except Refused (Option (String × Nat)) :=
  match sessionId, fencingToken with
  | some sessionId, some token => .ok (some (sessionId, token))
  | none, none => .ok none
  | _, _ => .error (.mutation "DIRTY_OWNER_PAIR_REQUIRED")

namespace Fleet

variable (fleet : Fleet)

/-- `bump_revision`: refused while a session is live, except inside a session write. -/
def bumpRevision (authorized : Bool) : Except Refused Fleet := do
  require (authorized || !fleet.sessions.liveExists) (.refusal "FILL_SESSION_ACTIVE")
  return { fleet with plannerRevision := fleet.plannerRevision + 1 }

/-- A body in one transaction, with an operator's bump at its end. -/
def operatorWrite {α : Type} (body : Fleet → Except Refused (Fleet × α)) :
    Except Refused (Fleet × α) := do
  let (written, result) ← body fleet
  let bumped ← written.bumpRevision false
  return (bumped, result)

/-- `session_write`: nothing else writes between the first read of the row and the transaction. -/
def sessionWrite {α : Type} (sessionId : String) (token : Nat)
    (body : Fleet → Except Refused (Fleet × α)) : Except Refused (Fleet × α) :=
  match fleet.sessions.find sessionId with
  | none => .error (.refusal "SESSION_NOT_FOUND")
  | some row => do
      require (row.fencingToken == token) (.refusal "SESSION_TOKEN_MISMATCH")
      require row.live (.refusal "SESSION_STATE_INVALID")
      let (written, result) ← body fleet
      let bumped ← written.bumpRevision true
      match bumped.sessions.update (Session.matching sessionId token)
          (fun row => { row with boundPlannerRevision := bumped.plannerRevision }) with
      | none => .error (.refusal "INTEGRITY_ERROR")
      | some sessions => .ok ({ bumped with sessions := sessions }, result)

/-- `_require_live_session_token`. -/
def requireLiveSessionToken (sessionId : String) (token : Nat) : Except Refused Unit :=
  match fleet.sessions.find sessionId with
  | none => .error (.refusal "SESSION_NOT_FOUND")
  | some row => do
      require (row.fencingToken == token) (.refusal "SESSION_TOKEN_MISMATCH")
      require row.live (.refusal "SESSION_STATE_INVALID")

/-- The token of the owning session again, inside a transaction. -/
def requireOwner (owner : Option (String × Nat)) : Except Refused Unit :=
  match owner with
  | some (sessionId, token) => fleet.requireLiveSessionToken sessionId token
  | none => .ok ()

def findDrive (label : String) : Option FleetDrive :=
  fleet.drives.find? (·.driveLabel == label)

def drive (label : String) : Except Refused FleetDrive :=
  match fleet.findDrive label with
  | none => .error (.mutation "DRIVE_IDENTITY_UNPROVEN")
  | some drive => .ok drive

/-- `_generation_is_clean`: an anchor of the generation with the drive's current values. -/
def generationIsClean (label : String) (facts : DriveFacts) : Bool :=
  fleet.anchors.any fun anchor =>
    anchor.driveLabel == label && anchor.identityEpoch == facts.identityEpoch &&
      anchor.generation == facts.writeGeneration &&
      anchor.identityFingerprint == facts.identityFingerprint &&
      anchor.filesystemCapacityBytes == facts.filesystemCapacityBytes &&
      anchor.writeAuthority == facts.writeAuthority

def setGeneration (label : String) (generation : Nat) : Fleet :=
  { fleet with drives := fleet.drives.map fun drive =>
      if drive.driveLabel = label then { drive with writeGeneration := generation } else drive }

/-- `_advance_one`. -/
def advanceOne (label operationCode : String) (captured : Option DriveFacts)
    (owner : Option (String × Nat)) : Except Refused (Fleet × Nat) := do
  let drive ← fleet.drive label
  let facts := drive.facts
  require (captured.all fun seen => seen.identityEpoch == facts.identityEpoch &&
    seen.identityFingerprint == facts.identityFingerprint) (.mutation "DRIVE_IDENTITY_UNPROVEN")
  require (facts.writeGeneration == 0 || fleet.generationIsClean label facts)
    (.mutation "DIRTY_GENERATION_CONFLICT")
  let generation := facts.writeGeneration + 1
  let row : DirtyGeneration :=
    { driveLabel := label, identityEpoch := facts.identityEpoch, generation, operationCode, owner }
  return ({ fleet with dirty := fleet.dirty ++ [row] }.setGeneration label generation, generation)

/-- `begin_generation`. -/
def beginGeneration (label operationCode : String) (identityEpoch : Option Nat) :
    Except Refused (Fleet × Nat) := do
  require (!fleet.sessions.liveExists) (.refusal "FILL_SESSION_ACTIVE")
  require (identityEpoch.all fun epoch =>
    (fleet.findDrive label).all fun drive => drive.fence.identityEpoch == epoch)
    (.mutation "DRIVE_IDENTITY_UNPROVEN")
  fleet.operatorWrite fun current => current.advanceOne label operationCode none none

/-- `_require_identity`. -/
def requireIdentity (observation : Observation) (facts : DriveFacts) : Except Refused Unit := do
  require (nonempty? observation.refusalCode).isNone
    (.mutation (observation.refusalCode.getD ""))
  require (observation.identityProven && observation.fingerprint == facts.identityFingerprint &&
    observation.filesystemCapacity == facts.filesystemCapacityBytes)
    (.mutation "DRIVE_IDENTITY_UNPROVEN")

/-- `_publish_anchor_locked`: only for the captured epoch and generation. -/
def publishAnchorLocked (label : String) (identityEpoch generation : Nat) (observation : Observation)
    (now : String) : Except Refused Fleet := do
  let drive ← fleet.drive label
  let facts := drive.facts
  require (facts.identityEpoch == identityEpoch && facts.writeGeneration == generation)
    (.mutation "CLEAN_ANCHOR_CAS_FAILED")
  requireIdentity observation facts
  let anchor := observation.anchor label identityEpoch generation facts.writeAuthority now
  return { fleet with anchors := fleet.anchors ++ [anchor] }

/-- `_fence_identity`. -/
def fenceIdentity (rules : FenceRules) (label : String) : Except Refused FenceIdentity := do
  let drive ← fleet.drive label
  require (rules.lockKeys drive.fence).isSome (.mutation "DRIVE_IDENTITY_UNPROVEN")
  return drive.fence

def capture (rules : FenceRules) (label : String) : Except Refused Captured := do
  let drive ← fleet.drive label
  let identity ← fleet.fenceIdentity rules label
  return { label, facts := drive.facts, identity }

/-- `_require_fence_identities`. -/
def requireFenceIdentities (rules : FenceRules) (captured : List Captured) : Except Refused Unit :=
  thread (fun _ entry => do
    let identity ← fleet.fenceIdentity rules entry.label
    require (identity == entry.identity) (.mutation "DRIVE_IDENTITY_UNPROVEN")) () captured

/-- Advances every drive, and what each was advanced to. -/
def advanceAll (operationCode : String) (owner : Option (String × Nat)) (captured : List Captured) :
    Except Refused (Fleet × List (Captured × Nat)) :=
  thread (fun (state : Fleet × List (Captured × Nat)) entry => do
    let (advanced, generation) ←
      state.1.advanceOne entry.label operationCode (some entry.facts) owner
    return (advanced, state.2 ++ [(entry, generation)])) (fleet, []) captured

/-- `_dirty_body`. -/
def dirtyBody (rules : FenceRules) (operationCode : String) (owner : Option (String × Nat))
    (captured : List Captured) : Except Refused (Fleet × List (Captured × Nat)) := do
  fleet.requireFenceIdentities rules captured
  fleet.requireOwner owner
  fleet.advanceAll operationCode owner captured

/-- `_anchor_body`. -/
def anchorBody (rules : FenceRules) (owner : Option (String × Nat))
    (advanced : List (Captured × Nat)) (candidates : String → Observation) (now : String) :
    Except Refused (Fleet × Unit) := do
  fleet.requireFenceIdentities rules (advanced.map Prod.fst)
  fleet.requireOwner owner
  let anchored ← thread (fun (state : Fleet) entry =>
    state.publishAnchorLocked entry.1.label entry.1.facts.identityEpoch entry.2
      (candidates entry.1.label) now) fleet advanced
  return (anchored, ())

/-- A write of the owner's session, or an operator's. -/
def writeAs {α : Type} (owner : Option (String × Nat))
    (body : Fleet → Except Refused (Fleet × α)) : Except Refused (Fleet × α) :=
  match owner with
  | some (sessionId, token) => fleet.sessionWrite sessionId token body
  | none => fleet.operatorWrite body

/-- The first transaction of `drive_mutation`, with the checks under its fences before it. -/
def enter (rules : FenceRules) (labels : List String) (operationCode : String)
    (sessionId : Option String) (fencingToken : Option Nat) (world : MutationWorld) :
    Except Refused (Fleet × List (Captured × Nat)) := do
  let owner ← ownerPair sessionId fencingToken
  let captured ← thread (fun (seen : List Captured) label => do
    let entry ← fleet.capture rules label
    return seen ++ [entry]) [] (sortedSet labels)
  require world.fencesFree (.mutation "DRIVE_FENCE_UNAVAILABLE")
  fleet.requireFenceIdentities rules captured
  thread (fun _ entry => requireIdentity (world.observe entry.label) entry.facts) () captured
  fleet.writeAs owner fun current => current.dirtyBody rules operationCode owner captured

/-- Reconciles and observes every drive, then publishes all anchors in one transaction. -/
def close (rules : FenceRules) (sessionId : Option String) (fencingToken : Option Nat)
    (world : MutationWorld) (advanced : List (Captured × Nat)) : Except Refused (Fleet × Unit) := do
  let owner ← ownerPair sessionId fencingToken
  thread (fun _ entry => do
    require (world.reconcile entry.1.label).isNone
      (.mutation ((world.reconcile entry.1.label).getD ""))
    requireIdentity (world.observeAfter entry.1.label) entry.1.facts) () advanced
  fleet.writeAs owner fun current =>
    current.anchorBody rules owner advanced world.observeAfter world.now

end Fleet

/-- The identity that `fill.execute` binds on its context. -/
structure RunCtx where
  sessionId : Option String
  fencingToken : Option Nat
  deriving Repr, DecidableEq

def RunCtx.bind (session : Session) : RunCtx where
  sessionId := some session.sessionId
  fencingToken := some session.fencingToken

/-- `RunCtx.write`, for a body that leaves sessions and drives alone. -/
def RunCtx.write (ctx : RunCtx) (fleet : Fleet) : Except Refused (Fleet × Unit) :=
  match ctx.sessionId, ctx.fencingToken with
  | some sessionId, some token => fleet.sessionWrite sessionId token fun current => .ok (current, ())
  | _, _ => fleet.operatorWrite fun current => .ok (current, ())

/-- The catalog writes of a transport body, up to the first that is refused. -/
def RunCtx.writes (ctx : RunCtx) : Nat → Fleet → Fleet × Option Refused
  | 0, fleet => (fleet, none)
  | count + 1, fleet =>
      match ctx.write fleet with
      | .error refused => (fleet, some refused)
      | .ok (written, _) => ctx.writes count written

/-- An envelope that has ended: the outcome of each of its transactions, and what it raised. -/
structure EnvelopeRun where
  fleet : Fleet
  transactions : List (Option Refused)
  raised : Option Refused

/-- `drive_mutation` around a body that makes some catalog writes. -/
def driveMutation (rules : FenceRules) (ctx : RunCtx) (fleet : Fleet) (labels : List String)
    (operationCode : String) (sessionId : Option String) (fencingToken : Option Nat)
    (world : MutationWorld) (count : Nat) : EnvelopeRun :=
  match fleet.enter rules labels operationCode sessionId fencingToken world with
  | .error refused => ⟨fleet, [some refused], some refused⟩
  | .ok (dirtied, advanced) =>
      match ctx.writes count dirtied with
      | (written, some refused) => ⟨written, [none], some refused⟩
      | (written, none) =>
          match written.close rules sessionId fencingToken world advanced with
          | .error refused => ⟨written, [none, some refused], some refused⟩
          | .ok (anchored, _) => ⟨anchored, [none, none], none⟩

structure ReplicaTask where
  requirementId : String
  repoId : String
  sourceDrive : Option String
  targetDrive : String
  deriving Repr, DecidableEq

/-- What the batch of the drain meets outside the catalog. -/
structure BatchWorld where
  /-- `archive_path` resolves and exists. -/
  present : String → Bool
  mutation : Option String × String → MutationWorld
  /-- The catalog writes that the body of an envelope makes. -/
  writes : Option String × String → Nat

/-- `fetch.run` for one drive, up to what its envelope does. -/
def fetchRun (rules : FenceRules) (ctx : RunCtx) (fleet : Fleet) (world : BatchWorld)
    (driveLabel : String) : EnvelopeRun :=
  if world.present driveLabel then
    driveMutation rules ctx fleet [driveLabel] "fill" ctx.sessionId ctx.fencingToken
      (world.mutation (none, driveLabel)) (world.writes (none, driveLabel))
  else ⟨fleet, [], none⟩

/-- The pairs of source and target, in the order in which they are worked on. -/
def replicaGroups (tasks : List ReplicaTask) : List (Option String × String) :=
  sortBy (fun group => toLex (group.2, group.1.getD ""))
    (tasks.map fun task => (task.sourceDrive, task.targetDrive)).eraseDups

/-- A replica group gets past the checks before the mutation fence. -/
def reachesEnvelope (fleet : Fleet) (world : BatchWorld) (group : Option String × String) : Bool :=
  group.1.any world.present && world.present group.2 &&
    (fleet.findDrive group.2).any fun drive => (nonempty? drive.fence.annexUuid).isSome

/-- The envelopes of `run_replica_tasks`: a refused mutation fails its group, a refusal of the control
    plane ends the batch. The envelope is not given the session of the context. -/
def runReplicaGroups (rules : FenceRules) (ctx : RunCtx) (world : BatchWorld) :
    List (Option String × String) → Fleet → EnvelopeRun
  | [], fleet => ⟨fleet, [], none⟩
  | group :: groups, fleet =>
      if reachesEnvelope fleet world group then
        let ended := driveMutation rules ctx fleet [group.1.getD "", group.2] "replica" none none
          (world.mutation group) (world.writes group)
        match ended.raised with
        | some (.refusal _) => ended
        | _ =>
            let rest := runReplicaGroups rules ctx world groups ended.fleet
            { rest with transactions := ended.transactions ++ rest.transactions }
      else runReplicaGroups rules ctx world groups fleet

inductive Batch where
  | fetch (driveLabel : String)
  | replica (tasks : List ReplicaTask)
  deriving Repr, DecidableEq

def Batch.groups : Batch → List (Option String × String)
  | .fetch _ => []
  | .replica tasks => replicaGroups tasks

/-- A batch that the drain hands to its transport. -/
def runBatch (rules : FenceRules) (ctx : RunCtx) (fleet : Fleet) (world : BatchWorld) :
    Batch → EnvelopeRun
  | .fetch driveLabel => fetchRun rules ctx fleet world driveLabel
  | .replica tasks => runReplicaGroups rules ctx world (replicaGroups tasks) fleet

end Modelark.Execution
