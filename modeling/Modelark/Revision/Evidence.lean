import Modelark.Revision.Writers

/-!
# Writers of archive evidence

Repairs of original digests, the healing of replicas, the transport and the publication steps. The two
transactions that fill digests without a bump are `runExplicitDriveRepair` and
`healReplicaArchivedFromSource`.
-/

namespace Modelark.Revision

open Library Execution

/-- The digest that the archive's own commit proves of a stored row, if its drive is mounted. -/
structure HeadEvidence where
  mounted : String → Bool
  validateCandidate : ArchivedRow → FileRow → Option String

namespace Tables

variable (tables : Tables)

def updateArchived (where' : ArchivedRow → Bool) (change : ArchivedRow → ArchivedRow)
    (keeps : ∀ row, (change row).key = row.key) : Tables :=
  { tables with archived := tables.archived.update where' change keeps }

/-- `orig_sha256=?, orig_sha256_provenance=?`. -/
def fillDigest (where' : ArchivedRow → Bool) (digest provenance : Option String) : Tables :=
  tables.updateArchived where'
    (fun row => { row with origSha256 := digest, origSha256Provenance := provenance }) (fun _ => rfl)

/-- `archived a JOIN files f`, in the order of repository, file and drive. -/
def archivedFiles : List (ArchivedRow × FileRow) :=
  sortBy (fun pair => toLex (pair.1.repoId, toLex (pair.1.rfilename, pair.1.driveLabel)))
    (tables.archived.rows.filterMap fun row =>
      (tables.files.find (row.repoId, row.rfilename)).map fun file => (row, file))

end Tables

/-- A repair of one row that an audit proposes. -/
structure Repair where
  repoId : String
  rfilename : String
  driveLabel : String
  sha256 : String
  deriving Repr, DecidableEq

inductive AuditCode where
  | noArchivedRows
  | driveUnavailable
  | unprovenBytes
  | hashConflict
  deriving Repr, DecidableEq

structure Audit where
  repairs : List Repair
  errors : List (String × AuditCode)
  deriving DecidableEq

/-- The expected digests that rows of one file already have. -/
def knownDigests (u : Archive.Unicode) (rows : List (ArchivedRow × FileRow)) (file : String × String) :
    List String :=
  (rows.filter fun pair => (pair.1.repoId, pair.1.rfilename) == file).filterMap fun pair =>
    (u.expectedSha256 pair.2.sha256 pair.1.origSha256 (some pair.1.compressed)
      pair.1.annexKey).toOption.join

/-- What the audit says of one row without an expected digest. -/
def auditRow (u : Archive.Unicode) (head : HeadEvidence) (rows : List (ArchivedRow × FileRow))
    (pair : ArchivedRow × FileRow) : Except AuditCode Repair := do
  require (head.mounted pair.1.driveLabel) .driveUnavailable
  -- a compressed copy proves nothing about its original
  match if pair.1.compressed then none else head.validateCandidate pair.1 pair.2 with
  | none => .error .unprovenBytes
  | some sha256 =>
      require ((knownDigests u rows (pair.1.repoId, pair.1.rfilename)).all (· == sha256)) .hashConflict
      return ⟨pair.1.repoId, pair.1.rfilename, pair.1.driveLabel, sha256⟩

/-- `audit_hashes`; malformed evidence raises. -/
def auditHashes (u : Archive.Unicode) (head : HeadEvidence) (scope : List String) (tables : Tables) :
    Except Failure Audit := do
  let rows := tables.archivedFiles.filter fun pair => scope.isEmpty || scope.contains pair.1.repoId
  let expected (pair : ArchivedRow × FileRow) := u.expectedSha256 pair.2.sha256 pair.1.origSha256
    (some pair.1.compressed) pair.1.annexKey
  require (rows.all fun pair => (expected pair).toOption.isSome) (.raised "DigestEvidenceError")
  let absent := sortedSet (scope.filter fun repoId => !rows.any (·.1.repoId == repoId))
  let audited := (rows.filter fun pair => (expected pair).toOption.join.isNone).map fun pair =>
    (pair.1.repoId, auditRow u head rows pair)
  let repairs := audited.filterMap fun entry => entry.2.toOption
  -- copies of one file that disagree are all left out
  let agrees (repair : Repair) : Bool := repairs.all fun other =>
    other.repoId != repair.repoId || other.rfilename != repair.rfilename || other.sha256 == repair.sha256
  return {
    repairs := repairs.filter agrees
    errors := absent.map (fun repoId => (repoId, .noArchivedRows)) ++
      audited.filterMap (fun entry =>
        match entry.2 with
        | .error code => some (entry.1, code)
        | .ok _ => none) ++
      (repairs.filter fun repair => !agrees repair).map fun repair => (repair.repoId, .hashConflict) }

/-- One repair: only a row without a digest, of a file without a catalog digest. -/
def applyRepair (tables : Tables) (repair : Repair) : Except Failure Tables := do
  let selected (row : ArchivedRow) : Bool :=
    row.key == (repair.repoId, repair.rfilename, repair.driveLabel) && row.origSha256.isNone &&
      !tables.files.rows.any (fun file => file.key == (row.repoId, row.rfilename) && file.sha256.isSome)
  require ((tables.archived.rows.filter selected).length == 1)
    (.raised ("catalog evidence changed for " ++ repair.repoId ++ "/" ++ repair.rfilename ++ " on " ++
      repair.driveLabel))
  return tables.updateArchived selected (fun row => { row with origSha256 := some repair.sha256 })
    (fun _ => rfl)

/-- `repair_hashes` with `apply`. -/
def repairHashes (u : Archive.Unicode) (supported : Check) (head : HeadEvidence) (scope : List String)
    (c : Catalog) : Except Failure Catalog := do
  supported c
  require (!c.sessions.liveExists) (refusal "FILL_SESSION_ACTIVE")
  let report ← auditHashes u head scope c.tables
  require report.errors.isEmpty (.raised "refusing hash repair")
  if report.repairs.isEmpty then return c
  else c.immediate fun c => do
    let rechecked ← auditHashes u head scope c.tables
    require (rechecked.errors.isEmpty && rechecked.repairs == report.repairs)
      (.raised "repair evidence changed after backup; no catalog rows updated")
    thread applyRepair c.tables report.repairs

def isHex64 (value : String) : Bool :=
  value.length == 64 && value.toList.all fun c =>
    Archive.isHex c || ('A' ≤ c && c ≤ 'F')

/-- `_unresolved_null_digests`. -/
def unresolvedNullDigests (tables : Tables) (driveLabel : String) : List (ArchivedRow × FileRow) :=
  tables.archivedFiles.filter fun pair =>
    pair.1.driveLabel == driveLabel && pair.1.origSha256.isNone

/-- `_hub_disagrees`. -/
def hubDisagrees (lower : String → String) (catalogSha : Option String) (digest : String) : Bool :=
  catalogSha.any fun sha => sha != "" && lower sha != lower digest

/-- The digest of an unresolved row and its evidence: the annex key of a raw copy, or else the
    archive's own commit. -/
def repairDigest (u : Archive.Unicode) (head : Option HeadEvidence) (pair : ArchivedRow × FileRow) :
    Option (String × String) :=
  match if pair.1.compressed then none else u.annexSha256 pair.1.annexKey with
  | some digest => some (digest, "annex_key")
  | none =>
      let validated := if pair.1.compressed then none
        else head.bind fun head => head.validateCandidate pair.1 pair.2
      validated.map fun digest => (digest, "archive-head-blob")

/-- Plans the fills of the unresolved rows; one disagreement with the hub halts all of them. -/
def planRepairs (u : Archive.Unicode) (head : Option HeadEvidence)
    (rows : List (ArchivedRow × FileRow)) : Except String (List (ArchivedRow × String × String)) :=
  thread (fun planned pair =>
    match repairDigest u head pair with
    | none => .ok planned
    | some (digest, evidence) =>
        if hubDisagrees u.lower pair.2.sha256 digest then
          .error ("hub digest disagreement on " ++ pair.1.repoId ++ "/" ++ pair.1.rfilename ++
            " (" ++ evidence ++ ")")
        else .ok (planned ++ [(pair.1, digest, evidence)])) [] rows

def fillOne (tables : Tables) (planned : ArchivedRow × String × String) : Tables :=
  tables.fillDigest (fun row => row.key == planned.1.key && row.origSha256.isNone)
    (some planned.2.1) (some planned.2.2)

/-- `_set_repair_state`. -/
def Tables.setRepairState (tables : Tables) (state : HashRepairState) : Tables :=
  let hashRepairState := tables.hashRepairState.upsert state
    (fun old => { state with driveLabel := old.driveLabel, identityEpoch := old.identityEpoch })
    (fun _ => rfl)
  { tables with hashRepairState }

structure RepairReport where
  status : Option String
  detail : Option String
  applied : Nat
  unresolved : Nat
  deriving Repr, DecidableEq

/-- The identity that the caller of a drive repair captured. -/
structure RepairIdentity where
  driveLabel : String
  identityEpoch : Nat
  identityFingerprint : String

/-- Why the identity of a drive does not authorize its repair. -/
def repairHalt (lower : String → String) (identity : RepairIdentity) (drive : FleetDrive) :
    Option String :=
  if !isHex64 identity.identityFingerprint then
    some "caller identity_fingerprint is not valid 64-hex (refused; never authorizes repair)"
  else if !drive.fence.identityFingerprint.any isHex64 then
    some "stored identity_fingerprint missing or invalid (non-hex)"
  else if drive.fence.identityEpoch != identity.identityEpoch then
    some "identity_epoch mismatch"
  else if drive.fence.identityFingerprint.map lower != some (lower identity.identityFingerprint) then
    some "identity_fingerprint mismatch"
  else none

/-- How a repair that was not halted ends. -/
def repairStatus (lifecycle : String) (absent : Bool) (archives left applied : Nat) :
    String × String :=
  if left == 0 && !(absent && archives == 0 && applied == 0) then
    ("complete", "repaired=" ++ toString applied)
  else if absent && lifecycle != "lost" then ("blocked_absent", "archive_unavailable")
  else if lifecycle == "lost" && 0 < left then ("needs_refetch", "lost_drive_unresolved")
  else ("needs_refetch", "unresolved=" ++ toString left)

/-- The archive that a drive repair reads: what its `archive_resolver` finds, if it has one. Without a resolver
    the drive is not taken for absent, but nothing of its archive proves anything. -/
def readArchive (resolver : Option (Option HeadEvidence)) : Option HeadEvidence :=
  match resolver with
  | none => some ⟨fun _ => false, fun _ _ => none⟩
  | some found => found

/-- The committed tables and the report of a drive repair, in its one transaction. -/
def driveRepair (u : Archive.Unicode) (head : Option HeadEvidence) (identity : RepairIdentity)
    (drive : FleetDrive) (lifecycle : String) (tables : Tables) : Tables × RepairReport :=
  let archives := (tables.archived.rows.filter (·.driveLabel == identity.driveLabel)).length
  let state (status : String) (detail : Option String) : HashRepairState :=
    ⟨identity.driveLabel, identity.identityEpoch, some identity.identityFingerprint, status, detail⟩
  let halt (tables : Tables) (detail : String) : Tables × RepairReport :=
    (tables.setRepairState (state "halted" (some detail)), ⟨some "halted", some detail, 0, 0⟩)
  if lifecycle == "lost" && archives == 0 then (tables, ⟨none, none, 0, 0⟩)
  else
    match repairHalt u.lower identity drive with
    | some detail => halt tables detail
    | none =>
        let running := tables.setRepairState (state "running" none)
        match planRepairs u head (unresolvedNullDigests tables identity.driveLabel) with
        | .error detail => halt running detail
        | .ok planned =>
            let filled := planned.foldl fillOne running
            let left := (filled.archived.rows.filter fun row =>
              row.driveLabel == identity.driveLabel && row.origSha256.isNone).length
            let (status, detail) := repairStatus lifecycle head.isNone archives left planned.length
            (filled.setRepairState (state status (some detail)),
              ⟨some status, some detail, planned.length, left⟩)

/-- `run_explicit_drive_repair`. -/
def runExplicitDriveRepair (u : Archive.Unicode) (supported : Check)
    (resolver : Option (Option HeadEvidence)) (identity : RepairIdentity) (c : Catalog) :
    Except Failure (Catalog × RepairReport) := do
  supported c
  require (identity.identityFingerprint.length == 64)
    (.raised "identity_fingerprint required: valid non-null 64-character value")
  match c.fleet.findDrive identity.driveLabel, c.tables.driveColumns.find identity.driveLabel with
  | some drive, some columns =>
      let (tables, report) :=
        driveRepair u (readArchive resolver) identity drive (u.lower columns.lifecycle) c.tables
      return ({ c with tables }, report)
  | _, _ => .error (.raised ("unknown drive_label: " ++ identity.driveLabel))

inductive FillKind where
  | digest
  | provenance
  deriving Repr, DecidableEq

inductive HealAction where
  | haltContradiction
  | fill (kind : FillKind)
  | satisfied
  | noop
  deriving Repr, DecidableEq

/-- `_classify_replica_heal`. -/
def classifyReplicaHeal (u : Archive.Unicode) (source target : ArchivedRow) : HealAction :=
  match u.expectedSha256 none source.origSha256 (some source.compressed) source.annexKey,
      u.expectedSha256 none target.origSha256 (some target.compressed) target.annexKey with
  | .ok sourceResolved, .ok targetResolved =>
      if sourceResolved.isNone then .noop
      else if u.contentSatisfies sourceResolved target.origSha256 (some target.compressed)
          target.annexKey then
        if target.origSha256.isNone && Archive.truthy source.origSha256 then .fill .digest
        else if Archive.truthy target.origSha256 && target.origSha256Provenance.isNone &&
            source.origSha256Provenance.isSome then .fill .provenance
        else .satisfied
      else if targetResolved.isSome then .haltContradiction
      else if Archive.truthy source.origSha256 then .fill .digest
      else .noop
  | _, _ => .haltContradiction

inductive HealResult where
  | filled
  | provenanceFilled
  | targetComplete
  | sourceCannotFillTarget
  deriving Repr, DecidableEq

/-- The row that a heal fills, as it was read. -/
def healTarget (target : ArchivedRow) (row : ArchivedRow) : Bool :=
  row.key == target.key && row.compressed == target.compressed && row.annexKey == target.annexKey

/-- `heal_replica_archived_from_source`. -/
def healReplicaArchivedFromSource (u : Archive.Unicode) (sourceDrive targetDrive repoId rfilename : String)
    (c : Catalog) : Except Failure (Catalog × HealResult) := do
  let file := repoId ++ "/" ++ rfilename
  match c.tables.archived.find (repoId, rfilename, sourceDrive) with
  | none => .error (.raised ("source archived row missing: " ++ file ++ " on " ++ sourceDrive))
  | some source =>
    match c.tables.archived.find (repoId, rfilename, targetDrive) with
    | none => .error (.raised ("target archived row missing: " ++ file ++ " on " ++ targetDrive))
    | some target =>
      let fill (selected : ArchivedRow → Bool) (filled : Tables) (result : HealResult) :
          Except Failure (Catalog × HealResult) := do
        require ((c.tables.archived.rows.filter selected).length == 1)
          (.raised ("replica heal halted: target changed for " ++ file))
        return ({ c with tables := filled }, result)
      match classifyReplicaHeal u source target with
      | .haltContradiction =>
          .error (.raised ("replica heal halted: digest mismatch for " ++ file))
      | .fill .digest =>
          let selected (row : ArchivedRow) : Bool := healTarget target row && row.origSha256.isNone
          fill selected (c.tables.fillDigest selected source.origSha256 source.origSha256Provenance)
            .filled
      | .fill .provenance =>
          let selected (row : ArchivedRow) : Bool :=
            healTarget target row && row.origSha256 == target.origSha256 &&
              row.origSha256Provenance.isNone
          fill selected (c.tables.updateArchived selected
            (fun row => { row with origSha256Provenance := source.origSha256Provenance })
            (fun _ => rfl)) .provenanceFilled
      | .satisfied => return (c, .targetComplete)
      | .noop => return (c, .sourceCannotFillTarget)

/-- What a transport body writes through its context. -/
inductive TransportWrite where
  /-- The archive row of a file that was stored or copied. -/
  | archived (row : ArchivedRow)
  /-- `_event`. -/
  | event
  /-- The presentation status of a complete model. -/
  | modelArchived (repoId : String)

def Tables.modelArchived (tables : Tables) (repoId : String) : Tables :=
  let models := tables.models.update (·.repoId == repoId)
    (fun row => { row with status := "archived" }) (fun _ => rfl)
  { tables with models }

def Tables.upsertArchived (tables : Tables) (row : ArchivedRow) : Tables :=
  let archived := tables.archived.upsert row
    (fun old => { row with
      repoId := old.repoId
      rfilename := old.rfilename
      driveLabel := old.driveLabel }) (fun _ => rfl)
  { tables with archived }

/-- `RunCtx.write`. -/
def transportWrite (ctx : RunCtx) (write : TransportWrite) (c : Catalog) : Except Failure Catalog :=
  let owner := ctx.sessionId.bind fun sessionId => ctx.fencingToken.map fun token => (sessionId, token)
  c.writeAs owner fun c =>
    match write with
    | .archived row => do
        require (c.tables.files.has (row.repoId, row.rfilename) &&
          (c.fleet.findDrive row.driveLabel).isSome) .integrity
        return (c.tables.upsertArchived row, false)
    | .event => .ok (c.tables, false)
    | .modelArchived repoId => .ok (c.tables.modelArchived repoId, false)

/-- The status that `fetch_model` writes outside of any context. -/
def archiveModel (repoId : String) (c : Catalog) : Except Failure Catalog :=
  .ok { c with tables := c.tables.modelArchived repoId }

/-- The complete rows of one file on one drive, before and after. -/
structure CatalogPair where
  before : Option ArchivedRow
  archived : ArchivedRow
  replica : Option ReplicaRow

inductive PublicationStep where
  /-- Steps that write publication tables only. -/
  | stage
  /-- `CATALOG_PUBLISHED` of a file: the compare-and-swap of its pair. -/
  | publishPair (pair : CatalogPair)
  /-- `CATALOG_PUBLISHED` of a registration. -/
  | publishRegistration (registration : Body)
  /-- `close_operation`: the anchors of every participant. -/
  | close (participants : List (String × Nat × Nat × Observation)) (now : String)

/-- `compare_and_swap`. -/
def compareAndSwap (pair : CatalogPair) (tables : Tables) : Except Failure Tables := do
  require (tables.archived.find pair.archived.key == pair.before)
    (.publication "PUBLICATION_CATALOG_PAIR_STALE")
  let written := tables.upsertArchived pair.archived
  match pair.replica with
  | none => return written
  | some replica =>
      let replicas := written.replicas.upsert replica
        (fun old => { replica with
          repoId := old.repoId
          rfilename := old.rfilename
          driveLabel := old.driveLabel }) (fun _ => rfl)
      return { written with replicas }

/-- A step of the publisher, in its writer's adapter. The result of a registration's own body is not
    the result of the step, so that its proof of no change is not heard. -/
def publish (owner : Option (String × Nat)) (bound : Check) (step : PublicationStep) (c : Catalog) :
    Except Failure Catalog :=
  c.writeAs owner fun c => do
    bound c
    match step with
    | .stage => return (c.tables, false)
    | .publishPair pair =>
        let tables ← compareAndSwap pair c.tables
        return (tables, false)
    | .publishRegistration registration =>
        let (tables, _) ← registration c
        return (tables, false)
    | .close participants now =>
        let anchored ← lift (thread (fun (fleet : Fleet) entry =>
          fleet.publishAnchorLocked entry.1 entry.2.1 entry.2.2.1 entry.2.2.2 now) c.fleet participants)
        return (c.tables.withFleet anchored, false)

/-- `_abort_unfinished`. -/
def abortUnfinished (prepared : Bool) (c : Catalog) : Except Failure Catalog :=
  c.graphWrite fun c => .ok (c.tables, !prepared)

/-- `_publish_key` of a conversion. -/
def publishKey (candidate : ArchivedRow) (annexKey storedRelpath storedName : String) (c : Catalog) :
    Except Failure Catalog :=
  c.graphWrite fun c => do
    let selected (row : ArchivedRow) : Bool :=
      row.key == candidate.key && !Archive.truthy row.annexKey &&
        row.origSha256 == candidate.origSha256 && row.origBytes == candidate.origBytes &&
        row.storedRelpath == candidate.storedRelpath && row.compressed == candidate.compressed &&
        row.storedBytes == candidate.storedBytes &&
        row.origSha256Provenance == candidate.origSha256Provenance
    require ((c.tables.archived.rows.filter selected).length == 1)
      (.publication "PUBLICATION_MIGRATE_CATALOG_UNPROVEN")
    return (c.tables.updateArchived selected (fun row => { row with
      annexKey := some annexKey
      storedRelpath := some storedRelpath
      storedName := some storedName }) (fun _ => rfl), false)

/-- What an approved proposal does to the selection. -/
inductive Mutation where
  | adoptCurrent
  | successorReplan
  | finalize (repoIds : List String)

/-- `_apply_mutation`. -/
def Tables.applyMutation (tables : Tables) (now : String) : Mutation → Except Failure Tables
  | .adoptCurrent | .successorReplan => .ok tables
  | .finalize repoIds => do
      require (repoIds.all tables.models.has) .integrity
      let named := repoIds.foldl (fun (selection : Table SelectionRow.repoId) repoId =>
        selection.upsert ⟨repoId, some now⟩ (fun row => { row with finalizedAt := some now })
          (repoId_finalized now)) tables.selection
      return Tables.finalize { tables with selection := named } now

/-- `_approve_tx`, after its checks of the proposal and the fences. -/
def approve (checks : Check) (mutation : Mutation) (now : String) (c : Catalog) :
    Except Failure Catalog :=
  c.immediate fun c => do
    checks c
    c.tables.applyMutation now mutation

end Modelark.Revision
