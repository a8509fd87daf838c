import Modelark.Revision.Catalog

/-!
# The writers

Every supported transaction that touches a table of the planner, with the way in which it bumps the
revision. What a transaction checks outside these tables (publications, proposals, physical evidence)
is an argument of it.
-/

namespace Modelark.Revision

open Library Execution

inductive Failure where
  | control (refused : Refused)
  | publication (code : String)
  /-- Another exception, by its text. -/
  | raised (text : String)
  /-- A constraint of the catalog. -/
  | integrity
  deriving Repr, DecidableEq

def refusal (code : String) : Failure := .control (.refusal code)

def lift {α : Type} (result : Except Refused α) : Except Failure α :=
  result.mapError Failure.control

/-- A check of what is not in the modelled tables. -/
abbrev Check := Catalog → Except Failure Unit

/-- The body of a write: the tables it leaves, and whether it has proven that it changed nothing. -/
abbrev Body := Catalog → Except Failure (Tables × Bool)

namespace Catalog

variable (c : Catalog)

/-- `bump_revision`. -/
def bumpRevision (authorized : Bool) : Except Failure Catalog := do
  require (authorized || !c.sessions.liveExists) (refusal "FILL_SESSION_ACTIVE")
  return { c with plannerRevision := c.plannerRevision + 1 }

/-- `graph_write`. -/
def graphWrite (op : Body) : Except Failure Catalog := do
  require (!c.sessions.liveExists) (refusal "FILL_SESSION_ACTIVE")
  let (tables, provenNoop) ← op c
  if provenNoop then return { c with tables } else bumpRevision { c with tables } false

/-- `session_write`. -/
def sessionWrite (sessionId : String) (token : Nat) (op : Body) : Except Failure Catalog :=
  match c.sessions.find sessionId with
  | none => .error (refusal "SESSION_NOT_FOUND")
  | some row => do
      require (row.fencingToken == token) (refusal "SESSION_TOKEN_MISMATCH")
      require row.live (refusal "SESSION_STATE_INVALID")
      let (tables, provenNoop) ← op c
      if provenNoop then return { c with tables }
      else
        let bumped ← bumpRevision { c with tables } true
        match bumped.sessions.update (Session.matching sessionId token)
            (fun row => { row with boundPlannerRevision := bumped.plannerRevision }) with
        | none => .error .integrity
        | some sessions => .ok { bumped with sessions := sessions }

/-- A write under an adapter's identity. -/
def writeAs (owner : Option (String × Nat)) (op : Body) : Except Failure Catalog :=
  match owner with
  | some (sessionId, token) => c.sessionWrite sessionId token op
  | none => c.graphWrite op

/-- `_immediate` around a body that ends with its own bump. -/
def immediate (body : Catalog → Except Failure Tables) : Except Failure Catalog := do
  let tables ← body c
  bumpRevision { c with tables } false

/-- A transaction of a drive mutation. -/
def onFleet {α : Type} (transaction : Fleet → Except Refused (Fleet × α)) :
    Except Failure Catalog := do
  let (fleet, _) ← lift (transaction c.fleet)
  return ⟨c.tables.withFleet fleet, fleet.plannerRevision, fleet.sessions⟩

end Catalog

def defaultPlan : String := "ark"

namespace Tables

variable (tables : Tables)

def upsertPlan (planId capacityMode : String) : Tables :=
  let plans := tables.plans.upsert ⟨planId, capacityMode, false⟩
    (fun row => { row with capacityMode }) (fun _ => rfl)
  { tables with plans }

def updatePlan (planId : String) (change : PlanRow → PlanRow)
    (keeps : ∀ row, (change row).planId = row.planId) : Tables :=
  { tables with plans := tables.plans.update (·.planId == planId) change keeps }

/-- Deactivates every plan, then activates one. -/
def activate (planId : String) : Tables :=
  let cleared := tables.plans.update (fun _ => true) (fun row => { row with isActive := false })
    (fun _ => rfl)
  updatePlan { tables with plans := cleared } planId (fun row => { row with isActive := true })
    (fun _ => rfl)

def active : Option String :=
  (tables.plans.rows.find? (·.isActive)).map PlanRow.planId

def joinPlan (planId driveLabel : String) : Tables :=
  { tables with planDrives := tables.planDrives.upsert ⟨planId, driveLabel⟩ id (fun _ => rfl) }

end Tables

/-- `plan.create`. -/
def create (planId capacityMode : String) (c : Catalog) : Except Failure Catalog :=
  c.graphWrite fun c => .ok (c.tables.upsertPlan planId capacityMode, false)

/-- `plan.set_active`. -/
def setActive (planId : String) (c : Catalog) : Except Failure Catalog := do
  require (!c.sessions.liveExists) (refusal "FILL_SESSION_ACTIVE")
  require (c.tables.plans.has planId) (.raised ("no such plan: " ++ planId))
  if c.tables.active == some planId then return c
  else c.graphWrite fun c => .ok (c.tables.activate planId, false)

/-- `plan.set_capacity_mode`. -/
def setCapacityMode (planId mode : String) (c : Catalog) : Except Failure Catalog := do
  require (c.tables.plans.has planId) (.raised ("no such plan: " ++ planId))
  c.graphWrite fun c => .ok
    (c.tables.updatePlan planId (fun row => { row with capacityMode := mode }) (fun _ => rfl), false)

/-- `plan.add_drive`. -/
def addDrive (planId driveLabel : String) (c : Catalog) : Except Failure Catalog :=
  c.graphWrite fun c => do
    let existed := c.tables.planDrives.has (planId, driveLabel)
    require (existed || c.tables.plans.has planId && (c.fleet.findDrive driveLabel).isSome) .integrity
    return (c.tables.joinPlan planId driveLabel, existed)

/-- `plan.remove_drive`. -/
def removeDrive (planId driveLabel : String) (c : Catalog) : Except Failure Catalog :=
  c.graphWrite fun c =>
    .ok ({ c.tables with planDrives := c.tables.planDrives.delete (·.key == (planId, driveLabel)) },
      !c.tables.planDrives.has (planId, driveLabel))

/-- The drives that `bootstrap` sees to. -/
def placeableDrives (tables : Tables) : List String :=
  sortedSet ((tables.driveColumns.rows.filter fun drive =>
    drive.lifecycle == "active" && drive.eligibility == "enabled").map DriveColumns.driveLabel)

/-- Adds a drive that is not yet in the plan, and notes that something has changed. -/
def bootstrapDrive (planId : String) (state : Tables × Bool) (driveLabel : String) : Tables × Bool :=
  if state.1.planDrives.has (planId, driveLabel) then state
  else (state.1.joinPlan planId driveLabel, true)

def bootstrapBody (planId : String) (tables : Tables) : Tables × Bool :=
  let created :=
    if tables.plans.has planId then (tables, false) else (tables.upsertPlan planId "guaranteed", true)
  let joined := (placeableDrives created.1).foldl (bootstrapDrive planId) created
  if joined.1.active.isSome then joined else (joined.1.activate planId, true)

/-- `plan.bootstrap`. -/
def bootstrap (planId : String) (c : Catalog) : Except Failure Catalog :=
  c.graphWrite fun c =>
    let (tables, changed) := bootstrapBody planId c.tables
    .ok (tables, !changed)

namespace Tables

variable (tables : Tables)

def select (repoId : String) : Tables :=
  { tables with selection := tables.selection.upsert ⟨repoId, none⟩ id (fun _ => rfl) }

def deselect (repoIds : List String) : Tables :=
  { tables with selection := tables.selection.delete fun row => repoIds.contains row.repoId }

/-- Stamps the whole un-finalized set. -/
def finalize (now : String) : Tables :=
  let selection := tables.selection.update (·.finalizedAt.isNone)
    (fun row => { row with finalizedAt := some now }) (fun _ => rfl)
  { tables with selection }

end Tables

theorem repoId_finalized (now : String) (row : SelectionRow) :
    SelectionRow.repoId { row with finalizedAt := some now } = row.repoId := rfl

/-- Additions of `toggle` and `bulk`. -/
def selectAll (repoIds : List String) (c : Catalog) : Except Failure Catalog :=
  c.graphWrite fun c => do
    require (repoIds.all c.tables.models.has) .integrity
    return (repoIds.foldl Tables.select c.tables, false)

/-- `_guarded`: a removal while no Fill controller is live in this process. -/
def guarded (workerIdle : Bool) (mutate : Catalog → Except Failure Catalog) (c : Catalog) :
    Except Failure Catalog := do
  require workerIdle (refusal "FILL_ACTIVE")
  mutate c

/-- `toggle`. -/
def toggle (workerIdle : Bool) (repoId : String) (on : Bool) (c : Catalog) : Except Failure Catalog :=
  if on then selectAll [repoId] c
  else guarded workerIdle (fun c => c.graphWrite fun c => .ok (c.tables.deselect [repoId], false)) c

/-- What a bound removal expects: the revision and the selection it was shown. -/
structure Binding where
  expectedRevision : Option Nat
  expectedSelectionHash : Option String

/-- `bulk`. -/
def bulk (selectionHash : List SelectionRow → String) (workerIdle : Bool) (repoIds : List String)
    (on : Bool) (bound : Option Binding) (c : Catalog) : Except Failure Catalog :=
  let removal (binding : Option (Nat × String)) (c : Catalog) : Except Failure Catalog :=
    c.graphWrite fun c => do
      require (binding.all fun expected => c.plannerRevision == expected.1 &&
        selectionHash c.tables.selection.rows == expected.2) (refusal "PREVIEW_STALE")
      return (c.tables.deselect repoIds, false)
  if on then selectAll repoIds c
  else
    match bound with
    | none => guarded workerIdle (removal none) c
    | some ⟨some revision, some hash⟩ => guarded workerIdle (removal (some (revision, hash))) c
    | some _ => .error (refusal "PREVIEW_BINDINGS_REQUIRED")

/-- `clear`. -/
def clear (workerIdle : Bool) : Catalog → Except Failure Catalog :=
  guarded workerIdle fun c => c.graphWrite fun c =>
    .ok ({ c.tables with selection := Table.empty }, false)

/-- `finalize`. -/
def finalize (workerIdle : Bool) (now : String) : Catalog → Except Failure Catalog :=
  guarded workerIdle fun c => c.graphWrite fun c => .ok (c.tables.finalize now, false)

/-- `_replace_files_body`: a stale row stays while an archived or replicated file refers to it. -/
def Tables.replaceFiles (tables : Tables) (repoId : String) (rows : List FileRow) : Tables :=
  let refreshed := rows.foldl (fun (files : Table FileRow.key) row =>
    files.upsert { row with repoId }
      (fun old => { row with repoId := old.repoId, rfilename := old.rfilename }) (fun _ => rfl))
    tables.files
  let names := rows.map FileRow.rfilename
  let files := refreshed.delete fun file =>
    file.repoId == repoId && !names.contains file.rfilename &&
      !tables.archived.rows.any (fun row => (row.repoId, row.rfilename) == file.key) &&
      !tables.replicas.rows.any (fun row => (row.repoId, row.rfilename) == file.key)
  { tables with files }

/-- `db.replace_files`. -/
def replaceFiles (repoId : String) (rows : List FileRow) (c : Catalog) : Except Failure Catalog :=
  c.graphWrite fun c => do
    require (rows.isEmpty || c.tables.models.has repoId) .integrity
    return (c.tables.replaceFiles repoId rows, false)

def Tables.upsertModel (tables : Tables) (row : ModelRow) (change : ModelRow → ModelRow)
    (keeps : ∀ old, (change old).repoId = old.repoId) : Tables :=
  { tables with models := tables.models.upsert row change keeps }

/-- `persist_info`: the status and the copies of a known model stay as they are. -/
def persistInfo (repoId : String) (rows : List FileRow) (c : Catalog) : Except Failure Catalog :=
  c.graphWrite fun c =>
    let cataloged := c.tables.upsertModel ⟨repoId, "discovered", 1⟩ id (fun _ => rfl)
    .ok (cataloged.replaceFiles repoId rows, false)

/-- What the hub answers to `discover_one`. -/
inductive ModelInfo where
  | gated
  | absent
  | info (rows : List FileRow)

/-- `discover_one`. -/
def discoverOne (repoId : String) (answer : ModelInfo) (c : Catalog) : Except Failure Catalog := do
  require (!c.sessions.liveExists) (refusal "FILL_SESSION_ACTIVE")
  match answer with
  | .gated =>
      c.graphWrite fun c =>
        .ok (c.tables.upsertModel ⟨repoId, "skip", 1⟩ (fun row => { row with status := "skip" })
          (fun _ => rfl), false)
  | .absent => return c
  | .info rows => persistInfo repoId rows c

/-- `apply_metadata_classification` of a preview's changed files. -/
def applyMetadataClassification (previewCurrent : Check) (changedFiles : List (String × String))
    (c : Catalog) : Except Failure Catalog :=
  c.graphWrite fun c => do
    previewCurrent c
    if changedFiles.isEmpty then return (c.tables, true)
    else
      let files := c.tables.files.update
        (fun row => changedFiles.contains row.key && row.format == some "other")
        (fun row => { row with format := some "aux", quant := none }) (fun _ => rfl)
      return ({ c.tables with files }, false)

/-- `cmd_protect`. -/
def protect (repoIds : List String) (numcopies : Nat) (c : Catalog) : Except Failure Catalog := do
  require (!c.sessions.liveExists) (refusal "FILL_SESSION_ACTIVE")
  c.graphWrite fun c => do
    require (numcopies == 1 || numcopies == 2 || !repoIds.any c.tables.models.has) .integrity
    let models := c.tables.models.update (fun row => repoIds.contains row.repoId)
      (fun row => { row with numcopies }) (fun _ => rfl)
    return ({ c.tables with models }, false)

/-- A new row of `drives`; what is not given has the default of the schema. -/
structure Registration where
  driveLabel : String
  fsUuid : Option String
  annexUuid : Option String
  serial : Option String
  capacityBytes : Nat
  freeBytes : Nat
  role : String
  raidBacked : Bool

def Registration.drive (reg : Registration) : FleetDrive where
  driveLabel := reg.driveLabel
  fence :=
    { fsUuid := reg.fsUuid, annexUuid := reg.annexUuid, serial := reg.serial,
      filesystemCapacityBytes := none, identityEpoch := 1, identityFingerprint := none }
  writeGeneration := 0
  writeAuthority := "unknown"

def Registration.columns (reg : Registration) : DriveColumns where
  driveLabel := reg.driveLabel
  role := reg.role
  raidBacked := reg.raidBacked
  capacityBytes := some reg.capacityBytes
  freeBytes := some reg.freeBytes
  lifecycle := "active"
  eligibility := "enabled"

def Tables.insertDrive (tables : Tables) (reg : Registration) : Except Failure Tables :=
  match tables.driveColumns.insert? reg.columns with
  | none => .error .integrity
  | some driveColumns => .ok { tables with driveColumns, drives := tables.drives ++ [reg.drive] }

/-- The active plan gets the drive; without one, the default plan is activated first. -/
def Tables.joinActivePlan (tables : Tables) (driveLabel : String) : Tables :=
  match tables.active with
  | some planId => tables.joinPlan planId driveLabel
  | none =>
      let created :=
        if tables.plans.has defaultPlan then tables else tables.upsertPlan defaultPlan "guaranteed"
      (created.activate defaultPlan).joinPlan defaultPlan driveLabel

/-- The transaction of `register_drive`. -/
def registerDriveBody (requireLegacyRegistration : Check) (reg : Registration) : Body := fun c => do
  requireLegacyRegistration c
  require (c.fleet.findDrive reg.driveLabel).isNone
    (.raised ("drive label '" ++ reg.driveLabel ++ "' is already registered"))
  let registered ← c.tables.insertDrive reg
  return (registered.joinActivePlan reg.driveLabel, false)

/-- The transaction of `register_nas`, for the revision read at its start. -/
def registerNasBody (requireLegacyRegistration : Check) (revision : Nat) (reg : Registration) : Body :=
  fun c => do
    requireLegacyRegistration c
    require (c.fleet.findDrive reg.driveLabel).isNone
      (.raised ("drive label '" ++ reg.driveLabel ++ "' is already registered"))
    require (c.plannerRevision == revision) (refusal "REGISTRATION_CATALOG_CHANGED")
    let registered ← c.tables.insertDrive reg
    return (registered.joinActivePlan reg.driveLabel, false)

/-- What `register_nas` commits, `register_drive` would commit too. -/
theorem registerNasBody_ok {legacy : Check} {revision : Nat} {reg : Registration} {c : Catalog}
    {result : Tables × Bool} (performed : registerNasBody legacy revision reg c = .ok result) :
    registerDriveBody legacy reg c = .ok result := by
  simp only [registerNasBody, registerDriveBody, bind_eq_ok] at performed ⊢
  obtain ⟨checked, legacy, guarded, free, _, _, inserted⟩ := performed
  exact ⟨checked, legacy, guarded, free, inserted⟩

/-- The transaction of `register_new_identity`. -/
def registerNewIdentityBody (checkCatalog : Check) (planId : String) (reg : Registration) : Body :=
  fun c => do
    checkCatalog c
    let registered ← c.tables.insertDrive reg
    require (registered.plans.has planId) .integrity
    match registered.planDrives.insert? ⟨planId, reg.driveLabel⟩ with
    | none => .error .integrity
    | some planDrives => return ({ registered with planDrives }, false)

/-- What `declare_lost` was shown of the drive. -/
structure LossBinding where
  plannerRevision : Nat
  identityEpoch : Nat
  identityFingerprint : Option String
  deriving DecidableEq

/-- `declare_lost`; `fenceHeld` tells that the fences it needs are its own. -/
def declareLost (publicationClear : Check) (fenceHeld : Bool) (driveLabel : String)
    (expected : LossBinding) (confirmation : String) (c : Catalog) : Except Failure Catalog := do
  require (confirmation == "DECLARE LOST " ++ driveLabel)
    (refusal "DRIVE_LOSS_CONFIRMATION_MISMATCH")
  c.graphWrite fun c => do
    publicationClear c
    match c.fleet.findDrive driveLabel, c.tables.driveColumns.find driveLabel with
    | some drive, some columns =>
        require (decide ((⟨c.plannerRevision, drive.fence.identityEpoch,
          drive.fence.identityFingerprint⟩ : LossBinding) = expected))
          (refusal "DRIVE_LOSS_PREVIEW_STALE")
        require (columns.lifecycle != "retired") (refusal "DRIVE_ALREADY_RETIRED")
        if columns.lifecycle == "lost" && columns.eligibility == "excluded" then
          return (c.tables, true)
        else
          require fenceHeld (refusal "DRIVE_BUSY")
          let driveColumns := c.tables.driveColumns.update (·.driveLabel == driveLabel)
            (fun row => { row with lifecycle := "lost", eligibility := "excluded" }) (fun _ => rfl)
          return ({ c.tables with driveColumns }, false)
    | _, _ => .error (refusal "DRIVE_NOT_FOUND")

/-- What a reconciliation of a drive proves under its fences. -/
structure Inventory where
  epoch : Nat
  observation : Observation
  now : String

def Tables.updateDrive (tables : Tables) (driveLabel : String) (change : FleetDrive → FleetDrive) :
    Tables :=
  { tables with
      drives := tables.drives.map fun drive =>
      if drive.driveLabel = driveLabel then change drive else drive }

/-- Advances the generation of a drive and anchors it. -/
def advanceAndAnchor (driveLabel operationCode : String) (proven : Inventory) (c : Catalog) :
    Except Failure Tables := do
  let (advanced, generation) ← lift (c.fleet.advanceOne driveLabel operationCode none none)
  let anchored ← lift (advanced.publishAnchorLocked driveLabel proven.epoch generation
    proven.observation proven.now)
  return c.tables.withFleet anchored

/-- The first reconciliation: identity, first generation and first anchor. -/
def bootstrapped (current : Check) (driveLabel : String) (proven : Inventory) (c : Catalog) :
    Except Failure Catalog :=
  c.immediate fun c => do
    current c
    let tables := c.tables.updateDrive driveLabel fun drive =>
      { drive with
        fence := { drive.fence with
          identityEpoch := proven.epoch
          filesystemCapacityBytes := proven.observation.filesystemCapacity
          identityFingerprint := proven.observation.fingerprint }
        writeAuthority := "dedicated_local" }
    advanceAndAnchor driveLabel "bootstrap" proven { c with tables }

/-- A capacity transition: a new epoch, whose generations start again. -/
def epochAdvanced (current : Check) (driveLabel : String) (proven : Inventory) (c : Catalog) :
    Except Failure Catalog :=
  c.immediate fun c => do
    current c
    let tables := c.tables.updateDrive driveLabel fun drive =>
      { drive with
        fence := { drive.fence with
          identityEpoch := proven.epoch
          filesystemCapacityBytes := proven.observation.filesystemCapacity
          identityFingerprint := proven.observation.fingerprint }
        writeGeneration := 0 }
    advanceAndAnchor driveLabel "epoch" proven { c with tables }

/-- A refresh, with its drift accepted or not. -/
def refreshed (current : Check) (driveLabel operationCode : String) (proven : Inventory)
    (c : Catalog) : Except Failure Catalog :=
  c.immediate fun c => do
    current c
    advanceAndAnchor driveLabel operationCode proven c

/-- The anchor of a generation that was left dirty, also of `_serial_recover_locked` and
    `publish_clean_anchor`. -/
def recovered (current : Check) (driveLabel : String) (generation : Nat) (proven : Inventory)
    (c : Catalog) : Except Failure Catalog :=
  c.immediate fun c => do
    current c
    let anchored ← lift (c.fleet.publishAnchorLocked driveLabel proven.epoch generation
      proven.observation proven.now)
    return c.tables.withFleet anchored

/-- `_serial_enrich_locked`: the canonical fingerprint, between the generation and its anchor. -/
def serialEnrich (current : Check) (driveLabel : String) (captured : DriveFacts) (fingerprint : String)
    (proven : Inventory) (c : Catalog) : Except Failure Catalog :=
  c.immediate fun c => do
    current c
    let (advanced, generation) ←
      lift (c.fleet.advanceOne driveLabel "serial_identity_repair" (some captured) none)
    let enriched := (c.tables.withFleet advanced).updateDrive driveLabel fun drive =>
      { drive with fence := { drive.fence with identityFingerprint := some fingerprint } }
    let anchored ← lift ((({ c with tables := enriched } : Catalog).fleet).publishAnchorLocked driveLabel
      proven.epoch generation proven.observation proven.now)
    return enriched.withFleet anchored

/-- `publish_clean_anchor`. -/
def publishCleanAnchor (driveLabel : String) (generation : Nat) (proven : Inventory) (c : Catalog) :
    Except Failure Catalog :=
  recovered (fun c => require (!c.sessions.liveExists) (refusal "FILL_SESSION_ACTIVE")) driveLabel
    generation proven c

end Modelark.Revision
