import Modelark.Admission.Kept

/-!
# Identities of registered drives

Three transactions register a drive, and each compares identities by its own code. `register_new_identity`
refuses every identity that a row has; `register_drive` and `register_nas` guard the label only.
-/

namespace Modelark.Admission

open Library Execution Revision

/-- The columns of `drives` that identify a drive. -/
inductive IdentityColumn where
  | driveLabel
  | serial
  | fsUuid
  | annexUuid
  deriving Repr, DecidableEq

def IdentityColumn.of (drive : FleetDrive) : IdentityColumn → Option String
  | .driveLabel => some drive.driveLabel
  | .serial => drive.fence.serial
  | .fsUuid => drive.fence.fsUuid
  | .annexUuid => drive.fence.annexUuid

/-- `SELECT drive_label FROM drives WHERE …=? ORDER BY drive_label`: nothing equals null. -/
def registeredLabels (c : Catalog) (column : IdentityColumn) (value : Option String) : List String :=
  match value with
  | none => []
  | some value =>
      sortBy id ((c.tables.drives.filter fun drive => column.of drive == some value).map
        FleetDrive.driveLabel)

def requireUnregistered (column : IdentityColumn) (value : Option String) : Check := fun c =>
  require (registeredLabels c column value).isEmpty (refusal "DRIVE_REGISTRATION_IDENTITY_COLLISION")

theorem requireUnregistered_ok {c : Catalog} {column : IdentityColumn} {value : Option String}
    (passed : requireUnregistered column value c = .ok ()) :
    ∀ drive ∈ c.tables.drives, ∀ shared, column.of drive = some shared → value ≠ some shared := by
  rintro drive member shared has rfl
  rw [requireUnregistered, require_eq_ok, List.isEmpty_iff] at passed
  have listed : drive.driveLabel ∈ registeredLabels c column (some shared) := by
    rw [registeredLabels, mem_sortBy]
    apply List.mem_map_of_mem
    rw [List.mem_filter]
    exact ⟨member, beq_iff_eq.mpr has⟩
  rw [passed] at listed
  cases listed

/-- The number of a label `drive-N`, with the decimal digits of Unicode. -/
def driveNumber (decimal : Char → Option Nat) (label : String) : Option Nat :=
  let digits := label.toList.drop 6
  if label.toList.take 6 = "drive-".toList ∧ digits ≠ [] then
    digits.foldlM (fun number c => (decimal c).map fun digit => 10 * number + digit) 0
  else none

/-- `_next_drive_label`. -/
def nextDriveLabel (decimal : Char → Option Nat) (c : Catalog) : String :=
  let numbers := c.tables.drives.filterMap fun drive => driveNumber decimal drive.driveLabel
  let digits := Nat.toDigits 10 (numbers.foldl max 0 + 1)
  "drive-" ++ String.ofList (List.replicate (2 - digits.length) '0' ++ digits)

/-- What the caller of `register_new_identity` was shown. -/
structure RegistrationBinding where
  plannerRevision : Nat
  label : String
  planId : Option String
  serial : Option String
  fsUuid : Option String
  deriving Repr, DecidableEq

/-- `check_catalog`; `baseRevision` is that of the registration's setup, if there is one. -/
def checkCatalog (decimal : Char → Option Nat) (baseRevision : Option Nat)
    (expected : RegistrationBinding) : Check := fun c => do
  let isBoundAt (revision : Nat) : Bool :=
    c.plannerRevision == revision && nextDriveLabel decimal c == expected.label &&
      c.tables.active == expected.planId
  require (isBoundAt expected.plannerRevision || baseRevision.any isBoundAt)
    (refusal "DRIVE_REGISTRATION_PREVIEW_STALE")
  requireUnregistered .driveLabel (some expected.label) c
  requireUnregistered .serial expected.serial c
  requireUnregistered .fsUuid expected.fsUuid c

/-- A registration of a drive, with what has been observed of it. -/
inductive RegistrationTx where
  | registerDrive (requireLegacyRegistration : Check) (reg : Registration)
  | registerNas (requireLegacyRegistration : Check) (revision : Nat) (label uuid role : String)
      (capacityBytes freeBytes : Nat)
  | registerNewIdentity (requireLegacyRegistration : Check) (decimal : Char → Option Nat)
      (baseRevision : Option Nat) (expected : RegistrationBinding) (annexUuid role : String)
      (capacityBytes freeBytes : Nat)

namespace RegistrationTx

/-- What `op` of `register_new_identity` checks; the row's plan must not be null. -/
def newIdentityCheck (requireLegacyRegistration : Check) (decimal : Char → Option Nat)
    (baseRevision : Option Nat) (expected : RegistrationBinding) (annexUuid : String) : Check := fun c => do
  requireLegacyRegistration c
  checkCatalog decimal baseRevision expected c
  requireUnregistered .annexUuid (some annexUuid) c
  require expected.planId.isSome .integrity

/-- The transaction with its row: a remote has no file system and no serial number. -/
def enrolment : RegistrationTx → Enrolment
  | .registerDrive legacy reg => .registerDrive legacy reg
  | .registerNas legacy revision label uuid role capacityBytes freeBytes =>
      .registerNas legacy revision ⟨label, none, some uuid, none, capacityBytes, freeBytes, role, false⟩
  | .registerNewIdentity legacy decimal baseRevision expected annexUuid role capacityBytes freeBytes =>
      .registerNewIdentity (newIdentityCheck legacy decimal baseRevision expected annexUuid)
        (expected.planId.getD "")
        ⟨expected.label, expected.fsUuid, some annexUuid, expected.serial, capacityBytes, freeBytes, role, false⟩

def commit (tx : RegistrationTx) (c : Catalog) : Except Failure Catalog :=
  c.graphWrite tx.enrolment.body

/-- The row that a registration inserts. -/
def drive (tx : RegistrationTx) : FleetDrive :=
  tx.enrolment.registration.drive

/-- The columns that a registration fills, and does not compare with other rows. -/
def unchecked : RegistrationTx → IdentityColumn → Bool
  | _, .driveLabel => false
  | .registerDrive _ _, _ => true
  | .registerNas _ _ _ _ _ _ _, column => column == .annexUuid
  | .registerNewIdentity _ _ _ _ _ _ _ _, _ => false

end RegistrationTx

section Step

variable {c after : Catalog} {tx : RegistrationTx}

/-- Every drive has its columns. -/
def Columned (tables : Tables) : Prop :=
  tables.driveColumns.rows.map DriveColumns.driveLabel = tables.drives.map FleetDrive.driveLabel

theorem insertDrive_columned {tables next : Tables} {reg : Registration} (columned : Columned tables)
    (inserted : tables.insertDrive reg = .ok next) :
    Columned next ∧ ∀ drive ∈ tables.drives, drive.driveLabel ≠ reg.driveLabel := by
  unfold Tables.insertDrive at inserted
  split at inserted
  · cases inserted
  · rename_i driveColumns added
    cases inserted
    unfold Table.insert? at added
    split at added
    · rename_i fresh
      cases added
      constructor
      · unfold Columned at columned ⊢
        dsimp only
        rw [List.map_append, List.map_append, columned]
        rfl
      · intro drive member same
        have listed : drive.driveLabel ∈ tables.driveColumns.rows.map DriveColumns.driveLabel := by
          rw [columned]
          exact List.mem_map_of_mem member
        obtain ⟨row, among, label⟩ := List.mem_map.mp listed
        exact fresh row among (label.trans same)
    · cases added

theorem joinActivePlan_columns (tables : Tables) (driveLabel : String) :
    (tables.joinActivePlan driveLabel).driveColumns = tables.driveColumns := by
  unfold Tables.joinActivePlan
  split
  · rfl
  · dsimp only
    split_ifs <;> rfl

/-- The row of a registration is inserted into the tables that it found. -/
theorem commit_inserts (columned : Columned c.tables) (written : tx.commit c = .ok after) :
    Columned after.tables ∧ after.tables.drives = c.tables.drives ++ [tx.drive] ∧
      ∀ drive ∈ c.tables.drives, drive.driveLabel ≠ tx.drive.driveLabel := by
  have rows := (enrolment_rows written).1
  have drives {legacy : Check} {reg : Registration} {tables : Tables} {noop : Bool}
      (performed : registerDriveBody legacy reg c = .ok (tables, noop)) :
      Columned tables ∧ ∀ drive ∈ c.tables.drives, drive.driveLabel ≠ reg.driveLabel := by
    simp only [registerDriveBody, bind_eq_ok, pure_eq_ok, Prod.mk.injEq] at performed
    obtain ⟨_, _, _, _, registered, inserted, rfl, _⟩ := performed
    obtain ⟨kept, fresh⟩ := insertDrive_columned columned inserted
    refine ⟨?_, fresh⟩
    unfold Columned at kept ⊢
    rw [joinActivePlan_columns, (joinActivePlan_rows registered reg.driveLabel).1]
    exact kept
  obtain ⟨tables, noop, performed, same⟩ := graphWrite_tables written
  rw [same]
  rw [same] at rows
  cases tx with
  | registerDrive legacy reg =>
      obtain ⟨kept, fresh⟩ := drives performed
      exact ⟨kept, rows, fresh⟩
  | registerNas legacy revision label uuid role capacityBytes freeBytes =>
      obtain ⟨kept, fresh⟩ := drives (registerNasBody_ok performed)
      exact ⟨kept, rows, fresh⟩
  | registerNewIdentity legacy decimal baseRevision expected annexUuid role capacityBytes freeBytes =>
      simp only [RegistrationTx.enrolment, Enrolment.body, registerNewIdentityBody, bind_eq_ok] at performed
      obtain ⟨_, _, registered, inserted, _, _, joined⟩ := performed
      obtain ⟨kept, fresh⟩ := insertDrive_columned columned inserted
      split at joined
      · cases joined
      · simp only [pure_eq_ok, Prod.mk.injEq] at joined
        obtain ⟨rfl, _⟩ := joined
        exact ⟨kept, rows, fresh⟩

/-- A column that a registration compares has a value that no row had. -/
theorem commit_compares (columned : Columned c.tables) (written : tx.commit c = .ok after)
    {drive : FleetDrive} (member : drive ∈ c.tables.drives) {column : IdentityColumn} {value : String}
    (has : column.of drive = some value) (shared : column.of tx.drive = some value) :
    tx.unchecked column = true := by
  have fresh := (commit_inserts columned written).2.2 drive member
  have named : column ≠ .driveLabel := by
    rintro rfl
    exact fresh (Option.some.inj (has.trans shared.symm))
  obtain ⟨tables, noop, performed, _⟩ := graphWrite_tables written
  cases tx with
  | registerDrive legacy reg =>
      cases column with
      | driveLabel => exact absurd rfl named
      | serial | fsUuid | annexUuid => rfl
  | registerNas legacy revision label uuid role capacityBytes freeBytes =>
      cases column with
      | driveLabel => exact absurd rfl named
      | serial | fsUuid => cases shared
      | annexUuid => rfl
  | registerNewIdentity legacy decimal baseRevision expected annexUuid role capacityBytes freeBytes =>
      simp only [RegistrationTx.enrolment, Enrolment.body, registerNewIdentityBody,
        RegistrationTx.newIdentityCheck, checkCatalog, bind_eq_ok] at performed
      obtain ⟨_, ⟨_, _, _, ⟨_, _, _, _, _, serial, fsUuid⟩, _, annex, _⟩, _⟩ := performed
      cases column with
      | driveLabel => exact absurd rfl named
      | serial => exact absurd shared (requireUnregistered_ok serial drive member value has)
      | fsUuid => exact absurd shared (requireUnregistered_ok fsUuid drive member value has)
      | annexUuid => exact absurd shared (requireUnregistered_ok annex drive member value has)

end Step

/-- A catalog that registrations have made of one without drives, and the registrations that were
    committed, each with its row. -/
inductive Registered : List (RegistrationTx × FleetDrive) → Catalog → Prop where
  | empty {c : Catalog} (drives : c.tables.drives = []) (columns : c.tables.driveColumns.rows = []) :
      Registered [] c
  | commit {history : List (RegistrationTx × FleetDrive)} {c after : Catalog} {tx : RegistrationTx}
      (before : Registered history c) (written : tx.commit c = .ok after) :
      Registered (history ++ [(tx, tx.drive)]) after

theorem Registered.columned {history : List (RegistrationTx × FleetDrive)} {c : Catalog}
    (registered : Registered history c) : Columned c.tables := by
  induction registered with
  | empty drives columns => rw [Columned, drives, columns]; rfl
  | commit _ written ih => exact (commit_inserts ih written).1

/-- Two rows share an identity only where the later registration has not compared it. -/
theorem registered_identities {history : List (RegistrationTx × FleetDrive)} {c : Catalog}
    (registered : Registered history c) :
    c.tables.drives = history.map Prod.snd ∧
      history.Pairwise fun earlier later => ∀ (column : IdentityColumn) (value : String),
        column.of earlier.2 = some value → column.of later.2 = some value →
          later.1.unchecked column = true := by
  induction registered with
  | empty drives _ => exact ⟨drives, .nil⟩
  | commit before written ih =>
      obtain ⟨drives, pairs⟩ := ih
      have columned := before.columned
      constructor
      · rw [(commit_inserts columned written).2.1, drives, List.map_append]
        rfl
      · rw [List.pairwise_append]
        refine ⟨pairs, List.pairwise_singleton _ _, ?_⟩
        intro earlier listed later last column value has shared
        obtain rfl := List.mem_singleton.mp last
        have member := List.mem_map_of_mem (f := Prod.snd) listed
        rw [← drives] at member
        exact commit_compares columned written member has shared

/-- A catalog that has just been made. -/
def freshCatalog : Catalog where
  tables :=
    { models := Table.empty
      files := Table.empty
      replicas := Table.empty
      selection := Table.empty
      archived := Table.empty
      plans := Table.empty
      planDrives := Table.empty
      driveColumns := Table.empty
      drives := []
      dirty := []
      anchors := []
      hashRepairState := Table.empty }
  plannerRevision := 0
  sessions := .empty

/-- One volume of one disk, registered under a label. -/
def labelled (label : String) : RegistrationTx :=
  .registerDrive (fun _ => .ok ())
    ⟨label, some "6f5e-11c2", some "0b1d-annex", some "WD-1042", 1000, 400, "primary", false⟩

/-- The catalog after a registration. -/
def registeredIn (c : Catalog) (tx : RegistrationTx) : Catalog :=
  (tx.commit c).toOption.getD c

def labelledCatalog : Catalog :=
  registeredIn (registeredIn freshCatalog (labelled "drive-01")) (labelled "drive-02")

theorem labelled_registered :
    Registered [(labelled "drive-01", (labelled "drive-01").drive),
      (labelled "drive-02", (labelled "drive-02").drive)] labelledCatalog := by
  have first : (labelled "drive-01").commit freshCatalog =
      .ok (registeredIn freshCatalog (labelled "drive-01")) := rfl
  have second : (labelled "drive-02").commit (registeredIn freshCatalog (labelled "drive-01")) =
      .ok labelledCatalog := rfl
  exact .commit (.commit (.empty rfl rfl) first) second

/-- Both rows are there with one identity, of which the second registration has compared nothing. -/
theorem labelled_identities :
    labelledCatalog.tables.drives = [(labelled "drive-01").drive, (labelled "drive-02").drive] ∧
      ∀ column ∈ [IdentityColumn.serial, .fsUuid, .annexUuid],
        (labelled "drive-02").unchecked column = true := by
  obtain ⟨drives, compared⟩ := registered_identities labelled_registered
  have shared := (List.pairwise_cons.mp compared).1 _ List.mem_cons_self
  refine ⟨drives, fun column listed => ?_⟩
  simp only [List.mem_cons, List.not_mem_nil, or_false] at listed
  rcases listed with rfl | rfl | rfl
  · exact shared .serial "WD-1042" rfl rfl
  · exact shared .fsUuid "6f5e-11c2" rfl rfl
  · exact shared .annexUuid "0b1d-annex" rfl rfl

/-- `register_drive` takes one drive twice. -/
theorem drives_share_identity :
    ∃ history c, Registered history c ∧ ∃ one ∈ c.tables.drives, ∃ other ∈ c.tables.drives,
      one.driveLabel ≠ other.driveLabel ∧
        ∀ column ∈ [IdentityColumn.serial, .fsUuid, .annexUuid],
          (column.of one).isSome = true ∧ column.of one = column.of other := by
  refine ⟨_, _, labelled_registered, (labelled "drive-01").drive, ?_, (labelled "drive-02").drive, ?_, ?_, ?_⟩
  · decide +kernel
  · decide +kernel
  · decide +kernel
  · decide +kernel

end Modelark.Admission
