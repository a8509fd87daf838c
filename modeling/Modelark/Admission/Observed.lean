import Modelark.Archive.Digest
import Modelark.Library.Sorting

/-!
# Registered drives among the observed devices

`observe_registered` maps what the hardware inventory shows to the registered drives, one drive after
the other in the order of their labels: by a pair of identities that is unique on both sides, or else
by the serial.
-/

namespace Modelark.Admission

open Library Archive

/-- One file system on a device. -/
structure StorageIdentity where
  fsUuid : Option String
  annexUuid : Option String
  deriving Repr, DecidableEq

/-- An observed device; `id` is that of its own copy. -/
structure Device where
  id : Nat
  serial : Option String
  storageIdentities : List StorageIdentity
  deriving Repr, DecidableEq

/-- A row of `drives`, as far as `observe_registered` reads it. -/
structure RegisteredDrive where
  driveLabel : String
  lifecycle : String
  eligibility : String
  identityEpoch : Nat
  identityFingerprint : Option String
  serial : Option String
  hwModel : Option String
  capacityBytes : Option Nat
  lastSeen : Option String
  fsUuid : Option String
  annexUuid : Option String
  deriving Repr, DecidableEq

inductive DriveObservation where
  | ambiguousStorageIdentity
  | attachedExactStorageIdentity
  | stableIdentityConflict
  | ambiguousSerial
  | attachedExactSerial
  | notAttached
  | identityUnproven
  deriving Repr, DecidableEq

inductive SerialObservation where
  | exactSupporting
  | mismatchSupportingOnly
  | registeredOnly
  | observedWithoutRegisteredSerial
  | unreported
  deriving Repr, DecidableEq

/-- One entry of `registered`. -/
structure ObservedDrive where
  drive : RegisteredDrive
  observation : DriveObservation
  device : Option Device
  serialObservation : Option SerialObservation
  deriving Repr, DecidableEq

/-- One entry of `unregistered`; it is an identity conflict when it has registered labels. -/
structure UnregisteredDevice where
  device : Device
  actionTaken : Bool
  registeredLabels : List String
  deriving Repr, DecidableEq

structure ObservedDrives where
  registered : List ObservedDrive
  unregistered : List UnregisteredDevice
  deriving Repr, DecidableEq

/-- Rows under their primary key, and devices each with a copy of its own. -/
structure Inventory where
  rows : List RegisteredDrive
  observed : List Device
  labels : (rows.map RegisteredDrive.driveLabel).Nodup
  copies : (observed.map Device.id).Nodup

section Pass

variable (u : Unicode)

/-- `_value`. -/
@[irreducible]
def cleanedValue (value : Option String) : String :=
  let cleaned := u.strip (value.getD "")
  if cleaned = "—" then "" else cleaned

/-- `all(pair)`. -/
def completePair (pair : String × String) : Bool :=
  pair.1 != "" && pair.2 != ""

/-- `_pairs`. -/
def Device.pairs (item : Device) : List (String × String) :=
  (item.storageIdentities.map fun identity =>
    (cleanedValue u identity.fsUuid, cleanedValue u identity.annexUuid)).filter completePair

def RegisteredDrive.pair (row : RegisteredDrive) : String × String :=
  (cleanedValue u row.fsUuid, cleanedValue u row.annexUuid)

variable (rows : List RegisteredDrive) (observed : List Device)

/-- `by_pair.get(pair, [])`. -/
def byPair (pair : String × String) : List Device :=
  observed.filter fun item => pair ∈ item.pairs u

/-- `by_serial.get(serial, [])`: no device is kept under an empty serial. -/
def bySerial (serial : String) : List Device :=
  observed.filter fun item => serial != "" && cleanedValue u item.serial == serial

/-- `registered_serials.get(serial, 0)`. -/
def registeredSerials (serial : String) : Nat :=
  (rows.filter fun row => serial != "" && cleanedValue u row.serial == serial).length

/-- `registered_pairs.get(pair, 0)`. -/
def registeredPairs (pair : String × String) : Nat :=
  (rows.filter fun row => completePair pair && row.pair u == pair).length

def serialObservation (serial observedSerial : String) : SerialObservation :=
  if serial ≠ "" ∧ observedSerial = serial then .exactSupporting
  else if serial ≠ "" ∧ observedSerial ≠ "" then .mismatchSupportingOnly
  else if serial ≠ "" then .registeredOnly
  else if observedSerial ≠ "" then .observedWithoutRegisteredSerial
  else .unreported

/-- What a row gives: its entry, the devices it takes from the later rows, and those it conflicts with. -/
structure SeenRow where
  entry : ObservedDrive
  marks : List Device
  conflicts : List Device

/-- `stable_matches`. -/
def stableMatches (row : RegisteredDrive) : List Device :=
  if completePair (row.pair u) then byPair u observed (row.pair u) else []

/-- The serial matches a row may fall back to. -/
def usableSerialMatches (matched : List Nat) (row : RegisteredDrive) : List Device :=
  (bySerial u observed (cleanedValue u row.serial)).filter fun item =>
    item.id ∉ matched && (!completePair (row.pair u) || item.pairs u == [])

/-- The serial matches with other complete pairs than the one of the row. -/
def conflictingMatches (row : RegisteredDrive) : List Device :=
  if completePair (row.pair u) then
    (bySerial u observed (cleanedValue u row.serial)).filter fun item =>
      item.pairs u != [] && row.pair u ∉ item.pairs u
  else []

/-- A complete pair that several rows have, or several devices. -/
def ambiguousPair (row : RegisteredDrive) : Bool :=
  completePair (row.pair u) &&
    (1 < registeredPairs u rows (row.pair u) || 1 < (stableMatches u observed row).length)

/-- The last branches: one device that is left binds the row, several are ambiguous. -/
def serialFallback (row : RegisteredDrive) (serial : String) : List Device → SeenRow
  | [device] => ⟨⟨row, .attachedExactSerial, some device, none⟩, [device], []⟩
  | [] => ⟨⟨row, if serial ≠ "" then .notAttached else .identityUnproven, none, none⟩, [], []⟩
  | usable => ⟨⟨row, .ambiguousSerial, none, none⟩, usable, []⟩

/-- The body of the loop over the rows, after the devices in `matched`. -/
def observeRow (matched : List Nat) (row : RegisteredDrive) : SeenRow :=
  let serial := cleanedValue u row.serial
  if ambiguousPair u rows observed row then
    ⟨⟨row, .ambiguousStorageIdentity, none, none⟩, stableMatches u observed row, []⟩
  else
    match stableMatches u observed row with
    | device :: _ =>
        ⟨⟨row, .attachedExactStorageIdentity, some device,
          some (serialObservation serial (cleanedValue u device.serial))⟩, [device], []⟩
    | [] =>
        if conflictingMatches u observed row ≠ [] then
          ⟨⟨row, .stableIdentityConflict, none, none⟩, [], conflictingMatches u observed row⟩
        else if 1 < registeredSerials u rows serial then
          ⟨⟨row, .ambiguousSerial, none, none⟩, bySerial u observed serial, []⟩
        else serialFallback row serial (usableSerialMatches u observed matched row)

def observeRows (matched : List Nat) : List RegisteredDrive → List SeenRow
  | [] => []
  | row :: rest =>
      let seen := observeRow u rows observed matched row
      seen :: observeRows (matched ++ seen.marks.map Device.id) rest

/-- The labels of the rows that conflict with a device. -/
def conflictLabels (seen : List SeenRow) (item : Device) : List String :=
  sortedSet ((seen.filter fun row => item.id ∈ row.conflicts.map Device.id).map
    fun row => row.entry.drive.driveLabel)

def observeRegistered (inventory : Inventory) : ObservedDrives :=
  let seen := observeRows u inventory.rows inventory.observed []
    (sortBy RegisteredDrive.driveLabel inventory.rows)
  let matched := (seen.flatMap SeenRow.marks).map Device.id
  { registered := seen.map SeenRow.entry
    unregistered := (inventory.observed.filter fun item => item.id ∉ matched).map fun item =>
      ⟨item, false, conflictLabels seen item⟩ }

/-- A device matches a row by its complete identity pair. -/
def Carries (item : Device) (row : RegisteredDrive) : Prop :=
  completePair (row.pair u) = true ∧ row.pair u ∈ item.pairs u

instance (item : Device) (row : RegisteredDrive) : Decidable (Carries u item row) :=
  inferInstanceAs (Decidable (_ ∧ _))

variable {u rows observed} {matched : List Nat} {row : RegisteredDrive} {item : Device}

theorem mem_byPair {pair : String × String} :
    item ∈ byPair u observed pair ↔ item ∈ observed ∧ pair ∈ item.pairs u := by
  simp [byPair]

theorem mem_bySerial {serial : String} :
    item ∈ bySerial u observed serial ↔
      item ∈ observed ∧ serial ≠ "" ∧ cleanedValue u item.serial = serial := by
  simp [bySerial]

theorem mem_usable : item ∈ usableSerialMatches u observed matched row ↔
    item ∈ bySerial u observed (cleanedValue u row.serial) ∧ item.id ∉ matched ∧
      (completePair (row.pair u) = true → item.pairs u = []) := by
  simp only [usableSerialMatches, List.mem_filter, Bool.and_eq_true, decide_eq_true_eq,
    Bool.or_eq_true, Bool.not_eq_true', beq_iff_eq]
  cases completePair (row.pair u) <;> simp

theorem mem_stableMatches :
    item ∈ stableMatches u observed row ↔ item ∈ observed ∧ Carries u item row := by
  rw [stableMatches]
  split
  case isTrue complete =>
    rw [mem_byPair, Carries]
    simp only [complete, true_and]
  case isFalse complete =>
    simp [Carries, complete]

/-- A row is bound by its complete pair, or by a serial that no other row has. -/
inductive Bound (u : Unicode) (rows : List RegisteredDrive) (observed : List Device)
    (matched : List Nat) (row : RegisteredDrive) (item : Device) : DriveObservation → Prop where
  | stable (single : registeredPairs u rows (row.pair u) ≤ 1)
      (found : stableMatches u observed row = [item]) :
      Bound u rows observed matched row item .attachedExactStorageIdentity
  | serial (clear : completePair (row.pair u) = true → registeredPairs u rows (row.pair u) ≤ 1)
      (absent : stableMatches u observed row = []) (free : conflictingMatches u observed row = [])
      (single : registeredSerials u rows (cleanedValue u row.serial) ≤ 1)
      (found : usableSerialMatches u observed matched row = [item]) :
      Bound u rows observed matched row item .attachedExactSerial

/-- Every branch of the loop body: an entry without a device marks the stable matches, or only serial
    matches where there are no stable ones. -/
theorem observeRow_cases (motive : SeenRow → Prop)
    (bound : ∀ item observation serial, Bound u rows observed matched row item observation →
      motive ⟨⟨row, observation, some item, serial⟩, [item], []⟩)
    (unbound : ∀ observation marks conflicts, stableMatches u observed row ⊆ marks →
      (∀ item ∈ marks, item ∈ stableMatches u observed row ∨
        item ∈ bySerial u observed (cleanedValue u row.serial)) →
      motive ⟨⟨row, observation, none, none⟩, marks, conflicts⟩) :
    motive (observeRow u rows observed matched row) := by
  rw [observeRow]
  split
  · exact unbound _ _ _ (List.Subset.refl _) fun _ member => Or.inl member
  case isFalse clear =>
    rw [ambiguousPair] at clear
    simp only [Bool.and_eq_true, Bool.or_eq_true, decide_eq_true_eq, not_and, not_or, not_lt] at clear
    split
    case h_1 device rest found =>
      have complete : completePair (row.pair u) = true := by
        have member : device ∈ stableMatches u observed row := found ▸ List.mem_cons_self ..
        exact (mem_stableMatches.mp member).2.1
      obtain ⟨single, short⟩ := clear complete
      rw [found, List.length_cons] at short
      obtain rfl : rest = [] := List.length_eq_zero_iff.mp (by omega)
      exact bound _ _ _ (.stable single found)
    case h_2 absent =>
      have none : ∀ marks, stableMatches u observed row ⊆ marks := by simp [absent]
      split
      · exact unbound _ _ _ (none _) (by simp)
      case isFalse free =>
        split
        · exact unbound _ _ _ (none _) fun _ member => Or.inr member
        case isFalse single =>
          match found : usableSerialMatches u observed matched row with
          | [device] =>
              exact bound _ _ _ (.serial (fun complete => (clear complete).1) absent (not_not.mp free)
                (not_lt.mp single) found)
          | [] => exact unbound _ _ _ (none _) (by simp)
          | _ :: _ :: _ =>
              refine unbound _ _ _ (none _) fun _ member => Or.inr ?_
              rw [← found] at member
              exact (mem_usable.mp member).1

@[simp] theorem observeRow_drive : (observeRow u rows observed matched row).entry.drive = row :=
  observeRow_cases (fun seen => seen.entry.drive = row) (fun _ _ _ _ => rfl) fun _ _ _ _ _ => rfl

theorem bound_of_device (device : (observeRow u rows observed matched row).entry.device = some item) :
    Bound u rows observed matched row item
        (observeRow u rows observed matched row).entry.observation ∧
      item ∈ (observeRow u rows observed matched row).marks := by
  revert device
  refine observeRow_cases (fun seen => seen.entry.device = some item →
    Bound u rows observed matched row item seen.entry.observation ∧ item ∈ seen.marks) ?_ ?_
  · intro other observation serial bound same
    obtain rfl := Option.some.inj same
    exact ⟨bound, List.mem_cons_self ..⟩
  · intro _ _ _ _ _ absent
    cases absent

theorem Bound.device {observation : DriveObservation}
    (bound : Bound u rows observed matched row item observation) :
    (observeRow u rows observed matched row).entry.device = some item ∧
      (observeRow u rows observed matched row).entry.observation = observation := by
  cases bound with
  | stable single found =>
      rw [observeRow, found, if_neg]
      · exact ⟨rfl, rfl⟩
      · rw [ambiguousPair, found]
        simp only [Bool.and_eq_true, Bool.or_eq_true, decide_eq_true_eq, List.length_cons,
          List.length_nil]
        omega
  | serial clear absent free single found =>
      rw [observeRow, absent, if_neg]
      · simp only [free, found, ne_eq, not_true_eq_false, if_false, if_neg (not_lt.mpr single),
          serialFallback, and_self]
      · rw [ambiguousPair, absent]
        simp only [Bool.and_eq_true, Bool.or_eq_true, decide_eq_true_eq, List.length_nil]
        rintro ⟨complete, doubled | many⟩
        · exact absurd (clear complete) (by omega)
        · omega

/-- A row marks every device that matches it by its pair. -/
theorem marks_of_carries (member : item ∈ observed) (carries : Carries u item row) :
    item ∈ (observeRow u rows observed matched row).marks := by
  have stable : item ∈ stableMatches u observed row := mem_stableMatches.mpr ⟨member, carries⟩
  refine observeRow_cases (fun seen => item ∈ seen.marks) ?_ ?_
  · intro other observation _ bound
    cases bound with
    | stable _ found =>
        rw [found] at stable
        exact stable
    | serial _ absent _ _ _ =>
        rw [absent] at stable
        exact absurd stable List.not_mem_nil
  · intro _ _ _ every _
    exact every stable

/-- What a row marks matches it by its pair or by its serial. -/
theorem of_mem_marks (member : item ∈ (observeRow u rows observed matched row).marks) :
    item ∈ observed ∧ (Carries u item row ∨
      cleanedValue u row.serial ≠ "" ∧ cleanedValue u item.serial = cleanedValue u row.serial) := by
  have of_serial : ∀ item ∈ bySerial u observed (cleanedValue u row.serial), item ∈ observed ∧
      (Carries u item row ∨
        cleanedValue u row.serial ≠ "" ∧ cleanedValue u item.serial = cleanedValue u row.serial) := by
    intro item member
    obtain ⟨among, nonempty, same⟩ := mem_bySerial.mp member
    exact ⟨among, Or.inr ⟨nonempty, same⟩⟩
  revert member
  refine observeRow_cases (fun seen => item ∈ seen.marks → item ∈ observed ∧ (Carries u item row ∨
    cleanedValue u row.serial ≠ "" ∧ cleanedValue u item.serial = cleanedValue u row.serial)) ?_ ?_
  · intro other observation _ bound same
    obtain rfl := List.mem_singleton.mp same
    cases bound with
    | stable _ found =>
        have stable : item ∈ stableMatches u observed row := found ▸ List.mem_cons_self ..
        exact (mem_stableMatches.mp stable).imp_right Or.inl
    | serial _ _ _ _ found =>
        have usable : item ∈ usableSerialMatches u observed matched row :=
          found ▸ List.mem_cons_self ..
        exact of_serial item (mem_usable.mp usable).1
  · intro _ _ _ _ only member
    rcases only item member with stable | serial
    · exact (mem_stableMatches.mp stable).imp_right Or.inl
    · exact of_serial item serial

/-- The ids matched before the rows after these. -/
def matchedBy (u : Unicode) (rows : List RegisteredDrive) (observed : List Device)
    (before : List RegisteredDrive) : List Nat :=
  ((observeRows u rows observed [] before).flatMap SeenRow.marks).map Device.id

theorem mem_observeRows {todo : List RegisteredDrive} {seen : SeenRow} :
    seen ∈ observeRows u rows observed matched todo ↔ ∃ before row after,
      todo = before ++ row :: after ∧
        seen = observeRow u rows observed
          (matched ++ ((observeRows u rows observed matched before).flatMap SeenRow.marks).map
            Device.id) row := by
  induction todo generalizing matched with
  | nil => simp [observeRows]
  | cons first rest ih =>
      rw [observeRows, List.mem_cons, ih]
      constructor
      · rintro (rfl | ⟨before, row, after, rfl, rfl⟩)
        · exact ⟨[], first, rest, rfl, by simp [observeRows]⟩
        · exact ⟨first :: before, row, after, rfl, by simp [observeRows]⟩
      · rintro ⟨before, row, after, split, rfl⟩
        cases before with
        | nil =>
            obtain ⟨rfl, rfl⟩ := List.cons.inj split
            exact Or.inl (by simp [observeRows])
        | cons _ before =>
            obtain ⟨rfl, rfl⟩ := List.cons.inj split
            exact Or.inr ⟨before, row, after, rfl, by simp [observeRows]⟩

/-- Every entry is that of a row, after the rows before it. -/
theorem mem_pass {todo : List RegisteredDrive} {seen : SeenRow} :
    seen ∈ observeRows u rows observed [] todo ↔ ∃ before row after,
      todo = before ++ row :: after ∧
        seen = observeRow u rows observed (matchedBy u rows observed before) row := by
  rw [mem_observeRows]
  simp only [List.nil_append, matchedBy]

theorem mem_matchedBy {before : List RegisteredDrive} {id : Nat} :
    id ∈ matchedBy u rows observed before ↔ ∃ first row rest item, before = first ++ row :: rest ∧
      item ∈ (observeRow u rows observed (matchedBy u rows observed first) row).marks ∧
        item.id = id := by
  simp only [matchedBy, List.mem_map, List.mem_flatMap]
  constructor
  · rintro ⟨item, ⟨seen, member, marked⟩, rfl⟩
    obtain ⟨first, row, rest, split, rfl⟩ := mem_pass.mp member
    exact ⟨first, row, rest, item, split, marked, rfl⟩
  · rintro ⟨first, row, rest, item, split, marked, rfl⟩
    exact ⟨item, ⟨_, mem_pass.mpr ⟨first, row, rest, split, rfl⟩, marked⟩, rfl⟩

theorem matched_of_carries {before : List RegisteredDrive} (listed : row ∈ before)
    (member : item ∈ observed) (carries : Carries u item row) :
    item.id ∈ matchedBy u rows observed before := by
  obtain ⟨first, rest, rfl⟩ := List.append_of_mem listed
  exact mem_matchedBy.mpr ⟨first, row, rest, item, rfl, marks_of_carries member carries, rfl⟩

end Pass

section Answer

variable {u : Unicode} {inventory : Inventory}

namespace Inventory

/-- The rows in the order of the pass. -/
def ordered (inventory : Inventory) : List RegisteredDrive :=
  sortBy RegisteredDrive.driveLabel inventory.rows

theorem mem_ordered {row : RegisteredDrive} : row ∈ inventory.ordered ↔ row ∈ inventory.rows :=
  mem_sortBy

theorem row_eq {row other : RegisteredDrive} (member : row ∈ inventory.rows)
    (member' : other ∈ inventory.rows) (same : row.driveLabel = other.driveLabel) : row = other :=
  List.inj_on_of_nodup_map inventory.labels member member' same

theorem item_eq {item other : Device} (member : item ∈ inventory.observed)
    (member' : other ∈ inventory.observed) (same : item.id = other.id) : item = other :=
  List.inj_on_of_nodup_map inventory.copies member member' same

theorem ordered_lt (inventory : Inventory) :
    inventory.ordered.Pairwise fun row other => row.driveLabel < other.driveLabel := by
  have distinct : (inventory.ordered.map RegisteredDrive.driveLabel).Nodup :=
    ((sortBy_perm _ _).map _).nodup_iff.mpr inventory.labels
  refine ((pairwise_sortBy RegisteredDrive.driveLabel inventory.rows).and
    (List.pairwise_map.mp distinct)).imp ?_
  exact fun both => lt_of_le_of_ne both.1 both.2

/-- The rows before a row in the pass are those with smaller labels. -/
theorem mem_before {before after : List RegisteredDrive} {row other : RegisteredDrive}
    (split : inventory.ordered = before ++ row :: after) :
    other ∈ before ↔ other ∈ inventory.rows ∧ other.driveLabel < row.driveLabel := by
  have sorted := inventory.ordered_lt
  rw [split, List.pairwise_append, List.pairwise_cons] at sorted
  obtain ⟨_, ⟨later, _⟩, earlier⟩ := sorted
  constructor
  · intro member
    refine ⟨mem_ordered.mp ?_, earlier other member row (List.mem_cons_self ..)⟩
    rw [split]
    exact List.mem_append_left _ member
  · rintro ⟨member, less⟩
    have listed := mem_ordered.mpr member
    rw [split, List.mem_append, List.mem_cons] at listed
    rcases listed with found | rfl | behind
    · exact found
    · exact absurd less (lt_irrefl _)
    · exact absurd less (not_lt.mpr (later other behind).le)

end Inventory

theorem mem_registered {entry : ObservedDrive} :
    entry ∈ (observeRegistered u inventory).registered ↔ ∃ before row after,
      inventory.ordered = before ++ row :: after ∧
        entry = (observeRow u inventory.rows inventory.observed
          (matchedBy u inventory.rows inventory.observed before) row).entry := by
  rw [observeRegistered, List.mem_map]
  constructor
  · rintro ⟨seen, member, rfl⟩
    obtain ⟨before, row, after, split, rfl⟩ := mem_pass.mp member
    exact ⟨before, row, after, split, rfl⟩
  · rintro ⟨before, row, after, split, rfl⟩
    exact ⟨_, mem_pass.mpr ⟨before, row, after, split, rfl⟩, rfl⟩

/-- Every bound device is bound by a row, after the rows with smaller labels. -/
theorem bound_of_registered {entry : ObservedDrive} {item : Device}
    (member : entry ∈ (observeRegistered u inventory).registered)
    (device : entry.device = some item) : ∃ before after,
      inventory.ordered = before ++ entry.drive :: after ∧
        Bound u inventory.rows inventory.observed
          (matchedBy u inventory.rows inventory.observed before) entry.drive item
          entry.observation := by
  obtain ⟨before, row, after, split, rfl⟩ := mem_registered.mp member
  rw [observeRow_drive]
  exact ⟨before, after, split, (bound_of_device device).1⟩

/-- A bound device is not listed as unregistered. -/
theorem bound_not_unregistered {entry : ObservedDrive} {item : Device}
    (member : entry ∈ (observeRegistered u inventory).registered)
    (device : entry.device = some item) :
    ∀ listed ∈ (observeRegistered u inventory).unregistered, listed.device ≠ item := by
  rintro listed among rfl
  obtain ⟨before, row, after, split, rfl⟩ := mem_registered.mp member
  obtain ⟨other, free, rfl⟩ := List.mem_map.mp among
  have unmatched := (List.mem_filter.mp free).2
  rw [decide_eq_true_eq] at unmatched
  apply unmatched
  exact mem_matchedBy.mpr ⟨before, row, after, other, split, (bound_of_device device).2, rfl⟩

/-- The answer for a row up to the order of the devices. -/
structure SeenRow.Same (one other : SeenRow) : Prop where
  entry : one.entry = other.entry
  marks : one.marks.Perm other.marks
  conflicts : one.conflicts.Perm other.conflicts

theorem SeenRow.same_of_perm {entry : ObservedDrive} {marks marks' conflicts conflicts' : List Device}
    (perm : marks.Perm marks') (perm' : conflicts.Perm conflicts') :
    (SeenRow.mk entry marks conflicts).Same ⟨entry, marks', conflicts'⟩ :=
  ⟨rfl, perm, perm'⟩

theorem serialFallback_perm {row : RegisteredDrive} {serial : String} {usable usable' : List Device}
    (perm : usable.Perm usable') :
    (serialFallback row serial usable).Same (serialFallback row serial usable') := by
  match usable with
  | [] =>
      rw [perm.symm.eq_nil]
      exact SeenRow.same_of_perm (.refl _) (.refl _)
  | [device] =>
      rw [List.perm_singleton.mp perm.symm]
      exact SeenRow.same_of_perm (.refl _) (.refl _)
  | one :: two :: more =>
      have lengths := perm.length_eq
      match usable' with
      | [] | [_] => simp at lengths
      | _ :: _ :: _ => exact SeenRow.same_of_perm perm (.refl _)

theorem observeRow_perm {rows rows' : List RegisteredDrive} {observed observed' : List Device}
    (permRows : rows.Perm rows') (permObserved : observed.Perm observed') {matched matched' : List Nat}
    (same : ∀ id, id ∈ matched ↔ id ∈ matched') (row : RegisteredDrive) :
    (observeRow u rows observed matched row).Same (observeRow u rows' observed' matched' row) := by
  have pairs : registeredPairs u rows (row.pair u) = registeredPairs u rows' (row.pair u) :=
    (permRows.filter _).length_eq
  have serials : registeredSerials u rows (cleanedValue u row.serial) =
      registeredSerials u rows' (cleanedValue u row.serial) := (permRows.filter _).length_eq
  have serialMatches : (bySerial u observed (cleanedValue u row.serial)).Perm
      (bySerial u observed' (cleanedValue u row.serial)) := permObserved.filter _
  have stable : (stableMatches u observed row).Perm (stableMatches u observed' row) := by
    unfold stableMatches
    split
    · exact permObserved.filter _
    · exact List.Perm.refl _
  have conflicting : (conflictingMatches u observed row).Perm (conflictingMatches u observed' row) := by
    unfold conflictingMatches
    split
    · exact serialMatches.filter _
    · exact List.Perm.refl _
  have narrowed : usableSerialMatches u observed matched row =
      usableSerialMatches u observed matched' row :=
    List.filter_congr fun item _ => by simp only [same item.id]
  have usable : (usableSerialMatches u observed matched row).Perm
      (usableSerialMatches u observed' matched' row) := by
    rw [narrowed]
    exact serialMatches.filter _
  have ambiguity : ambiguousPair u rows observed row = ambiguousPair u rows' observed' row := by
    rw [ambiguousPair, ambiguousPair, pairs, stable.length_eq]
  cases ambiguous : ambiguousPair u rows' observed' row with
  | true =>
      rw [observeRow, observeRow, ambiguity, ambiguous, if_pos rfl, if_pos rfl]
      exact SeenRow.same_of_perm stable (.refl _)
  | false =>
  rw [observeRow, observeRow, ambiguity, ambiguous, if_neg Bool.false_ne_true,
    if_neg Bool.false_ne_true]
  cases found : stableMatches u observed' row with
  | cons device rest =>
      have member : device ∈ stableMatches u observed' row := found ▸ List.mem_cons_self ..
      have complete := (mem_stableMatches.mp member).2.1
      simp only [ambiguousPair, complete, found, List.length_cons, Bool.true_and, Bool.or_eq_false_iff,
        decide_eq_false_iff_not] at ambiguous
      obtain rfl : rest = [] := List.length_eq_zero_iff.mp (by omega)
      rw [found] at stable
      rw [List.perm_singleton.mp stable]
      exact SeenRow.same_of_perm (.refl _) (.refl _)
  | nil =>
      rw [found] at stable
      rw [stable.eq_nil, serials]
      by_cases free : conflictingMatches u observed' row = []
      case neg =>
        have conflicts : conflictingMatches u observed row ≠ [] := by
          intro empty
          rw [empty] at conflicting
          exact free conflicting.symm.eq_nil
        simp only [ne_eq, free, conflicts, not_false_eq_true, if_true]
        exact SeenRow.same_of_perm (.refl _) conflicting
      have free' : conflictingMatches u observed row = [] := by
        rw [free] at conflicting
        exact conflicting.eq_nil
      simp only [ne_eq, free, free', not_true_eq_false, if_false]
      by_cases doubled : 1 < registeredSerials u rows' (cleanedValue u row.serial)
      · simp only [doubled, if_true]
        exact SeenRow.same_of_perm serialMatches (.refl _)
      simp only [doubled, if_false]
      exact serialFallback_perm usable

theorem observeRows_perm {rows rows' : List RegisteredDrive} {observed observed' : List Device}
    (permRows : rows.Perm rows') (permObserved : observed.Perm observed') {matched matched' : List Nat}
    (same : ∀ id, id ∈ matched ↔ id ∈ matched') (todo : List RegisteredDrive) :
    List.Forall₂ SeenRow.Same (observeRows u rows observed matched todo)
      (observeRows u rows' observed' matched' todo) := by
  induction todo generalizing matched matched' with
  | nil => exact .nil
  | cons row rest ih =>
      have here := observeRow_perm (u := u) permRows permObserved same row
      refine .cons here (ih fun id => ?_)
      rw [List.mem_append, List.mem_append, same id, (here.marks.map Device.id).mem_iff]

theorem conflictLabels_perm {seen seen' : List SeenRow} (same : List.Forall₂ SeenRow.Same seen seen')
    (item : Device) : conflictLabels seen item = conflictLabels seen' item := by
  rw [conflictLabels, conflictLabels]
  congr 1
  induction same with
  | nil => rfl
  | cons here _ ih =>
      have ids := (here.conflicts.map Device.id).mem_iff (a := item.id)
      rw [List.filter_cons, List.filter_cons]
      simp only [ids]
      split
      · rw [List.map_cons, List.map_cons, ih, here.entry]
      · exact ih

theorem entries_perm {seen seen' : List SeenRow} (same : List.Forall₂ SeenRow.Same seen seen') :
    seen.map SeenRow.entry = seen'.map SeenRow.entry := by
  induction same with
  | nil => rfl
  | cons here _ ih => rw [List.map_cons, List.map_cons, here.entry, ih]

theorem marks_perm {seen seen' : List SeenRow} (same : List.Forall₂ SeenRow.Same seen seen') :
    (seen.flatMap SeenRow.marks).Perm (seen'.flatMap SeenRow.marks) := by
  induction same with
  | nil => exact .refl _
  | cons here _ ih =>
      rw [List.flatMap_cons, List.flatMap_cons]
      exact here.marks.append ih

/-- The answer does not depend on the order of the rows, and on the order of the devices only in the
    order of the unregistered ones. -/
theorem observeRegistered_perm {other : Inventory} (permRows : inventory.rows.Perm other.rows)
    (permObserved : inventory.observed.Perm other.observed) :
    (observeRegistered u inventory).registered = (observeRegistered u other).registered ∧
      (observeRegistered u inventory).unregistered.Perm (observeRegistered u other).unregistered := by
  have rows : sortBy RegisteredDrive.driveLabel inventory.rows =
      sortBy RegisteredDrive.driveLabel other.rows :=
    sortBy_eq_of_perm permRows fun _ member _ member' => Inventory.row_eq member member'
  have seen : List.Forall₂ SeenRow.Same
      (observeRows u inventory.rows inventory.observed []
        (sortBy RegisteredDrive.driveLabel inventory.rows))
      (observeRows u other.rows other.observed []
        (sortBy RegisteredDrive.driveLabel inventory.rows)) :=
    observeRows_perm permRows permObserved (fun _ => Iff.rfl) _
  rw [observeRegistered, observeRegistered, ← rows]
  refine ⟨entries_perm seen, ?_⟩
  have matched : ∀ item : Device, item.id ∈ ((observeRows u inventory.rows inventory.observed []
        (sortBy RegisteredDrive.driveLabel inventory.rows)).flatMap SeenRow.marks).map Device.id ↔
      item.id ∈ ((observeRows u other.rows other.observed []
        (sortBy RegisteredDrive.driveLabel inventory.rows)).flatMap SeenRow.marks).map Device.id :=
    fun _ => ((marks_perm seen).map Device.id).mem_iff
  simp only [matched, conflictLabels_perm seen]
  exact (permObserved.filter _).map _

/-- A device is bound to a label. -/
def Binds (answer : ObservedDrives) (item : Device) (label : String) : Prop :=
  ∃ entry ∈ answer.registered, entry.device = some item ∧ entry.drive.driveLabel = label

/-- What is expected of the answer. -/
structure MapsCleanly (u : Unicode) (inventory : Inventory) : Prop where
  once : ∀ item label label', Binds (observeRegistered u inventory) item label →
    Binds (observeRegistered u inventory) item label' → label = label'
  apart : ∀ item label, Binds (observeRegistered u inventory) item label →
    ∀ listed ∈ (observeRegistered u inventory).unregistered, listed.device ≠ item
  anyOrder : ∀ other : Inventory, inventory.rows.Perm other.rows →
    inventory.observed.Perm other.observed →
      (observeRegistered u inventory).registered = (observeRegistered u other).registered ∧
      (observeRegistered u inventory).unregistered.Perm (observeRegistered u other).unregistered
  pairFirst : ∀ entry ∈ (observeRegistered u inventory).registered,
    entry.observation = .attachedExactSerial → ∀ item, entry.device = some item →
      ∀ row ∈ inventory.rows, row ≠ entry.drive → ¬Carries u item row

/-- No device has the complete pairs of two rows that are both unique. -/
def OneUniquePair (u : Unicode) (inventory : Inventory) : Prop :=
  ∀ row ∈ inventory.rows, ∀ other ∈ inventory.rows, ∀ item,
    registeredPairs u inventory.rows (row.pair u) ≤ 1 →
    registeredPairs u inventory.rows (other.pair u) ≤ 1 →
    stableMatches u inventory.observed row = [item] →
    stableMatches u inventory.observed other = [item] → row = other

/-- Of a row without a complete pair and with a serial of its own: a device that is alone in having that
    serial, up to the devices with complete pairs of rows with smaller labels, has no complete pair of
    any row. -/
def NoPairBehindSerial (u : Unicode) (inventory : Inventory) : Prop :=
  ∀ row ∈ inventory.rows, completePair (row.pair u) = false →
    registeredSerials u inventory.rows (cleanedValue u row.serial) ≤ 1 → ∀ item,
    (bySerial u inventory.observed (cleanedValue u row.serial)).filter (fun found =>
        ∀ other ∈ inventory.rows, other.driveLabel < row.driveLabel → ¬Carries u found other) =
      [item] →
    ∀ other ∈ inventory.rows, ¬Carries u item other

theorem eq_of_single_serial {row other : RegisteredDrive} {rows : List RegisteredDrive}
    {serial : String} (single : registeredSerials u rows serial ≤ 1) (nonempty : serial ≠ "")
    (member : row ∈ rows) (member' : other ∈ rows) (has : cleanedValue u row.serial = serial)
    (has' : cleanedValue u other.serial = serial) : row = other := by
  have among : ∀ row ∈ rows, cleanedValue u row.serial = serial →
      row ∈ rows.filter fun row => serial != "" && cleanedValue u row.serial == serial := by
    intro row member has
    rw [List.mem_filter, has]
    simp [member, nonempty]
  have one := among row member has
  have two := among other member' has'
  rw [registeredSerials] at single
  match found : rows.filter fun row => serial != "" && cleanedValue u row.serial == serial with
  | [] =>
      rw [found] at one
      cases one
  | [only] =>
      rw [found] at one two
      rw [List.mem_singleton.mp one, List.mem_singleton.mp two]
  | _ :: _ :: _ =>
      rw [found] at single
      simp at single

/-- What a row without a complete pair may fall back to, when it has its serial for itself. -/
theorem usable_of_incomplete {before after : List RegisteredDrive} {row : RegisteredDrive}
    (split : inventory.ordered = before ++ row :: after)
    (incomplete : completePair (row.pair u) = false)
    (single : registeredSerials u inventory.rows (cleanedValue u row.serial) ≤ 1) :
    usableSerialMatches u inventory.observed
        (matchedBy u inventory.rows inventory.observed before) row =
      (bySerial u inventory.observed (cleanedValue u row.serial)).filter fun found =>
        ∀ other ∈ inventory.rows, other.driveLabel < row.driveLabel → ¬Carries u found other := by
  refine List.filter_congr fun item among => ?_
  obtain ⟨member, nonempty, same⟩ := mem_bySerial.mp among
  have listed : row ∈ inventory.rows := by
    rw [← Inventory.mem_ordered, split]
    simp
  have claimed : item.id ∈ matchedBy u inventory.rows inventory.observed before ↔
      ∃ other ∈ before, Carries u item other := by
    constructor
    · intro matched
      obtain ⟨first, other, rest, marked, rfl, marks, sameId⟩ := mem_matchedBy.mp matched
      obtain ⟨observed, carries | ⟨_, serial⟩⟩ := of_mem_marks marks
      · rw [← Inventory.item_eq observed member sameId]
        exact ⟨other, by simp, carries⟩
      · -- Another row with the serial of the device would share that of the row.
        obtain ⟨registered, less⟩ := (Inventory.mem_before split).mp
          (show other ∈ first ++ other :: rest by simp)
        rw [Inventory.item_eq observed member sameId, same] at serial
        have equal := eq_of_single_serial single nonempty listed registered rfl serial.symm
        rw [equal] at less
        exact absurd less (lt_irrefl _)
    · rintro ⟨other, earlier, carries⟩
      exact matched_of_carries earlier member carries
  rw [incomplete, Bool.not_false, Bool.true_or, Bool.and_true, decide_eq_decide, claimed]
  simp only [Inventory.mem_before split, not_exists, not_and, and_imp]

/-- A row is bound as its place in the pass says. -/
theorem registered_of_bound {before after : List RegisteredDrive} {row : RegisteredDrive}
    {item : Device} {observation : DriveObservation}
    (split : inventory.ordered = before ++ row :: after)
    (bound : Bound u inventory.rows inventory.observed
      (matchedBy u inventory.rows inventory.observed before) row item observation) :
    ∃ entry ∈ (observeRegistered u inventory).registered,
      entry.drive = row ∧ entry.device = some item ∧ entry.observation = observation :=
  ⟨_, mem_registered.mpr ⟨before, row, after, split, rfl⟩, observeRow_drive, bound.device⟩

theorem registered_drive {entry : ObservedDrive}
    (member : entry ∈ (observeRegistered u inventory).registered) : entry.drive ∈ inventory.rows := by
  obtain ⟨before, row, after, split, rfl⟩ := mem_registered.mp member
  rw [observeRow_drive, ← Inventory.mem_ordered, split]
  simp

theorem oneUniquePair_of_clean (clean : MapsCleanly u inventory) : OneUniquePair u inventory := by
  intro row member other member' item single single' found found'
  have binds : ∀ row ∈ inventory.rows, registeredPairs u inventory.rows (row.pair u) ≤ 1 →
      stableMatches u inventory.observed row = [item] →
      Binds (observeRegistered u inventory) item row.driveLabel := by
    intro row member single found
    obtain ⟨before, after, split⟩ := List.append_of_mem (Inventory.mem_ordered.mpr member)
    obtain ⟨entry, listed, drive, device, _⟩ := registered_of_bound split (.stable single found)
    exact ⟨entry, listed, device, congrArg _ drive⟩
  exact Inventory.row_eq member member'
    (clean.once item _ _ (binds row member single found) (binds other member' single' found'))

theorem noPairBehindSerial_of_clean (clean : MapsCleanly u inventory) :
    NoPairBehindSerial u inventory := by
  intro row member incomplete single item found other member' carries
  obtain ⟨before, after, split⟩ := List.append_of_mem (Inventory.mem_ordered.mpr member)
  have absent : stableMatches u inventory.observed row = [] := by
    simp [stableMatches, incomplete]
  have free : conflictingMatches u inventory.observed row = [] := by
    simp [conflictingMatches, incomplete]
  rw [← usable_of_incomplete split incomplete single] at found
  obtain ⟨entry, listed, drive, device, observation⟩ :=
    registered_of_bound split (.serial (by simp [incomplete]) absent free single found)
  refine clean.pairFirst entry listed observation item device other member' ?_ carries
  rintro rfl
  rw [← drive, carries.1] at incomplete
  cases incomplete

/-- Nothing matches by its complete pair a device that is bound by its serial. -/
theorem not_carries_of_serial (behind : NoPairBehindSerial u inventory) {entry : ObservedDrive}
    {item : Device} (member : entry ∈ (observeRegistered u inventory).registered)
    (device : entry.device = some item) (observation : entry.observation = .attachedExactSerial)
    {row : RegisteredDrive} (listed : row ∈ inventory.rows) : ¬Carries u item row := by
  obtain ⟨before, after, split, bound⟩ := bound_of_registered member device
  rw [observation] at bound
  cases bound with
  | serial _ _ _ single found =>
      cases incomplete : completePair (entry.drive.pair u) with
      | true =>
          have usable : item ∈ usableSerialMatches u inventory.observed
              (matchedBy u inventory.rows inventory.observed before) entry.drive :=
            found ▸ List.mem_cons_self ..
          rintro ⟨_, among⟩
          rw [(mem_usable.mp usable).2.2 incomplete] at among
          exact absurd among List.not_mem_nil
      | false =>
          rw [usable_of_incomplete split incomplete single] at found
          exact behind entry.drive (registered_drive member) incomplete single item found row listed

theorem bound_once (pairs : OneUniquePair u inventory) (behind : NoPairBehindSerial u inventory)
    {entry other : ObservedDrive} {item : Device}
    (member : entry ∈ (observeRegistered u inventory).registered)
    (member' : other ∈ (observeRegistered u inventory).registered)
    (device : entry.device = some item) (device' : other.device = some item) :
    entry.drive = other.drive := by
  have carried : ∀ {row : RegisteredDrive}, stableMatches u inventory.observed row = [item] →
      Carries u item row := by
    intro row found
    have listed : item ∈ stableMatches u inventory.observed row := found ▸ List.mem_cons_self ..
    exact (mem_stableMatches.mp listed).2
  obtain ⟨before, after, split, bound⟩ := bound_of_registered member device
  obtain ⟨before', after', split', bound'⟩ := bound_of_registered member' device'
  have listed := registered_drive member
  have listed' := registered_drive member'
  cases here : entry.observation <;> cases there : other.observation <;>
    rw [here] at bound <;> rw [there] at bound' <;> cases bound <;> cases bound'
  case stable.stable single found single' found' =>
    exact pairs _ listed _ listed' item single single' found found'
  case stable.serial _ found _ _ _ _ _ =>
    exact absurd (carried found) (not_carries_of_serial behind member' device' there listed)
  case serial.stable _ _ _ _ _ _ found =>
    exact absurd (carried found) (not_carries_of_serial behind member device here listed')
  case serial.serial _ _ _ single found _ _ _ _ found' =>
    have usable : item ∈ usableSerialMatches u inventory.observed
        (matchedBy u inventory.rows inventory.observed before) entry.drive :=
      found ▸ List.mem_cons_self ..
    have usable' : item ∈ usableSerialMatches u inventory.observed
        (matchedBy u inventory.rows inventory.observed before') other.drive :=
      found' ▸ List.mem_cons_self ..
    obtain ⟨_, nonempty, serial⟩ := mem_bySerial.mp (mem_usable.mp usable).1
    obtain ⟨_, _, serial'⟩ := mem_bySerial.mp (mem_usable.mp usable').1
    exact eq_of_single_serial single nonempty listed listed' rfl (serial'.symm.trans serial)

/-- An inventory is mapped cleanly exactly when no device has two unique pairs of registered drives and
    no row without a pair takes a device by its serial ahead of the row with the pair of that device. -/
theorem mapsCleanly_iff (u : Unicode) (inventory : Inventory) :
    MapsCleanly u inventory ↔ OneUniquePair u inventory ∧ NoPairBehindSerial u inventory := by
  constructor
  · exact fun clean => ⟨oneUniquePair_of_clean clean, noPairBehindSerial_of_clean clean⟩
  · rintro ⟨pairs, behind⟩
    refine ⟨?_, ?_, ?_, ?_⟩
    · rintro item _ _ ⟨entry, member, device, rfl⟩ ⟨other, member', device', rfl⟩
      rw [bound_once pairs behind member member' device device']
    · rintro item _ ⟨entry, member, device, _⟩
      exact bound_not_unregistered member device
    · intro other permRows permObserved
      exact observeRegistered_perm permRows permObserved
    · intro entry member observation item device row listed _
      exact not_carries_of_serial behind member device observation listed

def serialRow : RegisteredDrive where
  driveLabel := "a"
  lifecycle := "active"
  eligibility := "enabled"
  identityEpoch := 1
  identityFingerprint := none
  serial := some "S"
  hwModel := none
  capacityBytes := none
  lastSeen := none
  fsUuid := none
  annexUuid := none

def pairRow : RegisteredDrive :=
  { serialRow with driveLabel := "b", serial := none, fsUuid := some "F", annexUuid := some "X" }

def bridgedDevice : Device where
  id := 0
  serial := some "S"
  storageIdentities := [⟨some "F", some "X"⟩]

def bridgedInventory : Inventory where
  rows := [serialRow, pairRow]
  observed := [bridgedDevice]
  labels := by decide
  copies := by decide

/-- A device with a bridge serial is first bound by that serial, and then by its pair. -/
theorem bridged_not_clean : ¬MapsCleanly asciiUnicode bridgedInventory ∧
    Binds (observeRegistered asciiUnicode bridgedInventory) bridgedDevice "a" ∧
    Binds (observeRegistered asciiUnicode bridgedInventory) bridgedDevice "b" := by
  have ordered : bridgedInventory.ordered = [serialRow, pairRow] :=
    sortBy_of_pairwise (by decide +kernel)
  have answer : (observeRegistered asciiUnicode bridgedInventory).registered =
      [⟨serialRow, .attachedExactSerial, some bridgedDevice, none⟩,
        ⟨pairRow, .attachedExactStorageIdentity, some bridgedDevice,
          some .observedWithoutRegisteredSerial⟩] := by
    rw [observeRegistered, ← Inventory.ordered, ordered]
    decide +kernel
  have first : Binds (observeRegistered asciiUnicode bridgedInventory) bridgedDevice "a" := by
    rw [Binds, answer]
    exact ⟨_, List.mem_cons_self .., rfl, rfl⟩
  have second : Binds (observeRegistered asciiUnicode bridgedInventory) bridgedDevice "b" := by
    rw [Binds, answer]
    exact ⟨_, List.mem_cons_of_mem _ (List.mem_cons_self ..), rfl, rfl⟩
  refine ⟨fun clean => ?_, first, second⟩
  exact absurd (clean.once bridgedDevice "a" "b" first second) (by decide)

end Answer

end Modelark.Admission
