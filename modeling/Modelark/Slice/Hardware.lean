import Modelark.Slice.BlockInventory
import Modelark.Slice.Plans

/-!
# Eligibility of a destination

Before a delivery the observer reads the block devices, the mounts, the active swaps and the protected
system paths, and refuses a destination whose disk holds any of them or a registered archive.
-/

namespace Modelark.Slice.Hardware

open Library Modelark.Archive Proposal

/-- A row of the mount table. -/
structure Mount where
  mountId : Nat
  majorMinor : String
  root : String
  path : String
  options : List String
  fsType : String
  source : String
  deriving Repr, DecidableEq

/-- A row of the swap table: a file, or a partition. -/
structure Swap where
  name : String
  isFile : Bool
  deriving Repr, DecidableEq

structure ProtectedTarget where
  requested : String
  path : String
  majorMinor : String
  mountId : Nat
  inode : Nat
  deriving Repr, DecidableEq

/-- One role of the protected snapshot: a directory, or a swap file, and where it is. -/
structure Role where
  directory : Bool
  requested : String
  target : Option ProtectedTarget
  deriving Repr, DecidableEq

/-- What the catalog says of a registered archive drive. -/
structure RegisteredArchive where
  fsUuid : Option String
  serial : Option String
  deriving Repr, DecidableEq

/-- What the observer can read of the host at one time. The payload has its keys in order. -/
structure Host where
  inventory : Json
  mounts : List Mount
  swaps : List Swap
  /-- `resolve_protected(path, directory, optional)`. -/
  resolver : String → Bool → Bool → Except Failure (Option ProtectedTarget)
  /-- Device and inode of the block backing of a device number, if it exists. -/
  backing : String → Option (Nat × Nat)

/-- The retained descriptor of the destination. -/
structure Attachment where
  path : String
  mountId : Nat
  /-- `major:minor` of the device of the open directory. -/
  majorMinor : String
  /-- `require_create_access`, the probe of user attributes and `require_no_default_acl`. -/
  createAccess : Except Failure Unit
  blocks : Nat
  fragment : Nat
  freeBlocks : Nat
  nameMax : Nat
  /-- `tree.check()`. -/
  check : Except Failure Unit

structure DeviceEvidence where
  deviceId : String
  fsUuid : String
  serial : Option String
  totalBytes : Nat
  mountPath : String
  mountId : Nat
  fsType : String
  availableBytes : Nat
  blockSize : Nat
  nameMax : Nat
  deviceSize : Nat
  profile : String
  deriving Repr, DecidableEq

def unproven (detail : String) : Failure :=
  refuse "DESTINATION_UNPROVEN" detail

/-- `path.startswith(root.rstrip("/") + "/")`. -/
def beneath (root path : String) : Bool :=
  ((root.toList.reverse.dropWhile (· == '/')).reverse ++ ['/']).isPrefixOf path.toList

def systemPaths : List String :=
  ["/", "/boot", "/home", "/var", "/usr", "/etc", "/bin", "/sbin", "/lib", "/lib64"]

namespace Host

variable (host : Host)

/-- Requested path, whether a directory, and whether it may be missing. -/
def requests : List (String × Bool × Bool) :=
  systemPaths.map (fun path => (path, true, path != "/")) ++
    (host.swaps.filter Swap.isFile).map fun swap => (swap.name, false, false)

/-- The mount of a protected target is in the mount table and covers its path. -/
def targetMounted (mounts : List Mount) (target : ProtectedTarget) : Bool :=
  match mounts.filter (·.mountId == target.mountId) with
  | [mount] => mount.majorMinor == target.majorMinor &&
      (target.path == mount.path || beneath mount.path target.path)
  | _ => false

def role (mounts : List Mount) (request : String × Bool × Bool) : Except Failure Role := do
  match ← host.resolver request.1 request.2.1 request.2.2 with
  | none => do
      require request.2.2 (unproven "required protected role is unavailable")
      return ⟨request.2.1, request.1, none⟩
  | some found => do
      let target := { found with requested := request.1 }
      require (targetMounted mounts target)
        (unproven "protected descriptor differs from mount inventory")
      return ⟨request.2.1, request.1, some target⟩

/-- `_protected_snapshot(mounts, swaps)`. -/
def protectedSnapshot : Except Failure (List Role) :=
  host.requests.mapM (host.role host.mounts)

end Host

section Observing

variable (u : Unicode) (casefold : String → String) (sha : Digester)

/-- `inventory.disk(key)` with the refusals of a transfer. -/
def diskOf (inventory : BlockInventory) (key : String) (direct : Bool) : Except Failure String :=
  (inventory.disk key direct none).mapError unproven

def covers (writable : Bool) (target : String) (mount : Mount) : Bool :=
  mount.path == target || (!writable && beneath mount.path target)

def longest (mounts : List Mount) : Nat :=
  mounts.foldr (fun mount most => max mount.path.length most) 0

/-- The one mount that covers the destination. -/
def coveringMount (writable : Bool) (mounts : List Mount) (target : String) : Except Failure Mount :=
  let matching := mounts.filter (covers writable target)
  let matching := if writable then matching
    else matching.filter (·.path.length == longest matching)
  match matching with
  | [mount] => .ok mount
  | _ => .error (unproven
      "path must have a unique covering mount; writable paths require its exact root")

/-- The mount is the one of the descriptor, whole, alone and without nested mounts. -/
def admitMount (inventory : BlockInventory) (mounts : List Mount) (attachment : Attachment)
    (host : Host) (mount : Mount) : Except Failure (Nat × Nat) := do
  require (mount.root == "/" && mount.mountId == attachment.mountId &&
    mount.majorMinor == attachment.majorMinor)
    (unproven "mount inventory differs from retained descriptor")
  require (inventory.node? mount.majorMinor).isSome
    (refuse "WAITING_DESTINATION" "mounted block backing is absent")
  let backing ← (host.backing mount.majorMinor).elim
    (.error (refuse "WAITING_DESTINATION" "mounted block backing disappeared")) .ok
  require ((mounts.filter (·.majorMinor == mount.majorMinor)).length == 1)
    (unproven "filesystem has multiple mount aliases")
  require (mounts.all fun other => !beneath mount.path other.path || other == mount)
    (unproven "nested mounts within delivery filesystem")
  return backing

/-- `_integer(value)`: a positive number, or its plain decimal text. -/
def positive : Json → Option Nat
  | .int n => if 0 < n then some n.toNat else none
  | .str text => text.toNat?.filter fun n => 0 < n && toString n == text
  | _ => none

/-- `value in (False, 0, "0")`. -/
def notReadOnly : Json → Bool
  | .bool false => true
  | .int 0 => true
  | .str text => text == "0"
  | _ => false

/-- The identity of the filesystem and of its disk. -/
structure Identity where
  uuid : String
  serial : Option String
  wwn : Option String
  deviceSize : Nat
  diskSize : Nat

def identityOf (node disk : Device) : Except Failure Identity :=
  let serial := nonempty u (disk.get "serial")
  let wwn := nonempty u (disk.get "wwn")
  match nonempty u (node.get "uuid"), serial.or wwn, positive (node.get "size"),
      positive (disk.get "size") with
  | some uuid, some _, some deviceSize, some diskSize => do
      require (deviceSize ≤ diskSize)
        (unproven "stable filesystem and parent disk identity/capacity required")
      return ⟨uuid, serial, wwn, deviceSize, diskSize⟩
  | _, _, _, _ => .error (unproven "stable filesystem and parent disk identity/capacity required")

/-- `_writable_root(tree, mount)`. -/
def writableRoot (attachment : Attachment) (mount : Mount) : Except Failure Unit := do
  require ("rw" ∈ mount.options && "ro" ∉ mount.options && "nouser_xattr" ∉ mount.options)
    (refuse "DESTINATION_NOT_WRITABLE" "writable mount and user xattrs required")
  require (mount.options.all fun option =>
    !(option.toList.tails.any ("quota".toList.isPrefixOf ·) || starts option "jqfmt="))
    (refuse "FILESYSTEM_UNSUPPORTED" "quota-enabled mounts are unsupported")
  attachment.createAccess

/-- A writable destination is a direct USB disk, and everything is writable. -/
def admitWritable (attachment : Attachment) (mount : Mount) (node disk : Device) : Except Failure Unit := do
  require (Device.isText (disk.get "tran") "usb" && "rw" ∈ mount.options && "ro" ∉ mount.options &&
    notReadOnly (node.get "ro") && notReadOnly (disk.get "ro"))
    (unproven "destination must be a writable direct USB disk")
  writableRoot attachment mount

def admitFilesystem (writable : Bool) (mount : Mount) (node : Device) : Except Failure Unit :=
  require (Device.isText (node.get "fstype") mount.fsType &&
      (mount.fsType == "ext4" || (!writable && mount.fsType == "xfs")))
    (refuse "FILESYSTEM_UNSUPPORTED" "unsupported or inconsistent filesystem")

/-- The disk of a mount below a protected directory, where it is a block mount. -/
def nestedDisk (inventory : BlockInventory) (role : Role) (target : ProtectedTarget) (other : Mount) :
    Except Failure (Option String) :=
  if beneath target.path other.path || beneath role.requested other.path then
    if (inventory.node? other.majorMinor).isSome then (diskOf inventory other.majorMinor false).map some
    else if starts other.source "/dev/" then
      .error (unproven "nested protected block mount has unknown ancestry")
    else .ok none
  else .ok none

/-- The disks of one protected role. -/
def roleDisks (inventory : BlockInventory) (mounts : List Mount) (role : Role) :
    Except Failure (List String) :=
  match role.target with
  | none => .ok []
  | some target =>
      diskOf inventory target.majorMinor false >>= fun own =>
        if role.directory ∧ role.requested ≠ "/" then
          (collect (nestedDisk inventory role target) mounts).map (own :: ·)
        else .ok [own]

/-- The disk of an active swap; that of a file is a protected role. -/
def swapDisk (inventory : BlockInventory) (swap : Swap) : Except Failure (Option String) :=
  if swap.isFile then .ok none
  else
    match inventory.paths[swap.name]? with
    | none => .error (unproven "cannot resolve active swap parent disk")
    | some key => (diskOf inventory key false).map some

/-- The disks that hold the system or a swap. -/
def protectedDisks (inventory : BlockInventory) (mounts : List Mount) (swaps : List Swap)
    (roles : List Role) : Except Failure (List String) := do
  let held ← roles.mapM (roleDisks inventory mounts)
  let swapped ← collect (swapDisk inventory) swaps
  return held.flatten ++ swapped

/-- No partition of the destination's disk is mounted elsewhere. -/
def checkSibling (inventory : BlockInventory) (mount : Mount) (disk : String) (_ : Unit) (other : Mount) :
    Except Failure Unit :=
  match inventory.node? other.majorMinor with
  | none => .ok ()
  | some node =>
      if other.majorMinor = mount.majorMinor then .ok ()
      -- loop mounts are not sibling partitions
      else if Device.isText (node.get "type") "loop" then .ok ()
      else
        diskOf inventory other.majorMinor false >>= fun found =>
          require (found != disk) (unproven "destination disk has another mounted partition")

/-- A device with the filesystem of a registered archive is not on the destination's disk. -/
def checkFilesystem (inventory : BlockInventory) (archiveUuid : Option String) (disk : String) (_ : Unit)
    (entry : String × Device) : Except Failure Unit :=
  match archiveUuid, nonempty u (entry.2.get "uuid") with
  | some registered, some found =>
      if casefold found = casefold registered then
        diskOf inventory entry.1 false >>= fun its =>
          require (its != disk) (unproven "registered archive filesystem or sibling disk is excluded")
      else .ok ()
  | _, _ => .ok ()

def checkArchive (inventory : BlockInventory) (identity : Identity) (disk : String) (_ : Unit)
    (archive : RegisteredArchive) : Except Failure Unit := do
  let archiveUuid := nonempty u (Json.ofText archive.fsUuid)
  let archiveSerial := nonempty u (Json.ofText archive.serial)
  require (archiveUuid.isSome || archiveSerial.isSome)
    (unproven "registered archive lacks comparable physical identity")
  require (archiveSerial.isNone || (archiveSerial != identity.serial && archiveSerial != identity.wwn))
    (unproven "registered archive parent disk is excluded")
  thread (checkFilesystem u casefold inventory archiveUuid disk) () inventory.nodes

/-- What a writable destination must not share its disk with. -/
def admitExclusive (inventory : BlockInventory) (mounts : List Mount) (archives : List RegisteredArchive)
    (mount : Mount) (identity : Identity) (disk : String) : Except Failure Unit := do
  thread (checkSibling inventory mount disk) () mounts
  thread (checkArchive u casefold inventory identity disk) () archives

def deviceId (identity : Identity) : String :=
  match identity.wwn with
  | some wwn => "wwn:" ++ wwn
  | none => "serial:" ++ identity.serial.getD ""

def profileFields (identity : Identity) (mount : Mount) (total blockSize nameMax : Nat) : Json :=
  Json.dict [("version", .str "modelark.linux.direct.v1"), ("device_id", .str (deviceId identity)),
    ("disk_size", .int identity.diskSize), ("device_size", .int identity.deviceSize),
    ("filesystem_id", .str identity.uuid), ("filesystem", .str mount.fsType),
    ("total_bytes", .int total), ("block_size", .int blockSize), ("name_max", .int nameMax)]

def evidenceOf (attachment : Attachment) (mount : Mount) (identity : Identity) :
    Except Failure DeviceEvidence := do
  let total := attachment.blocks * attachment.fragment
  let available := attachment.freeBlocks * attachment.fragment
  require (0 < total && total ≤ identity.deviceSize && available ≤ total && 0 < attachment.fragment &&
    0 < attachment.nameMax) (unproven "filesystem capacity/capability cannot be proven")
  let fields := profileFields identity mount total attachment.fragment attachment.nameMax
  return {
    deviceId := deviceId identity
    fsUuid := identity.uuid
    serial := identity.serial
    totalBytes := total
    mountPath := mount.path
    mountId := mount.mountId
    fsType := mount.fsType
    availableBytes := available
    blockSize := attachment.fragment
    nameMax := attachment.nameMax
    deviceSize := identity.deviceSize
    profile := "linux-direct-v1:" ++ sha.hash fields.dumps }

/-- Nothing changed while the destination was observed. -/
def unchanged (host later : Host) (roles : List Role) (mount : Mount) (backing : Nat × Nat) :
    Except Failure Unit := do
  require (later.inventory.dumps == host.inventory.dumps && later.mounts == host.mounts &&
    later.swaps == host.swaps) (unproven "hardware inventory changed during descriptor observation")
  let again ← later.protectedSnapshot
  require (again == roles) (unproven "hardware inventory changed during descriptor observation")
  let final ← (later.backing mount.majorMinor).elim
    (.error (refuse "WAITING_DESTINATION" "mounted block backing disappeared")) .ok
  require (final == backing)
    (refuse "DESTINATION_CHANGED" "block backing changed during observation")

/-- The destination's mount, its disk and their identity. -/
structure Candidate where
  mount : Mount
  backing : Nat × Nat
  diskKey : String
  identity : Identity

/-- The destination found in the inventory and the mount table. -/
def locate (host : Host) (inventory : BlockInventory) (attachment : Attachment) (writable : Bool) :
    Except Failure Candidate := do
  require (attachment.path != "/") (unproven "host root is not a delivery device")
  let mount ← coveringMount writable host.mounts attachment.path
  let backing ← admitMount inventory host.mounts attachment host mount
  let diskKey ← diskOf inventory mount.majorMinor true
  let node := (inventory.node? mount.majorMinor).getD []
  let disk := (inventory.node? diskKey).getD []
  let identity ← identityOf u node disk
  admitFilesystem writable mount node
  if writable then admitWritable attachment mount node disk else .ok ()
  return ⟨mount, backing, diskKey, identity⟩

/-- `_observe(path, writable, archives)`; the host is read a second time at the end. -/
def observe (host later : Host) (attachment : Attachment) (writable : Bool)
    (archives : List RegisteredArchive) : Except Failure DeviceEvidence := do
  let inventory ← (BlockInventory.ofPayload u casefold host.inventory).mapError unproven
  let found ← locate u host inventory attachment writable
  let roles ← host.protectedSnapshot
  let held ← protectedDisks inventory host.mounts host.swaps roles
  require (found.diskKey ∉ held) (unproven "system or swap disk and all siblings are excluded")
  if writable then
    admitExclusive u casefold inventory host.mounts archives found.mount found.identity found.diskKey
  else .ok ()
  let evidence ← evidenceOf sha attachment found.mount found.identity
  attachment.check
  unchanged host later roles found.mount found.backing
  return evidence

end Observing

section Safety

variable (u : Unicode) (casefold : String → String)

/-- A mount names a device by its number or by its source. -/
def Names (inventory : BlockInventory) (mount : Mount) (key : String) : Prop :=
  key = mount.majorMinor ∨ inventory.paths[mount.source]? = some key

def IsLoop (inventory : BlockInventory) (key : String) : Prop :=
  ∃ node, inventory.node? key = some node ∧ Device.isText (node.get "type") "loop" = true

/-- The disk says this of its serial or its WWN. -/
def Identifies (inventory : BlockInventory) (disk own : String) : Prop :=
  ∃ node, inventory.node? disk = some node ∧ (node.get "serial" = .str own ∨ node.get "wwn" = .str own)

/-- A device on the disk has this filesystem. -/
def Holds (inventory : BlockInventory) (disk uuid : String) : Prop :=
  ∃ key node, inventory.node? key = some node ∧ node.get "uuid" = .str uuid ∧ inventory.On disk key

/-- The disk of a destination holds nothing that must not be written beside. -/
structure Apart (inventory : BlockInventory) (host : Host) (roles : List Role)
    (archives : List RegisteredArchive) (mount : Mount) (disk : String) : Prop where
  targets : ∀ role ∈ roles, ∀ target, role.target = some target → ¬inventory.On disk target.majorMinor
  /-- Below the root are all mounts; it is the other directories that are protected with theirs. -/
  nested : ∀ role ∈ roles, ∀ target, role.target = some target → role.directory = true →
    role.requested ≠ "/" → ∀ other ∈ host.mounts,
      (beneath target.path other.path = true ∨ beneath role.requested other.path = true) →
        ¬inventory.On disk other.majorMinor
  swaps : ∀ swap ∈ host.swaps, swap.isFile = false →
    ∃ key, inventory.paths[swap.name]? = some key ∧ ¬inventory.On disk key
  mounts : ∀ other ∈ host.mounts, other ≠ mount → ∀ key, Names inventory other key →
    ¬IsLoop inventory key → ¬inventory.On disk key
  serials : ∀ archive ∈ archives, ∀ registered own, archive.serial = some registered →
    Identifies inventory disk own → u.strip registered ≠ "" → u.strip registered ≠ u.strip own
  filesystems : ∀ archive ∈ archives, ∀ registered uuid, archive.fsUuid = some registered →
    registered ≠ "" → uuid ≠ "" → Holds inventory disk uuid → casefold uuid ≠ casefold registered

/-- The rows that the observer does not compare are harmless: a mount whose source is another device than
    its number, and an identity with blanks around it. -/
structure Plain (inventory : BlockInventory) (host : Host) (archives : List RegisteredArchive)
    (mount : Mount) (disk : String) : Prop where
  sources : ∀ other ∈ host.mounts, other ≠ mount → ∀ key, inventory.paths[other.source]? = some key →
    key ≠ other.majorMinor → ¬IsLoop inventory key → ¬inventory.On disk key
  serials : ∀ archive ∈ archives, ∀ registered own, archive.serial = some registered →
    Identifies inventory disk own → u.strip registered ≠ registered ∨ u.strip own ≠ own →
      u.strip registered ≠ "" → u.strip registered ≠ u.strip own
  filesystems : ∀ archive ∈ archives, ∀ registered uuid, archive.fsUuid = some registered →
    u.strip registered ≠ registered ∨ u.strip uuid ≠ uuid → registered ≠ "" → uuid ≠ "" →
      Holds inventory disk uuid → casefold uuid ≠ casefold registered

variable {u casefold} {sha : Digester} {inventory : BlockInventory} {host later : Host}
  {attachment : Attachment} {archives : List RegisteredArchive} {evidence : DeviceEvidence}
  {disk key : String} {mount : Mount}

theorem nonempty_str {text : String} : nonempty u (.str text) =
    if u.strip text = text ∧ text ≠ "" then some text else none := rfl

theorem diskOf_eq_ok {direct : Bool} (found : diskOf inventory key direct = .ok disk) :
    inventory.On disk key ∧ inventory.WholeDisk disk :=
  BlockInventory.disk_eq_ok (mapError_eq_ok.mp found)

/-- A device whose disk is another one is not on this disk. -/
theorem not_on_of_diskOf {its : String} (whole : inventory.WholeDisk disk)
    (found : diskOf inventory key false = .ok its) (other : its ≠ disk) : ¬inventory.On disk key := by
  intro here
  obtain ⟨above, top⟩ := diskOf_eq_ok found
  exact other (BlockInventory.on_unique above here top whole)

/-- A number that no device has is on no disk. -/
theorem listed_of_on (whole : inventory.WholeDisk disk) (closed : inventory.Closed)
    (here : inventory.On disk key) : (inventory.node? key).isSome = true := by
  rcases Relation.ReflTransGen.cases_head here with same | ⟨parent, above, _⟩
  · obtain ⟨node, found, _⟩ := whole.2
    rw [same, found]
    rfl
  · exact closed.child key parent above

/-- What is known of an accepted destination. -/
structure Accepted (u : Unicode) (casefold : String → String) (inventory : BlockInventory) (host : Host)
    (attachment : Attachment) (archives : List RegisteredArchive) (roles : List Role) (mount : Mount)
    (disk : String) (held : List String) (identity : Identity) : Prop where
  built : BlockInventory.ofPayload u casefold host.inventory = .ok inventory
  snapshot : host.protectedSnapshot = .ok roles
  among : mount ∈ host.mounts
  path : mount.path = attachment.path
  whole : diskOf inventory mount.majorMinor true = .ok disk
  alone : (host.mounts.filter (·.majorMinor == mount.majorMinor)).length = 1
  identified : identityOf u ((inventory.node? mount.majorMinor).getD [])
    ((inventory.node? disk).getD []) = .ok identity
  holds : protectedDisks inventory host.mounts host.swaps roles = .ok held
  apart : disk ∉ held
  exclusive : admitExclusive u casefold inventory host.mounts archives mount identity disk = .ok ()

theorem observe_eq_ok (accepted : observe u casefold sha host later attachment true archives = .ok evidence) :
    ∃ inventory roles mount disk held identity,
      Accepted u casefold inventory host attachment archives roles mount disk held identity := by
  simp only [observe, bind_eq_ok, mapError_eq_ok, require_eq_ok, if_true] at accepted
  obtain ⟨inventory, built, found, located, roles, snapshot, held, holds, _, apart, _, exclusive, _⟩ :=
    accepted
  simp only [locate, bind_eq_ok, require_eq_ok, if_true, pure_eq_ok] at located
  obtain ⟨_, _, mount, covering, backing, admitted, disk, whole, identity, identified, _, _, _, _, rfl⟩ :=
    located
  simp only [admitMount, bind_eq_ok, require_eq_ok, beq_iff_eq] at admitted
  obtain ⟨_, _, _, _, _, _, _, alone, _⟩ := admitted
  have covers : mount ∈ host.mounts.filter (covers true attachment.path) := by
    unfold coveringMount at covering
    simp only [if_true] at covering
    split at covering
    · rename_i only matching
      cases covering
      rw [matching]
      exact List.mem_singleton_self _
    · cases covering
  obtain ⟨among, here⟩ := List.mem_filter.mp covers
  refine ⟨inventory, roles, mount, disk, held, identity, built, snapshot, among, ?_, whole, alone,
    identified, holds, by simpa using apart, exclusive⟩
  simpa [Hardware.covers] using here

section Parts

variable {roles : List Role} {held : List String} {identity : Identity}
  (accepted : Accepted u casefold inventory host attachment archives roles mount disk held identity)

include accepted

theorem whole_of_accepted : inventory.WholeDisk disk :=
  (diskOf_eq_ok accepted.whole).2

/-- A disk among those held is not the destination's. -/
theorem not_on_of_held {its : String} (found : diskOf inventory key false = .ok its)
    (member : its ∈ held) : ¬inventory.On disk key := by
  apply not_on_of_diskOf (whole_of_accepted accepted) found
  rintro rfl
  exact accepted.apart member

/-- What is held: the disks of every role, and those of the swap partitions. -/
theorem held_spec : (∀ role ∈ roles, ∃ disks, roleDisks inventory host.mounts role = .ok disks ∧
      ∀ its ∈ disks, its ∈ held) ∧
    ∀ swap ∈ host.swaps, ∃ kept, swapDisk inventory swap = .ok kept ∧ ∀ its ∈ kept, its ∈ held := by
  have holds := accepted.holds
  simp only [protectedDisks, bind_eq_ok, pure_eq_ok] at holds
  obtain ⟨lists, mapped, swapped, collected, same⟩ := holds
  subst same
  obtain ⟨all, kept⟩ := collect_eq_ok.mp collected
  refine ⟨?_, ?_⟩
  · intro role member
    obtain ⟨disks, among, read⟩ := exists_of_mapM mapped member
    exact ⟨disks, read, fun its inside =>
      List.mem_append_left _ (List.mem_flatten.mpr ⟨disks, among, inside⟩)⟩
  · intro swap member
    obtain ⟨result, read⟩ := all swap member
    refine ⟨result, read, fun its inside => List.mem_append_right _ ?_⟩
    rw [kept, List.mem_filterMap]
    exact ⟨swap, member, by simpa [read] using inside⟩

theorem targets_apart {role : Role} (member : role ∈ roles) {target : ProtectedTarget}
    (resolved : role.target = some target) : ¬inventory.On disk target.majorMinor := by
  obtain ⟨disks, read, inside⟩ := (held_spec accepted).1 role member
  simp only [roleDisks, resolved, bind_eq_ok] at read
  obtain ⟨own, found, rest⟩ := read
  apply not_on_of_held accepted found
  apply inside
  split at rest
  · cases collected : collect (nestedDisk inventory role target) host.mounts with
    | error refused => simp [collected, Except.map] at rest
    | ok nested =>
        simp only [collected, Except.map, Except.ok.injEq] at rest
        rw [← rest]
        exact List.mem_cons_self
  · cases rest
    exact List.mem_singleton_self own

theorem nested_apart (closed : inventory.Closed) {role : Role} (member : role ∈ roles)
    {target : ProtectedTarget} (resolved : role.target = some target) (directory : role.directory = true)
    (below : role.requested ≠ "/") {other : Mount} (among : other ∈ host.mounts)
    (nested : beneath target.path other.path = true ∨ beneath role.requested other.path = true) :
    ¬inventory.On disk other.majorMinor := by
  intro here
  have listed := listed_of_on (whole_of_accepted accepted) closed here
  obtain ⟨disks, read, inside⟩ := (held_spec accepted).1 role member
  simp only [roleDisks, resolved, bind_eq_ok] at read
  obtain ⟨own, _, rest⟩ := read
  rw [if_pos ⟨directory, below⟩] at rest
  cases collected : collect (nestedDisk inventory role target) host.mounts with
  | error refused => simp [collected, Except.map] at rest
  | ok others =>
      simp only [collected, Except.map, Except.ok.injEq] at rest
      obtain ⟨all, kept⟩ := collect_eq_ok.mp collected
      obtain ⟨result, judged⟩ := all other among
      have decided := judged
      rw [nestedDisk, if_pos (by simpa using nested), if_pos listed] at decided
      cases found : diskOf inventory other.majorMinor false with
      | error refused => simp [found, Except.map] at decided
      | ok its =>
          simp only [found, Except.map, Except.ok.injEq] at decided
          refine not_on_of_held accepted found (inside its ?_) here
          rw [← rest, kept]
          refine List.mem_cons_of_mem _ (List.mem_filterMap.mpr ⟨other, among, ?_⟩)
          simp [judged, ← decided]

theorem swaps_apart {swap : Swap} (member : swap ∈ host.swaps) (partition : swap.isFile = false) :
    ∃ key, inventory.paths[swap.name]? = some key ∧ ¬inventory.On disk key := by
  obtain ⟨kept, read, inside⟩ := (held_spec accepted).2 swap member
  rw [swapDisk, if_neg (by simp [partition])] at read
  cases known : inventory.paths[swap.name]? with
  | none => simp [known] at read
  | some key =>
      simp only [known] at read
      cases found : diskOf inventory key false with
      | error refused => simp [found, Except.map] at read
      | ok its =>
          simp only [found, Except.map, Except.ok.injEq] at read
          exact ⟨key, rfl, not_on_of_held accepted found (inside its (by simp [← read]))⟩

theorem exclusive_spec : (∀ other ∈ host.mounts, checkSibling inventory mount disk () other = .ok ()) ∧
    ∀ archive ∈ archives, checkArchive u casefold inventory identity disk () archive = .ok () := by
  have passed := accepted.exclusive
  simp only [admitExclusive, bind_eq_ok] at passed
  obtain ⟨_, siblings, registered⟩ := passed
  exact ⟨of_thread_checks siblings, of_thread_checks registered⟩

/-- No other mount has the number of the destination. -/
theorem number_apart {other : Mount} (among : other ∈ host.mounts) (apart : other ≠ mount) :
    other.majorMinor ≠ mount.majorMinor := by
  intro same
  obtain ⟨only, alone⟩ := List.length_eq_one_iff.mp accepted.alone
  have own : mount ∈ host.mounts.filter (·.majorMinor == mount.majorMinor) := by
    simp [accepted.among]
  have others : other ∈ host.mounts.filter (·.majorMinor == mount.majorMinor) := by
    simp [among, same]
  rw [alone, List.mem_singleton] at own others
  exact apart (others.trans own.symm)

/-- By its number no other mount is on the disk, unless it is a loop mount. -/
theorem mounts_apart (closed : inventory.Closed) {other : Mount} (among : other ∈ host.mounts)
    (apart : other ≠ mount) (solid : ¬IsLoop inventory other.majorMinor) :
    ¬inventory.On disk other.majorMinor := by
  intro here
  have whole := whole_of_accepted accepted
  obtain ⟨node, listed⟩ := Option.isSome_iff_exists.mp (listed_of_on whole closed here)
  have passed := (exclusive_spec accepted).1 other among
  simp only [checkSibling, listed] at passed
  rw [if_neg (number_apart accepted among apart)] at passed
  split at passed
  · rename_i loop
    exact solid ⟨node, listed, loop⟩
  · simp only [bind_eq_ok, require_eq_ok, bne_iff_ne] at passed
    obtain ⟨its, found, other⟩ := passed
    exact not_on_of_diskOf whole found other here

theorem serials_apart {archive : RegisteredArchive} (member : archive ∈ archives)
    {registered own : String} (named : archive.serial = some registered)
    (identifies : Identifies inventory disk own) (trimmed : u.strip registered = registered)
    (trimmedOwn : u.strip own = own) (something : u.strip registered ≠ "") :
    u.strip registered ≠ u.strip own := by
  intro same
  rw [trimmed] at something
  rw [trimmed, trimmedOwn] at same
  subst same
  have passed := (exclusive_spec accepted).2 archive member
  have serial : nonempty u (Json.ofText archive.serial) = some registered := by
    simp [named, Json.ofText, nonempty_str, trimmed, something]
  have own : nonempty u (.str registered) = some registered := by
    simp [nonempty_str, trimmed, something]
  simp only [checkArchive, bind_eq_ok, require_eq_ok, serial] at passed
  obtain ⟨_, _, _, differs, _⟩ := passed
  have identified := accepted.identified
  obtain ⟨node, found, fields⟩ := identifies
  simp only [identityOf, found, Option.getD_some] at identified
  split at identified
  · simp only [bind_eq_ok, require_eq_ok, pure_eq_ok] at identified
    obtain ⟨_, _, rfl⟩ := identified
    rcases fields with serialField | wwnField
    · simp [serialField, own] at differs
    · simp [wwnField, own] at differs
  · cases identified

theorem filesystems_apart {archive : RegisteredArchive} (member : archive ∈ archives)
    {registered uuid : String} (named : archive.fsUuid = some registered)
    (trimmed : u.strip registered = registered) (trimmedOwn : u.strip uuid = uuid)
    (something : registered ≠ "") (somethingOwn : uuid ≠ "") (held : Holds inventory disk uuid) :
    casefold uuid ≠ casefold registered := by
  intro same
  obtain ⟨key, node, found, field, here⟩ := held
  have passed := (exclusive_spec accepted).2 archive member
  have its : nonempty u (Json.ofText archive.fsUuid) = some registered := by
    simp [named, Json.ofText, nonempty_str, trimmed, something]
  have own : nonempty u (node.get "uuid") = some uuid := by
    simp [field, nonempty_str, trimmedOwn, somethingOwn]
  simp only [checkArchive, bind_eq_ok, its] at passed
  obtain ⟨_, _, _, _, checks⟩ := passed
  have checked := of_thread_checks checks (key, node) (BlockInventory.mem_nodes found)
  simp only [checkFilesystem, own, if_pos same, bind_eq_ok, require_eq_ok, bne_iff_ne] at checked
  obtain ⟨other, located, differs⟩ := checked
  exact not_on_of_diskOf (whole_of_accepted accepted) located differs here

/-- An accepted destination is apart from everything exactly when the rows not compared are harmless. -/
theorem apart_iff_plain (closed : inventory.Closed) :
    Apart u casefold inventory host roles archives mount disk ↔
      Plain u casefold inventory host archives mount disk := by
  constructor
  · intro apart
    constructor
    · intro other among differs key named _ solid
      exact apart.mounts other among differs key (.inr named) solid
    · intro archive member registered own named identifies _
      exact apart.serials archive member registered own named identifies
    · intro archive member registered uuid named _
      exact apart.filesystems archive member registered uuid named
  · intro plain
    constructor
    · intro role member target resolved
      exact targets_apart accepted member resolved
    · intro role member target resolved directory below other among nested
      exact nested_apart accepted closed member resolved directory below among nested
    · intro swap member partition
      exact swaps_apart accepted member partition
    · intro other among differs key named solid
      by_cases number : key = other.majorMinor
      · subst number
        exact mounts_apart accepted closed among differs solid
      · exact plain.sources other among differs key (named.resolve_left number) number solid
    · intro archive member registered own named identifies something
      by_cases trimmed : u.strip registered = registered ∧ u.strip own = own
      · exact serials_apart accepted member named identifies trimmed.1 trimmed.2 something
      · exact plain.serials archive member registered own named identifies
          (by rwa [not_and_or] at trimmed) something
    · intro archive member registered uuid named something somethingOwn held
      by_cases trimmed : u.strip registered = registered ∧ u.strip uuid = uuid
      · exact filesystems_apart accepted member named trimmed.1 trimmed.2 something somethingOwn held
      · exact plain.filesystems archive member registered uuid named
          (by rwa [not_and_or] at trimmed) something somethingOwn held

end Parts

/-- A device graph accepted from any payload gives a device at most one parent; the search for a device's
    disk ends on every graph, with the only whole disk that holds it or a refusal; and the disk of an
    accepted writable destination is apart from everything exactly when the rows that are not compared are
    harmless. -/
theorem observe_apart_iff (u : Unicode) (casefold : String → String) (sha : Digester) :
    (∀ payload inventory, BlockInventory.ofPayload u casefold payload = .ok inventory →
      ∀ key parent other, BlockInventory.TellsParent u payload inventory key parent →
        BlockInventory.TellsParent u payload inventory key other → parent = other) ∧
    (∀ (inventory : BlockInventory) direct allowed key, ∃ answer,
      (∀ fuel, inventory.nodes.length < fuel →
        inventory.diskWithin fuel direct allowed key = some answer) ∧
      ∀ disk, answer = .ok disk → inventory.On disk key ∧ inventory.WholeDisk disk ∧
        ∀ other, inventory.On other key → inventory.WholeDisk other → other = disk) ∧
    ∀ (host later : Host) (attachment : Attachment) (archives : List RegisteredArchive) (evidence : DeviceEvidence),
      observe u casefold sha host later attachment true archives = .ok evidence →
      ∃ inventory roles mount disk, BlockInventory.ofPayload u casefold host.inventory = .ok inventory ∧
        host.protectedSnapshot = .ok roles ∧ mount ∈ host.mounts ∧ mount.path = attachment.path ∧
        inventory.On disk mount.majorMinor ∧ inventory.WholeDisk disk ∧
        (Apart u casefold inventory host roles archives mount disk ↔
          Plain u casefold inventory host archives mount disk) := by
  refine ⟨?_, ?_, ?_⟩
  · intro payload inventory built key parent other told toldOther
    exact BlockInventory.rightUnique_above (BlockInventory.above_of_told built told)
      (BlockInventory.above_of_told built toldOther)
  · intro inventory direct allowed key
    refine ⟨_, BlockInventory.disk_ends inventory direct allowed key, ?_⟩
    intro disk found
    obtain ⟨here, whole⟩ := BlockInventory.disk_eq_ok found
    exact ⟨here, whole, fun other on top => BlockInventory.on_unique on here top whole⟩
  · intro host later attachment archives evidence accepted
    obtain ⟨inventory, roles, mount, disk, held, identity, known⟩ := observe_eq_ok accepted
    obtain ⟨here, whole⟩ := diskOf_eq_ok known.whole
    have closed := BlockInventory.closed_of_payload known.built
    exact ⟨inventory, roles, mount, disk, known.built, known.snapshot, known.among, known.path, here,
      whole, apart_iff_plain known closed⟩

end Safety

section Sample

def samplePart (name number fstype uuid : String) (size : Int) : Json :=
  .obj [("fstype", .str fstype), ("maj:min", .str number), ("name", .str name), ("ro", .bool false),
    ("size", .int size), ("type", .str "part"), ("uuid", .str uuid)]

def sampleDisk (name number serial tran : String) (parts : List Json) : Json :=
  .obj [("children", .arr parts), ("maj:min", .str number), ("name", .str name), ("ro", .bool false),
    ("serial", .str serial), ("size", .int 400), ("tran", .str tran), ("type", .str "disk")]

/-- A system disk, and a USB disk with the destination and a second partition. -/
def sampleDevices : Json :=
  .obj [("blockdevices", .arr [
    sampleDisk "/dev/sda" "8:0" "S1" "sata" [samplePart "/dev/sda1" "8:1" "ext4" "root" 300],
    sampleDisk "/dev/sdb" "8:16" "S2" "usb" [samplePart "/dev/sdb1" "8:17" "ext4" "out" 200,
      samplePart "/dev/sdb2" "8:18" "btrfs" "data" 200]])]

def sampleMounts : List Mount := [
  ⟨1, "8:1", "/", "/", ["rw"], "ext4", "/dev/sda1"⟩,
  ⟨2, "8:17", "/", "/out", ["rw"], "ext4", "/dev/sdb1"⟩]

def sampleHost (mounts : List Mount) : Host where
  inventory := sampleDevices
  mounts := mounts
  swaps := [⟨"/dev/sda1", false⟩]
  resolver path _ _ := .ok (some ⟨path, path, "8:1", 1, 2⟩)
  backing _ := some (5, 6)

def sampleAttachment : Attachment where
  path := "/out"
  mountId := 2
  majorMinor := "8:17"
  createAccess := .ok ()
  blocks := 40
  fragment := 4
  freeBlocks := 30
  nameMax := 255
  check := .ok ()

def sampleDigester : Digester := ⟨fun _ => "d", by simp⟩

def sampleObserve (mounts : List Mount) : Except Failure DeviceEvidence :=
  observe asciiUnicode asciiUnicode.lower sampleDigester (sampleHost mounts) (sampleHost mounts)
    sampleAttachment true [⟨some "archive", some "S9"⟩]

/-- The second partition is a btrfs filesystem, which is mounted under a number of its own. -/
def siblingMounts : List Mount :=
  sampleMounts ++ [⟨3, "0:45", "/", "/data", ["rw"], "btrfs", "/dev/sdb2"⟩]

-- One evaluation after the other, so that the first gives back what it takes.
theorem samples_observed : (sampleObserve sampleMounts).toOption.isSome = true ∧
    (sampleObserve siblingMounts).toOption.isSome = true := by
  constructor
  · decide +kernel
  · decide +kernel

theorem observe_apart_iff_sample : ∃ inventory roles mount disk,
    BlockInventory.ofPayload asciiUnicode asciiUnicode.lower sampleDevices = .ok inventory ∧
      (sampleHost sampleMounts).protectedSnapshot = .ok roles ∧ mount ∈ sampleMounts ∧
      mount.path = "/out" ∧ inventory.On disk mount.majorMinor ∧ inventory.WholeDisk disk ∧
      (Apart asciiUnicode asciiUnicode.lower inventory (sampleHost sampleMounts) roles
          [⟨some "archive", some "S9"⟩] mount disk ↔
        Plain asciiUnicode asciiUnicode.lower inventory (sampleHost sampleMounts)
          [⟨some "archive", some "S9"⟩] mount disk) := by
  obtain ⟨evidence, accepted⟩ := Option.isSome_iff_exists.mp samples_observed.1
  exact (observe_apart_iff _ _ sampleDigester).2.2 _ _ _ _ evidence (toOption_eq_some.mp accepted)

theorem sample_inventory {inventory : BlockInventory}
    (built : BlockInventory.ofPayload asciiUnicode asciiUnicode.lower sampleDevices = .ok inventory) :
    inventory.paths["/dev/sdb2"]? = some "8:18" ∧ inventory.parents["8:18"]? = some "8:16" ∧
      inventory.parents["8:17"]? = some "8:16" ∧ inventory.parents["8:16"]? = none ∧
      (inventory.node? "8:16").any (fun node => Device.isText (node.get "type") "disk") = true ∧
      (inventory.node? "8:18").any (fun node => Device.isText (node.get "type") "loop") = false := by
  have computed : (BlockInventory.ofPayload asciiUnicode asciiUnicode.lower sampleDevices).toOption.all
      (fun inventory => decide (inventory.paths["/dev/sdb2"]? = some "8:18" ∧
        inventory.parents["8:18"]? = some "8:16" ∧ inventory.parents["8:17"]? = some "8:16" ∧
        inventory.parents["8:16"]? = none ∧
        (inventory.node? "8:16").any (fun node => Device.isText (node.get "type") "disk") = true ∧
        (inventory.node? "8:18").any (fun node => Device.isText (node.get "type") "loop") = false)) =
      true := by decide +kernel
  rw [built] at computed
  simpa only [toOption_ok, Option.all_some, decide_eq_true_eq] using computed

/-- A destination is accepted beside a mounted partition of its own disk. -/
theorem sibling_accepted : ∃ evidence, sampleObserve siblingMounts = .ok evidence ∧
    ∃ inventory roles mount disk,
      BlockInventory.ofPayload asciiUnicode asciiUnicode.lower sampleDevices = .ok inventory ∧
      (sampleHost siblingMounts).protectedSnapshot = .ok roles ∧ mount ∈ siblingMounts ∧
      mount.path = "/out" ∧ inventory.On disk mount.majorMinor ∧ inventory.WholeDisk disk ∧
      ¬Apart asciiUnicode asciiUnicode.lower inventory (sampleHost siblingMounts) roles
        [⟨some "archive", some "S9"⟩] mount disk := by
  obtain ⟨evidence, accepted⟩ := Option.isSome_iff_exists.mp samples_observed.2
  rw [toOption_eq_some] at accepted
  obtain ⟨inventory, roles, mount, disk, held, identity, known⟩ := observe_eq_ok accepted
  obtain ⟨here, whole⟩ := diskOf_eq_ok known.whole
  obtain ⟨path, above, aboveOut, top, disks, solid⟩ := sample_inventory known.built
  have number : mount.majorMinor = "8:17" := by
    have among : mount ∈ siblingMounts := known.among
    have covers : mount.path = "/out" := known.path
    simp only [siblingMounts, sampleMounts, List.cons_append, List.nil_append, List.mem_cons,
      List.not_mem_nil, or_false] at among
    rcases among with rfl | rfl | rfl
    · simp at covers
    · rfl
    · simp at covers
  have stick : inventory.WholeDisk "8:16" := by
    cases found : inventory.node? "8:16" with
    | none => simp [found] at disks
    | some node => exact ⟨top, node, found, by simpa [found] using disks⟩
  have same : disk = "8:16" := by
    rw [number] at here
    exact BlockInventory.on_unique here (.single aboveOut) whole stick
  refine ⟨evidence, accepted, inventory, roles, mount, disk, known.built, known.snapshot, known.among,
    known.path, here, whole, ?_⟩
  intro apart
  refine apart.mounts ⟨3, "0:45", "/", "/data", ["rw"], "btrfs", "/dev/sdb2"⟩
    (by simp [sampleHost, siblingMounts]) ?_ "8:18" (.inr path) ?_ ?_
  · rintro rfl
    exact absurd number (by decide)
  · rintro ⟨node, found, loop⟩
    rw [found, Option.any_some, loop] at solid
    cases solid
  · rw [same]
    exact .single above

end Sample

end Modelark.Slice.Hardware
