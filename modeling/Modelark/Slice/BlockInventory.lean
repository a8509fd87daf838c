import Modelark.Archive.Digest
import Modelark.Library.Dict
import Modelark.Library.Fallible
import Modelark.Library.Json
import Modelark.Library.ParentChains

/-!
# Physical ancestry

The validated graph of block devices. Devices are known by their number; a device has one path, perhaps a
kernel alias, and at most one parent, named by its place in the tree or by its parent's kernel name.
-/

namespace Modelark.Slice.Hardware

open Library Modelark.Archive

/-- The fields of a device. -/
abbrev Device := List (String × Json)

namespace Device

/-- `node.get(key)`: an absent field is null. -/
def get (node : Device) (key : String) : Json :=
  ((node.find? (·.1 == key)).map Prod.snd).getD .null

def isText (value : Json) (expected : String) : Bool :=
  match value with
  | .str text => text == expected
  | _ => false

end Device

def starts (text start : String) : Bool :=
  start.toList.isPrefixOf text.toList

section Fields

variable (u : Unicode)

def nonempty : Json → Option String
  | .str text => if u.strip text = text ∧ text ≠ "" then some text else none
  | _ => none

/-- Optional graph fields may be absent, not malformed or silently trimmed. -/
def ancestryString (node : Device) (field : String) : Except String (Option String) :=
  match node.get field with
  | .null => .ok none
  | .str text =>
      if text = "" then .ok none
      else if u.strip text = text then .ok (some text)
      else .error ("invalid block-device " ++ field)
  | _ => .error ("invalid block-device " ++ field)

/-- One spelling rule for serial observation and ambiguity detection. -/
def normalizeSerial : Json → Except String (Option String)
  | .null => .ok none
  | .str text => .ok (if u.strip text = "" then none else some (u.strip text))
  | _ => .error "invalid physical disk serial observation"

/-- `\d+:\d+`. -/
def isDeviceNumber (text : String) : Bool :=
  let major := text.toList.takeWhile (· ≠ ':')
  let minor := (text.toList.dropWhile (· ≠ ':')).tail
  text.toList.contains ':' && major ≠ [] && major.all u.isDecimal && minor ≠ [] && minor.all u.isDecimal

end Fields

/-- The devices by their numbers in the order of the inventory, their parents and the devices of the paths. -/
structure BlockInventory where
  nodes : List (String × Device)
  parents : Dict String String
  paths : Dict String String

namespace BlockInventory

def node? (inventory : BlockInventory) (key : String) : Option Device :=
  (inventory.nodes.find? (·.1 == key)).map Prod.snd

def kernelPath (name : String) : String :=
  if starts name "/" then name else "/dev/" ++ name

section Reading

variable (u : Unicode) (casefold : String → String)

/-- The device with its path, before its alias. -/
def insert (inventory : BlockInventory) (parent : Option String) (key path : String) (node : Device) :
    BlockInventory where
  nodes := inventory.nodes ++ [(key, node)]
  parents := parent.elim inventory.parents (inventory.parents.insert key)
  paths := inventory.paths.insert path key

/-- Only explicit kernel names establish an alias. -/
def addAlias (inventory : BlockInventory) (key : String) : Option String → Except String BlockInventory
  | none => .ok inventory
  | some kname => do
      require (starts (kernelPath kname) "/dev/" && inventory.paths.getD (kernelPath kname) key == key)
        "ambiguous kernel block-device alias"
      return { inventory with paths := inventory.paths.insert (kernelPath kname) key }

/-- One device of the tree, without its children. -/
def addNode (inventory : BlockInventory) (parent : Option String) (node : Device) :
    Except String (String × BlockInventory) := do
  require (nonempty u (node.get "type")).isSome "invalid block-device type"
  let path ← ancestryString u node "path"
  let name ← ancestryString u node "name"
  match node.get "maj:min", path.or name with
  | .str key, some path => do
      require (isDeviceNumber u key && starts path "/dev/" && (inventory.node? key).isNone &&
        path ∉ inventory.paths) "ambiguous block-device inventory"
      let kname ← ancestryString u node "kname"
      let added ← (inventory.insert parent key path node).addAlias key kname
      return (key, added)
  | _, _ => .error "ambiguous block-device inventory"

mutual

/-- A device and all below it. -/
def visit (inventory : BlockInventory) (parent : Option String) : Json → Except String BlockInventory
  | .obj node => do
      let (key, added) ← addNode u inventory parent node
      visitChildren added key node
  | _ => .error "invalid block-device inventory"

/-- The devices under the field `children`. -/
def visitChildren (inventory : BlockInventory) (key : String) :
    List (String × Json) → Except String BlockInventory
  | [] => .ok inventory
  | (field, value) :: rest =>
      if field = "children" then
        match value with
        | .null => .ok inventory
        | .arr children => visitAll inventory (some key) children
        | _ => .error "invalid block-device children"
      else visitChildren inventory key rest

def visitAll (inventory : BlockInventory) (parent : Option String) :
    List Json → Except String BlockInventory
  | [] => .ok inventory
  | child :: rest => visit inventory parent child >>= fun next => visitAll next parent rest

end

/-- Explicit parent names on flat inventories as well as trees. -/
def nameParent (inventory : BlockInventory) (entry : String × Device) : Except String BlockInventory := do
  match ← ancestryString u entry.2 "pkname" with
  | none => .ok inventory
  | some name =>
      match inventory.paths[kernelPath name]? with
      | none => .error "ambiguous parent disk"
      | some parent => do
          require (inventory.parents.getD entry.1 parent == parent) "ambiguous parent disk"
          return { inventory with parents := inventory.parents.insert entry.1 parent }

/-- The filesystem UUIDs and the whole-disk identities met so far. -/
structure Identities where
  uuids : List String
  disks : List (String × String)

def addUuid (met : Identities) : Option String → Except String Identities
  | none => .ok met
  | some uuid => do
      require (casefold uuid ∉ met.uuids) "duplicate filesystem UUID"
      return { met with uuids := casefold uuid :: met.uuids }

local instance pairBEq : LawfulBEq (String × String) := inferInstance

def addDisk (field : String) (met : Identities) : Option String → Except String Identities
  | none => .ok met
  | some value => do
      require ((field, value) ∉ met.disks) "duplicate whole-disk identity"
      return { met with disks := (field, value) :: met.disks }

def addIdentities (met : Identities) (entry : String × Device) : Except String Identities := do
  let met ← addUuid casefold met (nonempty u (entry.2.get "uuid"))
  if Device.isText (entry.2.get "type") "disk" then
    (normalizeSerial u (entry.2.get "serial") >>= addDisk "serial" met) >>= fun met =>
      addDisk "wwn" met (nonempty u (entry.2.get "wwn"))
  else .ok met

/-- `BlockInventory(payload)`. -/
def ofPayload (payload : Json) : Except String BlockInventory :=
  match payload with
  | .obj fields =>
      match Device.get fields "blockdevices" with
      | .arr devices => do
          let tree ← visitAll u ⟨[], ∅, ∅⟩ none devices
          let inventory ← thread (nameParent u) tree tree.nodes
          let _ ← thread (addIdentities u casefold) ⟨[], []⟩ inventory.nodes
          return inventory
      | _ => .error "invalid lsblk JSON"
  | _ => .error "invalid lsblk JSON"

end Reading

section Ancestry

variable (inventory : BlockInventory)

/-- The walk of `disk` at one device. A parent is always one of the devices. -/
def turn (direct : Bool) (allowed : Option (List String)) (key : String) : Turn String String :=
  match inventory.node? key with
  | none => .refuse "cannot prove whole parent disk"
  | some node =>
      match node.get "type" with
      | .str kind =>
          let parent := inventory.parents[key]?
          if kind = "disk" ∧ parent = none then .found
          else if direct = true ∧ (kind ≠ "part" ∨ ((parent.bind inventory.node?).any fun above =>
              Device.isText (above.get "type") "disk") = false) then
            .refuse "stacked or unknown delivery device"
          else if allowed.any (kind ∉ ·) then .refuse "unsupported physical ancestry"
          else parent.elim (.refuse "cannot prove whole parent disk") .up
      | _ => .refuse "invalid block-device type"

/-- The loop of `disk`, with fuel. -/
def diskWithin (fuel : Nat) (direct : Bool) (allowed : Option (List String)) (key : String) :
    Option (Except String String) :=
  climb (inventory.turn direct allowed) "cannot prove whole parent disk" fuel [] key

/-- The one disk of a device; an optional policy restricts the types of the devices between. -/
def disk (key : String) (direct : Bool) (allowed : Option (List String)) : Except String String :=
  (inventory.diskWithin (inventory.nodes.length + 1) direct allowed key).getD
    (.error "cannot prove whole parent disk")

/-- The second device is the parent of the first. -/
def Above (key parent : String) : Prop :=
  inventory.parents[key]? = some parent

/-- A device without a parent whose type is disk. -/
def WholeDisk (key : String) : Prop :=
  inventory.parents[key]? = none ∧
    ∃ node, inventory.node? key = some node ∧ Device.isText (node.get "type") "disk" = true

/-- A device lies on a disk: the disk is the device or an ancestor of it. -/
def On (disk key : String) : Prop :=
  Relation.ReflTransGen inventory.Above key disk

end Ancestry

variable {u : Unicode} {casefold : String → String} {inventory grown : BlockInventory}
  {parent : Option String} {key : String} {node : Device}

theorem mem_nodes (found : inventory.node? key = some node) : (key, node) ∈ inventory.nodes := by
  obtain ⟨entry, first, rfl⟩ := Option.map_eq_some_iff.mp found
  have same : entry.1 = key := by simpa using List.find?_some first
  rw [← same]
  exact List.mem_of_find?_eq_some first

/-- A device stands in a payload below a parent; one at the top has none. -/
inductive Occurs : Option String → Json → Option String → Device → Prop
  | here {parent : Option String} {node : Device} : Occurs parent (.obj node) parent node
  | inside {parent above : Option String} {node found : Device} {children : List Json} {child : Json}
      {key : String} : Device.get node "children" = .arr children → child ∈ children →
      Device.get node "maj:min" = .str key → Occurs (some key) child above found →
      Occurs parent (.obj node) above found

/-- Parents and paths are of devices of the inventory. -/
structure Closed (inventory : BlockInventory) : Prop where
  child : ∀ key parent, inventory.Above key parent → (inventory.node? key).isSome = true
  parent : ∀ key parent, inventory.Above key parent → (inventory.node? parent).isSome = true
  path : ∀ path key : String, inventory.paths[path]? = some key → (inventory.node? key).isSome = true

/-- Devices and their parents are only added. -/
structure Grows (inventory grown : BlockInventory) : Prop where
  node : ∀ key node, inventory.node? key = some node → grown.node? key = some node
  parent : ∀ key, (inventory.node? key).isSome = true → grown.parents[key]? = inventory.parents[key]?

theorem Grows.refl (inventory : BlockInventory) : Grows inventory inventory :=
  ⟨fun _ _ found => found, fun _ _ => rfl⟩

theorem Grows.listed (grows : Grows inventory grown) {key : String}
    (listed : (inventory.node? key).isSome = true) : (grown.node? key).isSome = true := by
  obtain ⟨node, found⟩ := Option.isSome_iff_exists.mp listed
  rw [grows.node key node found]
  rfl

theorem Grows.trans {next : BlockInventory} (first : Grows inventory grown) (second : Grows grown next) :
    Grows inventory next where
  node key node found := second.node key node (first.node key node found)
  parent key listed := by
    rw [second.parent key (first.listed listed), first.parent key listed]

/-- The device is in the inventory below this parent. -/
def Placed (inventory : BlockInventory) (parent : Option String) (node : Device) : Prop :=
  ∃ key, node.get "maj:min" = .str key ∧ inventory.node? key = some node ∧
    inventory.parents[key]? = parent

theorem Grows.placed (grows : Grows inventory grown) (placed : Placed inventory parent node) :
    Placed grown parent node := by
  obtain ⟨key, numbered, found, below⟩ := placed
  refine ⟨key, numbered, grows.node key node found, ?_⟩
  rw [grows.parent key (by rw [found]; rfl), below]

theorem node?_insert (fresh : inventory.node? key = none) (path other : String) :
    (inventory.insert parent key path node).node? other =
      if other = key then some node else inventory.node? other := by
  rw [node?, insert, List.find?_append]
  by_cases same : other = key
  · subst same
    rw [node?, Option.map_eq_none_iff] at fresh
    simp [fresh]
  · have apart : (key == other) = false := by simpa using fun eq => same eq.symm
    simp [node?, apart, same]

theorem parents_insert (path other : String) : (inventory.insert parent key path node).parents[other]? =
    if other = key ∧ parent.isSome = true then parent else inventory.parents[other]? := by
  cases parent with
  | none => simp [insert]
  | some above =>
      rw [insert]
      by_cases same : other = key
      · subst same
        simp
      · simp [same, Dict.lookup_insert_of_ne _ _ (Ne.symm same)]

/-- A device that is added is placed below its parent, and nothing else changes. -/
theorem insert_spec (closed : inventory.Closed) (fresh : inventory.node? key = none)
    (numbered : node.get "maj:min" = .str key)
    (known : ∀ above, parent = some above → (inventory.node? above).isSome = true) (path : String) :
    (inventory.insert parent key path node).Closed ∧
      Grows inventory (inventory.insert parent key path node) ∧
      Placed (inventory.insert parent key path node) parent node := by
  have orphan : inventory.parents[key]? = none := by
    by_contra some
    obtain ⟨above, found⟩ := Option.ne_none_iff_exists'.mp some
    have listed := closed.child key above found
    simp [fresh] at listed
  have grows : Grows inventory (inventory.insert parent key path node) := by
    constructor
    · intro other found listed
      have apart : other ≠ key := by
        rintro rfl
        simp [fresh] at listed
      rw [node?_insert fresh, if_neg apart, listed]
    · intro other listed
      have apart : other ≠ key := by
        rintro rfl
        simp [fresh] at listed
      rw [parents_insert, if_neg (by simp [apart])]
  have own : (inventory.insert parent key path node).node? key = some node := by
    rw [node?_insert fresh, if_pos rfl]
  refine ⟨⟨?_, ?_, ?_⟩, grows, key, numbered, own, ?_⟩
  · intro other above found
    rw [Above, parents_insert] at found
    split at found
    · rename_i here
      rw [here.1, own]
      rfl
    · exact grows.listed (closed.child other above found)
  · intro other above found
    rw [Above, parents_insert] at found
    split at found
    · exact grows.listed (known above found)
    · exact grows.listed (closed.parent other above found)
  · intro other found listed
    change (inventory.paths.insert path key)[other]? = some found at listed
    rw [Dict.lookup_insert] at listed
    split at listed
    · rw [← Option.some.inj listed, own]
      rfl
    · exact grows.listed (closed.path other found listed)
  · rw [parents_insert]
    cases parent <;> simp [orphan]

theorem addAlias_spec {kname : Option String} (closed : inventory.Closed)
    (listed : (inventory.node? key).isSome = true) (added : inventory.addAlias key kname = .ok grown) :
    grown.Closed ∧ Grows inventory grown := by
  cases kname with
  | none =>
      cases added
      exact ⟨closed, .refl _⟩
  | some name =>
      simp only [addAlias, bind_eq_ok, require_eq_ok, pure_eq_ok] at added
      obtain ⟨_, _, rfl⟩ := added
      refine ⟨⟨closed.child, closed.parent, ?_⟩, fun _ _ found => found, fun _ _ => rfl⟩
      intro other found aliased
      rw [Dict.lookup_insert] at aliased
      split at aliased
      · rw [← Option.some.inj aliased]
        exact listed
      · exact closed.path other found aliased

theorem addNode_spec {result : String × BlockInventory} (closed : inventory.Closed)
    (known : ∀ above, parent = some above → (inventory.node? above).isSome = true)
    (added : addNode u inventory parent node = .ok result) :
    result.2.Closed ∧ Grows inventory result.2 ∧ Placed result.2 parent node ∧
      node.get "maj:min" = .str result.1 ∧ (result.2.node? result.1).isSome = true := by
  simp only [addNode, bind_eq_ok, require_eq_ok] at added
  obtain ⟨_, _, path, _, name, _, rest⟩ := added
  split at rest
  · rename_i key path numbered _
    simp only [bind_eq_ok, require_eq_ok, pure_eq_ok, Bool.and_eq_true, Option.isNone_iff_eq_none]
      at rest
    obtain ⟨_, ⟨⟨⟨_, _⟩, fresh⟩, _⟩, kname, _, final, aliased, rfl⟩ := rest
    obtain ⟨closedOwn, growsOwn, placed⟩ := insert_spec closed fresh numbered known path
    have own : ((inventory.insert parent key path node).node? key).isSome = true := by
      rw [node?_insert fresh, if_pos rfl]
      rfl
    obtain ⟨closedFinal, growsFinal⟩ := addAlias_spec closedOwn own aliased
    exact ⟨closedFinal, growsOwn.trans growsFinal, growsFinal.placed placed, numbered,
      growsFinal.listed own⟩
  · cases rest

mutual

/-- A device and all below it are placed where they stand. -/
theorem visit_spec {inventory grown : BlockInventory} {parent : Option String} {payload : Json}
    (closed : inventory.Closed)
    (known : ∀ above, parent = some above → (inventory.node? above).isSome = true)
    (visited : visit u inventory parent payload = .ok grown) :
    grown.Closed ∧ Grows inventory grown ∧
      ∀ above found, Occurs parent payload above found → Placed grown above found := by
  match payload with
  | .obj node =>
      simp only [visit, bind_eq_ok] at visited
      obtain ⟨⟨key, added⟩, first, rest⟩ := visited
      obtain ⟨closedAdded, growsAdded, placed, numbered, listed⟩ := addNode_spec closed known first
      obtain ⟨closedGrown, growsRest, below⟩ := visitChildren_spec closedAdded listed rest
      refine ⟨closedGrown, growsAdded.trans growsRest, ?_⟩
      intro above found occurs
      cases occurs with
      | here => exact growsRest.placed placed
      | inside listed member named deeper =>
          rw [numbered] at named
          cases named
          exact below _ listed _ member above found deeper
  | .null => simp [visit] at visited
  | .bool _ => simp [visit] at visited
  | .int _ => simp [visit] at visited
  | .str _ => simp [visit] at visited
  | .arr _ => simp [visit] at visited

theorem visitChildren_spec {inventory grown : BlockInventory} {key : String} {fields : Device}
    (closed : inventory.Closed) (listed : (inventory.node? key).isSome = true)
    (visited : visitChildren u inventory key fields = .ok grown) :
    grown.Closed ∧ Grows inventory grown ∧
      ∀ children, Device.get fields "children" = .arr children → ∀ child ∈ children,
        ∀ above found, Occurs (some key) child above found → Placed grown above found := by
  match fields with
  | [] =>
      cases visited
      exact ⟨closed, .refl _, by simp [Device.get]⟩
  | (field, value) :: rest =>
      by_cases here : field = "children"
      · have own : Device.get ((field, value) :: rest) "children" = value := by
          simp [Device.get, here]
        cases value with
        | null =>
            simp only [visitChildren, if_pos here, Except.ok.injEq] at visited
            subst visited
            exact ⟨closed, .refl _, by simp [own]⟩
        | arr children =>
            simp only [visitChildren, if_pos here] at visited
            have known : ∀ above, some key = some above → (inventory.node? above).isSome = true := by
              rintro above ⟨⟩
              exact listed
            obtain ⟨closedGrown, grows, below⟩ := visitAll_spec closed known visited
            refine ⟨closedGrown, grows, ?_⟩
            intro others same
            rw [own] at same
            cases same
            exact below
        | bool _ => simp [visitChildren, here] at visited
        | int _ => simp [visitChildren, here] at visited
        | str _ => simp [visitChildren, here] at visited
        | obj _ => simp [visitChildren, here] at visited
      · have later : Device.get ((field, value) :: rest) "children" = Device.get rest "children" := by
          simp [Device.get, here]
        have onward : visitChildren u inventory key rest = .ok grown := by
          cases value <;> simpa only [visitChildren, if_neg here] using visited
        rw [later]
        exact visitChildren_spec closed listed onward

theorem visitAll_spec {inventory grown : BlockInventory} {parent : Option String} {payloads : List Json}
    (closed : inventory.Closed)
    (known : ∀ above, parent = some above → (inventory.node? above).isSome = true)
    (visited : visitAll u inventory parent payloads = .ok grown) :
    grown.Closed ∧ Grows inventory grown ∧ ∀ child ∈ payloads,
      ∀ above found, Occurs parent child above found → Placed grown above found := by
  match payloads with
  | [] =>
      cases visited
      exact ⟨closed, .refl _, by simp⟩
  | child :: rest =>
      simp only [visitAll, bind_eq_ok] at visited
      obtain ⟨next, first, others⟩ := visited
      obtain ⟨closedNext, growsNext, inside⟩ := visit_spec closed known first
      obtain ⟨closedGrown, growsRest, below⟩ :=
        visitAll_spec closedNext (fun above same => growsNext.listed (known above same)) others
      refine ⟨closedGrown, growsNext.trans growsRest, ?_⟩
      intro one member above found occurs
      rcases List.mem_cons.mp member with rfl | member
      · exact growsRest.placed (inside above found occurs)
      · exact below one member above found occurs

end

theorem nameParent_eq_ok {entry : String × Device} {next : BlockInventory}
    (named : nameParent u inventory entry = .ok next) :
    next.nodes = inventory.nodes ∧ next.paths = inventory.paths ∧
      (∀ key parent, inventory.Above key parent → next.Above key parent) ∧
      ∀ name parent, ancestryString u entry.2 "pkname" = .ok (some name) →
        inventory.paths[kernelPath name]? = some parent → next.Above entry.1 parent := by
  simp only [nameParent, bind_eq_ok] at named
  obtain ⟨pkname, read, rest⟩ := named
  cases pkname with
  | none =>
      cases rest
      refine ⟨rfl, rfl, fun _ _ above => above, ?_⟩
      intro name parent other
      rw [read] at other
      cases other
  | some name =>
      cases known : inventory.paths[kernelPath name]? with
      | none => simp [known] at rest
      | some parent =>
          simp only [known, bind_eq_ok, require_eq_ok, pure_eq_ok, beq_iff_eq] at rest
          obtain ⟨_, agrees, rfl⟩ := rest
          refine ⟨rfl, rfl, ?_, ?_⟩
          · intro key above found
            change (inventory.parents.insert entry.1 parent)[key]? = some above
            rw [Dict.lookup_insert]
            split
            · rename_i same
              subst same
              rw [Above] at found
              rw [Dict.getD_eq, found, Option.getD_some] at agrees
              rw [agrees]
            · exact found
          · intro other above readOther found
            rw [read] at readOther
            cases readOther
            rw [known] at found
            cases found
            exact Dict.lookup_insert_self _ _ _

/-- Naming parents keeps the devices and the parents known before, and every name is heard. -/
theorem nameParents_spec {entries : List (String × Device)} {final : BlockInventory}
    (named : thread (nameParent u) inventory entries = .ok final) :
    final.nodes = inventory.nodes ∧ final.paths = inventory.paths ∧
      (∀ key parent, inventory.Above key parent → final.Above key parent) ∧
      ∀ entry ∈ entries, ∀ name parent, ancestryString u entry.2 "pkname" = .ok (some name) →
        inventory.paths[kernelPath name]? = some parent → final.Above entry.1 parent := by
  induction entries generalizing inventory with
  | nil =>
      cases named
      simp
  | cons entry entries ih =>
      simp only [thread_cons, bind_eq_ok] at named
      obtain ⟨next, first, rest⟩ := named
      obtain ⟨nodes, paths, kept, heard⟩ := nameParent_eq_ok first
      obtain ⟨nodesFinal, pathsFinal, keptFinal, heardFinal⟩ := ih rest
      refine ⟨nodesFinal.trans nodes, pathsFinal.trans paths, ?_, ?_⟩
      · exact fun key parent above => keptFinal key parent (kept key parent above)
      · intro one member name parent read found
        rcases List.mem_cons.mp member with rfl | member
        · exact keptFinal _ _ (heard name parent read found)
        · rw [← paths] at found
          exact heardFinal one member name parent read found

variable {payload : Json}

/-- An accepted payload lists devices, which are placed as they stand and then name their parents. -/
theorem ofPayload_eq_ok (accepted : ofPayload u casefold payload = .ok inventory) :
    ∃ fields devices tree, payload = .obj fields ∧ Device.get fields "blockdevices" = .arr devices ∧
      visitAll u ⟨[], ∅, ∅⟩ none devices = .ok tree ∧
      thread (nameParent u) tree tree.nodes = .ok inventory := by
  unfold ofPayload at accepted
  split at accepted
  · rename_i fields
    split at accepted
    · rename_i devices listed
      simp only [bind_eq_ok, pure_eq_ok] at accepted
      obtain ⟨tree, visited, named, parents, _, _, rfl⟩ := accepted
      exact ⟨fields, devices, tree, rfl, listed, visited, parents⟩
    · cases accepted
  · cases accepted

/-- What a payload says of the parent of a device: where the device stands, or the name of its parent. -/
inductive TellsParent (u : Unicode) (payload : Json) (inventory : BlockInventory) : String → String → Prop
  | stands {fields node : Device} {devices : List Json} {device : Json} {key parent : String} :
      payload = .obj fields → Device.get fields "blockdevices" = .arr devices → device ∈ devices →
      Occurs none device (some parent) node → node.get "maj:min" = .str key →
      TellsParent u payload inventory key parent
  | names {fields node : Device} {devices : List Json} {device : Json} {above : Option String}
      {key name parent : String} :
      payload = .obj fields → Device.get fields "blockdevices" = .arr devices → device ∈ devices →
      Occurs none device above node → node.get "maj:min" = .str key →
      ancestryString u node "pkname" = .ok (some name) →
      inventory.paths[kernelPath name]? = some parent → TellsParent u payload inventory key parent

theorem closed_empty : Closed ⟨[], ∅, ∅⟩ where
  child key parent above := by simp [Above] at above
  parent key parent above := by simp [Above] at above
  path path key found := by simp at found

/-- Everything an accepted payload says of parents is so in the inventory. -/
theorem above_of_told (accepted : ofPayload u casefold payload = .ok inventory) {key parent : String}
    (told : TellsParent u payload inventory key parent) : inventory.Above key parent := by
  obtain ⟨fields, devices, tree, rfl, listed, visited, named⟩ := ofPayload_eq_ok accepted
  obtain ⟨_, _, placed⟩ := visitAll_spec closed_empty (by simp) visited
  obtain ⟨_, paths, kept, heard⟩ := nameParents_spec named
  cases told with
  | stands same again member occurs numbered =>
      cases same
      rw [listed] at again
      cases again
      obtain ⟨key', numbered', _, above⟩ := placed _ member _ _ occurs
      rw [numbered] at numbered'
      cases numbered'
      exact kept key parent above
  | names same again member occurs numbered read found =>
      cases same
      rw [listed] at again
      cases again
      obtain ⟨key', numbered', found', _⟩ := placed _ member _ _ occurs
      rw [numbered] at numbered'
      cases numbered'
      rw [paths] at found
      exact heard _ (mem_nodes found') _ parent read found

theorem nameParents_closed {entries : List (String × Device)} {final : BlockInventory}
    (closed : inventory.Closed)
    (listed : ∀ entry ∈ entries, (inventory.node? entry.1).isSome = true)
    (named : thread (nameParent u) inventory entries = .ok final) : final.Closed := by
  refine (thread_invariant (fun state => state.Closed ∧ state.nodes = inventory.nodes) ?_ named
    ⟨closed, rfl⟩).1
  rintro state entry next member stepped ⟨closedState, nodes⟩
  have own : (state.node? entry.1).isSome = true := by
    rw [node?, nodes]
    exact listed entry member
  simp only [nameParent, bind_eq_ok] at stepped
  obtain ⟨pkname, _, rest⟩ := stepped
  cases pkname with
  | none =>
      cases rest
      exact ⟨closedState, nodes⟩
  | some name =>
      cases known : state.paths[kernelPath name]? with
      | none => simp [known] at rest
      | some parent =>
          simp only [known, bind_eq_ok, pure_eq_ok] at rest
          obtain ⟨_, _, rfl⟩ := rest
          refine ⟨⟨?_, ?_, closedState.path⟩, nodes⟩
          · intro key above found
            rw [Above, Dict.lookup_insert] at found
            split at found
            · rename_i same
              rw [← same]
              exact own
            · exact closedState.child key above found
          · intro key above found
            rw [Above, Dict.lookup_insert] at found
            split at found
            · cases found
              exact closedState.path _ _ known
            · exact closedState.parent key above found

/-- Parents and paths of an accepted payload are of its devices. -/
theorem closed_of_payload (accepted : ofPayload u casefold payload = .ok inventory) :
    inventory.Closed := by
  obtain ⟨_, _, tree, _, _, visited, named⟩ := ofPayload_eq_ok accepted
  obtain ⟨closed, _, _⟩ := visitAll_spec closed_empty (by simp) visited
  refine nameParents_closed closed ?_ named
  intro entry member
  rw [node?, Option.isSome_map, List.find?_isSome]
  exact ⟨entry, member, by simp⟩

theorem rightUnique_above : Relator.RightUnique inventory.Above := by
  intro key parent other first second
  exact Option.some.inj (first.symm.trans second)

variable {direct : Bool} {allowed : Option (List String)}

theorem turn_up {parent : String} (up : inventory.turn direct allowed key = .up parent) :
    (inventory.node? key).isSome = true ∧ inventory.Above key parent := by
  unfold turn at up
  cases found : inventory.node? key with
  | none => simp [found] at up
  | some node =>
      simp only [found] at up
      refine ⟨rfl, ?_⟩
      cases above : inventory.parents[key]? with
      | none =>
          split at up
          · split_ifs at up
            all_goals simp [above] at up
          · cases up
      | some its =>
          split at up
          · split_ifs at up
            simp only [above, Option.elim_some, Turn.up.injEq] at up
            rw [Above, above, up]
          · cases up

theorem turn_found (found : inventory.turn direct allowed key = .found) : inventory.WholeDisk key := by
  unfold turn at found
  cases known : inventory.node? key with
  | none => simp [known] at found
  | some node =>
      simp only [known] at found
      split at found
      · rename_i kind typed
        split_ifs at found with top
        · refine ⟨top.2, node, known, ?_⟩
          simp [Device.isText, typed, top.1]
        · cases above : inventory.parents[key]? <;> simp [above] at found
      · cases found

/-- `disk` ends on every inventory: more fuel than devices does not change what it says. -/
theorem disk_ends (inventory : BlockInventory) (direct : Bool) (allowed : Option (List String))
    (key : String) : ∀ fuel, inventory.nodes.length < fuel →
      inventory.diskWithin fuel direct allowed key = some (inventory.disk key direct allowed) := by
  have within : ∀ key parent, inventory.turn direct allowed key = .up parent →
      key ∈ inventory.nodes.map Prod.fst := by
    intro key parent up
    obtain ⟨node, found⟩ := Option.isSome_iff_exists.mp (turn_up up).1
    exact List.mem_map_of_mem (mem_nodes found)
  obtain ⟨result, ends⟩ : ∃ result, ∀ fuel, (inventory.nodes.map Prod.fst).length < fuel →
      inventory.diskWithin fuel direct allowed key = some result := climb_ends within key
  rw [List.length_map] at ends
  intro fuel enough
  have own : inventory.disk key direct allowed = result := by
    rw [disk, ends _ (Nat.lt_succ_self _), Option.getD_some]
  rw [own]
  exact ends fuel enough

/-- What `disk` finds is a whole disk that holds the device. -/
theorem disk_eq_ok {disk : String} (found : inventory.disk key direct allowed = .ok disk) :
    inventory.On disk key ∧ inventory.WholeDisk disk := by
  have ended := disk_ends inventory direct allowed key _ (Nat.lt_succ_self _)
  rw [found, diskWithin] at ended
  obtain ⟨above, top⟩ := climb_found ended
  exact ⟨Relation.ReflTransGen.mono (fun _ _ up => (turn_up up).2) _ _ above, turn_found top⟩

/-- A device lies on at most one whole disk. -/
theorem on_unique {disk other : String} (first : inventory.On disk key) (second : inventory.On other key)
    (whole : inventory.WholeDisk disk) (wholeOther : inventory.WholeDisk other) : disk = other := by
  have none : ∀ {top : String}, inventory.WholeDisk top → ∀ parent, ¬inventory.Above top parent := by
    intro top whole parent above
    rw [Above, whole.1] at above
    cases above
  exact top_unique rightUnique_above first second (none whole) (none wholeOther)

end BlockInventory

end Modelark.Slice.Hardware
