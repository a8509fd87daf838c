import Modelark.Execution.DriveMutation
import Modelark.Library.OrderedLocks

/-!
# Keys of the drive fences

Every identity of a drive has the key of its facts without a serial among its keys, so its holders
exclude each other across a repair of the serial, and holders of several drives take their keys in
the order of the keys.
-/

namespace Modelark.Execution

open Library OrderedLocks

/-- A fence key in the order in which fences are taken. -/
abbrev SortedKey := String ×ₗ Nat

namespace FenceIdentity

/-- Two captures of one drive in one epoch, up to its serial and its fingerprint. -/
structure SameDrive (one other : FenceIdentity) : Prop where
  fsUuid : one.fsUuid = other.fsUuid
  annexUuid : one.annexUuid = other.annexUuid
  capacity : one.filesystemCapacityBytes = other.filesystemCapacityBytes
  epoch : one.identityEpoch = other.identityEpoch

/-- The serials a fingerprint of the identity may have been made with. -/
def serials (identity : FenceIdentity) : List (Option String) :=
  [none, nonempty? identity.serial]

end FenceIdentity

namespace FenceRules

variable (rules : FenceRules)

/-- `compatible_keys`, nothing where an identity is refused. -/
def compatibleKeys (identities : List FenceIdentity) : Option (List SortedKey) :=
  (identities.mapM rules.lockKeys).map fun keys => sortedSet (keys.flatten.map toLex)

/-- The fingerprints of two identities do not collide. -/
def Distinguishes (one other : FenceIdentity) : Prop :=
  ∀ serial ∈ one.serials, ∀ serial' ∈ other.serials, ∀ capacity capacity',
    one.filesystemCapacityBytes = some capacity → other.filesystemCapacityBytes = some capacity' →
    rules.identityFingerprintV1 one.fsUuid one.annexUuid serial capacity =
      rules.identityFingerprintV1 other.fsUuid other.annexUuid serial' capacity' →
    one.fsUuid = other.fsUuid ∧ one.annexUuid = other.annexUuid ∧ serial = serial' ∧
      capacity = capacity'

variable {rules} {one other : FenceIdentity} {keys keys' : List (String × Nat)}

/-- Without a collision of the digest no fingerprints collide. -/
theorem distinguishes_of_injective (injective : Function.Injective rules.sha256) (one other : FenceIdentity) :
    rules.Distinguishes one other := by
  intro serial _ serial' _ capacity capacity' _ _ same
  have fields := Json.fields_of_dict_eq (Json.dumps_injective (injective same)) rfl (by simp)
  simp only [List.cons.injEq, Prod.mk.injEq, Json.ofText_inj, Json.int.injEq, Nat.cast_inj, true_and,
    and_true] at fields
  obtain ⟨annex, capacities, fs, serials⟩ := fields
  exact ⟨fs, annex, serials, capacities⟩

/-- The keys of an identity are its fingerprints with and without its serial. -/
theorem mem_lockKeys (locked : rules.lockKeys one = some keys) {key : String × Nat} :
    key ∈ keys ↔ ∃ capacity serial, one.filesystemCapacityBytes = some capacity ∧
      serial ∈ one.serials ∧
      key = (rules.identityFingerprintV1 one.fsUuid one.annexUuid serial capacity,
        one.identityEpoch) := by
  unfold lockKeys at locked
  cases known : one.filesystemCapacityBytes with
  | none => simp [known] at locked
  | some capacity =>
      simp only [known] at locked
      split at locked
      · obtain rfl := Option.some.inj locked
        simp [FenceIdentity.serials, eq_comm]
      · cases locked

/-- The key without a serial is shared by all captures of a drive in one epoch. -/
theorem shared_key (same : one.SameDrive other) (locked : rules.lockKeys one = some keys)
    (locked' : rules.lockKeys other = some keys') : ∃ key ∈ keys, key ∈ keys' := by
  cases known : one.filesystemCapacityBytes with
  | none => simp [lockKeys, known] at locked
  | some capacity =>
      refine ⟨_, (mem_lockKeys locked).mpr ⟨capacity, none, known, List.mem_cons_self .., rfl⟩, ?_⟩
      refine (mem_lockKeys locked').mpr ⟨capacity, none, same.capacity ▸ known,
        List.mem_cons_self .., ?_⟩
      rw [same.fsUuid, same.annexUuid, same.epoch]

/-- A common key is made of the facts of both. -/
theorem facts_of_common (distinct : rules.Distinguishes one other)
    (locked : rules.lockKeys one = some keys) (locked' : rules.lockKeys other = some keys')
    {key : String × Nat} (member : key ∈ keys) (member' : key ∈ keys') :
    one.SameDrive other ∧ ∃ capacity serial, one.filesystemCapacityBytes = some capacity ∧
      serial ∈ one.serials ∧ serial ∈ other.serials ∧
      key = (rules.identityFingerprintV1 one.fsUuid one.annexUuid serial capacity,
        one.identityEpoch) := by
  obtain ⟨capacity, serial, known, among, rfl⟩ := (mem_lockKeys locked).mp member
  obtain ⟨capacity', serial', known', among', same⟩ := (mem_lockKeys locked').mp member'
  obtain ⟨fingerprints, epochs⟩ := Prod.mk.inj same
  obtain ⟨fs, annex, rfl, rfl⟩ :=
    distinct serial among serial' among' capacity capacity' known known' fingerprints
  exact ⟨⟨fs, annex, known.trans known'.symm, epochs⟩, capacity, serial, known, among, among', rfl⟩

theorem mem_collected {identities : List FenceIdentity} {all : List (List (String × Nat))}
    (collected : identities.mapM rules.lockKeys = some all) (member : one ∈ identities)
    (locked : rules.lockKeys one = some keys) : keys ∈ all := by
  induction identities generalizing all with
  | nil => cases member
  | cons first rest ih =>
      simp only [List.mapM_cons, Option.bind_eq_bind, Option.bind_eq_some_iff, Option.pure_def,
        Option.some.injEq] at collected
      obtain ⟨firstKeys, firstLocked, restKeys, restCollected, rfl⟩ := collected
      rcases List.mem_cons.mp member with rfl | later
      · obtain rfl := Option.some.inj (locked.symm.trans firstLocked)
        exact List.mem_cons_self ..
      · exact List.mem_cons_of_mem _ (ih restCollected later)

theorem locked_of_compatible {identities : List FenceIdentity} {sorted : List SortedKey}
    (compatible : rules.compatibleKeys identities = some sorted) (member : one ∈ identities) :
    ∃ keys, rules.lockKeys one = some keys := by
  obtain ⟨all, collected, rfl⟩ := Option.map_eq_some_iff.mp compatible
  clear compatible
  induction identities generalizing all with
  | nil => cases member
  | cons first rest ih =>
      simp only [List.mapM_cons, Option.bind_eq_bind, Option.bind_eq_some_iff, Option.pure_def,
        Option.some.injEq] at collected
      obtain ⟨firstKeys, firstLocked, restKeys, restCollected, rfl⟩ := collected
      rcases List.mem_cons.mp member with rfl | later
      · exact ⟨firstKeys, firstLocked⟩
      · exact ih later restKeys restCollected

theorem mem_compatibleKeys {identities : List FenceIdentity} {sorted : List SortedKey}
    (compatible : rules.compatibleKeys identities = some sorted) (member : one ∈ identities)
    (locked : rules.lockKeys one = some keys) {key : String × Nat} (among : key ∈ keys) :
    toLex key ∈ sorted := by
  obtain ⟨all, collected, rfl⟩ := Option.map_eq_some_iff.mp compatible
  rw [mem_sortedSet, List.mem_map]
  exact ⟨key, List.mem_flatten.mpr ⟨keys, mem_collected collected member locked, among⟩, rfl⟩

/-- The compatible keys of two captures of one drive have a key in common. -/
theorem shared_compatible {identities identities' : List FenceIdentity}
    {sorted sorted' : List SortedKey} (compatible : rules.compatibleKeys identities = some sorted)
    (compatible' : rules.compatibleKeys identities' = some sorted') (member : one ∈ identities)
    (member' : other ∈ identities') (same : one.SameDrive other) :
    ∃ key ∈ sorted, key ∈ sorted' := by
  obtain ⟨keys, locked⟩ := locked_of_compatible compatible member
  obtain ⟨keys', locked'⟩ := locked_of_compatible compatible' member'
  obtain ⟨key, among, among'⟩ := shared_key same locked locked'
  exact ⟨_, mem_compatibleKeys compatible member locked among,
    mem_compatibleKeys compatible' member' locked' among'⟩

end FenceRules

open FenceRules in
/-- The fences of the drives: captures of one drive in one epoch share a key, and captures that differ
    in more than the serial share none, while different serials leave the key without a serial. In
    every run of holders, two that have the keys of one drive both share them, and no holders wait for
    each other in a cycle. -/
theorem fences_exclude {ι ℓ : Type} [DecidableEq ι] (rules : FenceRules)
    (driveLockPath : SortedKey → ℓ) :
    (∀ one other keys keys', rules.lockKeys one = some keys → rules.lockKeys other = some keys' →
      one.SameDrive other → ∃ key ∈ keys, key ∈ keys') ∧
    (∀ one other keys keys', rules.lockKeys one = some keys → rules.lockKeys other = some keys' →
      rules.Distinguishes one other → ¬one.SameDrive other → ∀ key ∈ keys, key ∉ keys') ∧
    (∀ one other keys keys', rules.lockKeys one = some keys → rules.lockKeys other = some keys' →
      rules.Distinguishes one other → one.SameDrive other →
        nonempty? one.serial ≠ nonempty? other.serial → ∀ key, key ∈ keys ∧ key ∈ keys' ↔
          ∃ capacity, one.filesystemCapacityBytes = some capacity ∧
            key = (rules.identityFingerprintV1 one.fsUuid one.annexUuid none capacity,
              one.identityEpoch)) ∧
    (∀ (allowed : Set SortedKey) (state : State ι SortedKey), Reached driveLockPath allowed state →
      (∀ party party' request request' identities identities' one other, party ≠ party' →
        state party = some request → state party' = some request' →
        rules.compatibleKeys identities = some request.keys →
        rules.compatibleKeys identities' = some request'.keys →
        one ∈ identities → other ∈ identities' → one.SameDrive other →
        request.complete → request'.complete →
          request.shared = true ∧ request'.shared = true) ∧
      (allowed.InjOn driveLockPath →
        ∀ party, ¬Relation.TransGen (WaitsFor driveLockPath state) party party)) := by
  refine ⟨fun _ _ _ _ locked locked' same => shared_key same locked locked', ?_, ?_, ?_⟩
  · intro one other keys keys' locked locked' distinct apart key member member'
    exact apart (facts_of_common distinct locked locked' member member').1
  · intro one other keys keys' locked locked' distinct same serials key
    constructor
    · rintro ⟨member, member'⟩
      obtain ⟨_, capacity, serial, known, among, among', rfl⟩ :=
        facts_of_common distinct locked locked' member member'
      refine ⟨capacity, known, ?_⟩
      simp only [FenceIdentity.serials, List.mem_cons, List.not_mem_nil, or_false] at among among'
      rcases among with rfl | rfl
      · rfl
      · rcases among' with absent | present
        · rw [absent]
        · exact absurd present serials
    · rintro ⟨capacity, known, rfl⟩
      refine ⟨(mem_lockKeys locked).mpr ⟨capacity, none, known, List.mem_cons_self .., rfl⟩,
        (mem_lockKeys locked').mpr ⟨capacity, none, same.capacity ▸ known, List.mem_cons_self .., ?_⟩⟩
      rw [same.fsUuid, same.annexUuid, same.epoch]
  · intro allowed state reached
    refine ⟨?_, reached.no_cycle⟩
    intro party party' request request' identities identities' one other apart asked asked'
      compatible compatible' member member' same complete complete'
    obtain ⟨key, among, among'⟩ := shared_compatible compatible compatible' member member' same
    exact reached.exclusive apart asked asked' complete complete' among among'

/-- Rules whose fingerprints are the texts that are digested. -/
def plainRules : FenceRules where
  unicode := Archive.asciiUnicode
  sha256 := id

/-- The key of a drive with this file system and serial. -/
def plainKey (fsUuid : String) (serial : Option String) : String × Nat :=
  (plainRules.identityFingerprintV1 (some fsUuid) none serial 9, 1)

def plainCapture (fsUuid : String) (serial : Option String) : FenceIdentity where
  fsUuid := some fsUuid
  annexUuid := none
  serial := serial
  filesystemCapacityBytes := some 9
  identityEpoch := 1
  identityFingerprint := some (plainKey fsUuid none).1

theorem plainRules_distinguishes (one other : FenceIdentity) : plainRules.Distinguishes one other :=
  FenceRules.distinguishes_of_injective Function.injective_id one other

/-- A request for the key of the drive, which others may share. -/
def sharedRequest (taken : Nat) : Request SortedKey :=
  ⟨[toLex (plainKey "f" none)], true, false, taken⟩

/-- Two readers of the drive. -/
theorem sharedRequest_reached : Reached id Set.univ fun _ : Bool => some (sharedRequest 1) := by
  have acquires (state : State Bool SortedKey) (party : Bool) (idle : state party = none)
      (sharing : ∀ other request, state other = some request → request.shared = true)
      (reached : Reached id Set.univ state) :
      Reached id Set.univ (Function.update state party (some (sharedRequest 1))) := by
    have asked : Step id Set.univ state (Function.update state party (some (sharedRequest 0))) :=
      .ask party [toLex (plainKey "f" none)] true false idle fun _ _ => trivial
    have free : Free id (Function.update state party (some (sharedRequest 0)))
        (toLex (plainKey "f" none)) true := by
      intro other request found _ _ _
      refine ⟨?_, rfl⟩
      by_cases here : other = party
      · subst here
        rw [Function.update_self] at found
        cases found
        rfl
      · rw [Function.update_of_ne here] at found
        exact sharing other request found
    have taken : Step id Set.univ _ _ :=
      .take party (sharedRequest 0) _ (Function.update_self ..) rfl free
    rw [Function.update_idem] at taken
    exact (reached.tail asked).tail taken
  have one := acquires (fun _ => none) true rfl (by simp) .refl
  have both := acquires _ false rfl (by
    intro other request found
    cases other with
    | false => cases found
    | true =>
        cases found
        rfl) one
  convert both using 1
  funext party
  cases party <;> rfl

/-- Before and after the repair of its serial a drive has one key in common, the one without a serial; another
    drive has no key of it; and its readers hold the key together. -/
theorem fences_exclude_repaired :
    (∃ key ∈ [plainKey "f" none], key ∈ [plainKey "f" none, plainKey "f" (some "A")]) ∧
    (∀ key ∈ [plainKey "f" none], key ∉ [plainKey "g" none]) ∧
    (∀ key, key ∈ [plainKey "f" none] ∧ key ∈ [plainKey "f" none, plainKey "f" (some "A")] ↔
      ∃ capacity, some 9 = some capacity ∧
        key = (plainRules.identityFingerprintV1 (some "f") none none capacity, 1)) ∧
    (sharedRequest 1).shared = true := by
  have repaired : plainRules.lockKeys (plainCapture "f" none) = some [plainKey "f" none] ∧
      plainRules.lockKeys (plainCapture "f" (some "A")) =
        some [plainKey "f" none, plainKey "f" (some "A")] ∧
      plainRules.lockKeys (plainCapture "g" none) = some [plainKey "g" none] ∧
      plainRules.compatibleKeys [plainCapture "f" none] = some (sharedRequest 1).keys := by
    decide +kernel
  obtain ⟨before, after, other, compatible⟩ := repaired
  obtain ⟨common, none', exactly, runs⟩ := @fences_exclude Bool SortedKey _ plainRules id
  refine ⟨common _ _ _ _ before after ⟨rfl, rfl, rfl, rfl⟩,
    none' _ _ _ _ before other (plainRules_distinguishes _ _) ?_,
    exactly _ _ _ _ before after (plainRules_distinguishes _ _) ⟨rfl, rfl, rfl, rfl⟩ (by decide), ?_⟩
  · intro same
    exact absurd same.fsUuid (by decide)
  · exact ((runs Set.univ _ sharedRequest_reached).1 true false _ _ _ _ _ _ (by decide) rfl rfl compatible
      compatible List.mem_cons_self List.mem_cons_self ⟨rfl, rfl, rfl, rfl⟩ rfl rfl).1

/-- Clones of a file system on drives with different serials have a common key. -/
theorem cloned_share_key :
    plainRules.Distinguishes (plainCapture "f" (some "A")) (plainCapture "f" (some "B")) ∧
    (plainCapture "f" (some "A")).serial ≠ (plainCapture "f" (some "B")).serial ∧
    ∃ keys keys', plainRules.lockKeys (plainCapture "f" (some "A")) = some keys ∧
      plainRules.lockKeys (plainCapture "f" (some "B")) = some keys' ∧ ∃ key ∈ keys, key ∈ keys' :=
  ⟨plainRules_distinguishes _ _, by decide, [plainKey "f" none, plainKey "f" (some "A")],
    [plainKey "f" none, plainKey "f" (some "B")], by decide +kernel, by decide +kernel,
    plainKey "f" none, List.mem_cons_self, List.mem_cons_self⟩

end Modelark.Execution
