import Modelark.Revision.Generations

/-!
# What a drive step does to one drive

A step of a drive operation leaves a drive and its anchors as they are, begins a generation of it, or
anchors its current generation with what was observed. In the last two cases the operation holds a fence
of the drive, before and after.
-/

namespace Modelark.Admission

open Library Execution Revision

abbrev FenceKey := String × Nat

/-- `compatible_keys`, of identities that all have keys. -/
def compatibleKeys (rules : FenceRules) (identities : List FenceIdentity) : List FenceKey :=
  identities.flatMap fun identity => (rules.lockKeys identity).getD []

/-- The drive fences that an operation holds between its steps. -/
def fences (rules : FenceRules) : DriveOp → List FenceKey
  | .idle => []
  | .entering _ _ _ captured => compatibleKeys rules (captured.map Captured.identity)
  | .mutating envelope | .finishing envelope =>
      compatibleKeys rules (envelope.advanced.map fun entry => entry.1.identity)
  | .reconciling job => compatibleKeys rules job.identities
  | .settling settled => compatibleKeys rules settled.job.identities
  | .repairing repair | .enriching repair => repair.state.fenceKeys

section Keys

variable {rules : FenceRules} {identity : FenceIdentity} {keys : List FenceKey}

theorem mem_compatibleKeys {identities : List FenceIdentity} (member : identity ∈ identities)
    (locked : rules.lockKeys identity = some keys) {key : FenceKey} (among : key ∈ keys) :
    key ∈ compatibleKeys rules identities :=
  List.mem_flatMap.mpr ⟨identity, member, by rw [locked]; exact among⟩

/-- Among the keys are the one without a serial and the one of the saved fingerprint. -/
theorem lockKeys_spec (locked : rules.lockKeys identity = some keys) :
    ∃ capacity fingerprint, identity.filesystemCapacityBytes = some capacity ∧
      identity.identityFingerprint = some fingerprint ∧
      (rules.identityFingerprintV1 identity.fsUuid identity.annexUuid none capacity,
        identity.identityEpoch) ∈ keys ∧ (fingerprint, identity.identityEpoch) ∈ keys := by
  unfold FenceRules.lockKeys at locked
  cases known : identity.filesystemCapacityBytes with
  | none => simp [known] at locked
  | some capacity =>
      simp only [known] at locked
      split_ifs at locked with proven
      cases locked
      simp only [Bool.and_eq_true, Option.any_eq_true] at proven
      obtain ⟨_, fingerprint, saved, among⟩ := proven
      refine ⟨capacity, fingerprint, rfl, saved, ?_, ?_⟩
      · exact List.mem_map.mpr ⟨_, List.mem_dedup.mpr List.mem_cons_self, rfl⟩
      · exact List.mem_map.mpr ⟨_, List.mem_dedup.mpr (List.contains_iff_mem.mp among), rfl⟩

theorem lockKeys_nonempty (locked : rules.lockKeys identity = some keys) : ∃ key, key ∈ keys := by
  obtain ⟨_, _, _, _, shared, _⟩ := lockKeys_spec locked
  exact ⟨_, shared⟩

end Keys

/-- The holder of these keys holds one of each identity of a drive. -/
structure Guarded (rules : FenceRules) (held : List FenceKey) (before after : FenceIdentity) : Prop where
  old : ∀ keys, rules.lockKeys before = some keys → ∃ key ∈ keys, key ∈ held
  new : ∀ keys, rules.lockKeys after = some keys → ∃ key ∈ keys, key ∈ held

theorem Guarded.of_keys {rules : FenceRules} {held keys : List FenceKey} {identity : FenceIdentity}
    (locked : rules.lockKeys identity = some keys) (holds : ∀ key ∈ keys, key ∈ held) :
    Guarded rules held identity identity := by
  obtain ⟨key, member⟩ := lockKeys_nonempty locked
  have guard : ∀ others, rules.lockKeys identity = some others → ∃ key ∈ others, key ∈ held := by
    intro others same
    rw [locked] at same
    cases same
    exact ⟨key, member, holds key member⟩
  exact ⟨guard, guard⟩

/-- The current generation of a drive. -/
def currentKey (drive : FleetDrive) (label : String) : String × Nat × Nat :=
  (label, drive.fence.identityEpoch, drive.writeGeneration)

/-- What a step observes of the free space of a drive before it anchors it. -/
inductive Observes (before : Fleet) : DriveOp → DriveAction → String → Option Nat → Prop where
  | operator {label generation proven} :
      Observes before .idle (.publishCleanAnchor label generation proven) label proven.observation.freeBytes
  | mutation {envelope : Envelope} {world entry} (member : entry ∈ envelope.advanced) :
      Observes before (.finishing envelope) (.close world) entry.1.label
        (world.observeAfter entry.1.label).freeBytes
  /-- The drive is still as the reconciliation captured it. -/
  | settlement {settled childFenceHeld}
      (current : before.findDrive settled.job.call.label = some settled.job.facts) :
      Observes before (.settling settled) (.settle childFenceHeld) settled.job.call.label
        settled.final.free
  | bridge {repair world final} :
      Observes before (.repairing repair) (.recover world final) repair.state.facts.driveLabel final.free
  | enrichment {repair world final} :
      Observes before (.enriching repair) (.enrich world final) repair.state.facts.driveLabel final.free

/-- What becomes of one drive. -/
inductive Turn (rules : FenceRules) (held : List FenceKey) (op : DriveOp) (action : DriveAction)
    (rows : List DirtyGeneration) (before after : Fleet) (label : String) : Prop where
  | kept (drive : after.findDrive label = before.findDrive label)
      (anchors : ∀ anchor ∈ after.anchors, anchor.driveLabel = label → anchor ∈ before.anchors)
  | dirtied (old drive : FleetDrive) (was : before.findDrive label = some old)
      (found : after.findDrive label = some drive)
      (guarded : Guarded rules held old.fence drive.fence)
      (proven : drive.fence.identityFingerprint.isSome = true)
      (begun : currentKey drive label ∈ rows.map generationKey)
      (anchors : ∀ anchor ∈ after.anchors, anchor.driveLabel = label → anchor ∈ before.anchors)
  | anchored (old drive : FleetDrive) (anchor : CleanAnchor) (was : before.findDrive label = some old)
      (found : after.findDrive label = some drive)
      (guarded : Guarded rules held old.fence drive.fence)
      (member : anchor ∈ after.anchors) (key : anchorKey anchor = currentKey drive label)
      (shows : Observes before op action label anchor.anchorFreeBytes)
      (fingerprint : anchor.identityFingerprint = drive.fence.identityFingerprint)
      (authority : anchor.writeAuthority = drive.writeAuthority)

section Turns

variable {rules : FenceRules} {held : List FenceKey} {op : DriveOp} {action : DriveAction}
variable {rows : List DirtyGeneration} {fleet after : Fleet} {label : String}

/-- A step that leaves the drives and the anchors. -/
theorem Turn.of_rows (drives : after.drives = fleet.drives) (anchors : after.anchors = fleet.anchors)
    (label : String) : Turn rules held op action rows fleet after label :=
  .kept (by rw [Fleet.findDrive, Fleet.findDrive, drives]) (fun anchor member _ => anchors ▸ member)

theorem requireIdentity_fingerprint {observation : Observation} {facts : DriveFacts} {result : Unit}
    (identity : Fleet.requireIdentity observation facts = .ok result) :
    observation.fingerprint = facts.identityFingerprint := by
  simp only [Fleet.requireIdentity, bind_eq_ok, require_eq_ok, Bool.and_eq_true, beq_iff_eq] at identity
  obtain ⟨_, _, ⟨_, same⟩, _⟩ := identity
  exact same

theorem findDrive_updated (fleet : Fleet) (change : FleetDrive → FleetDrive)
    (keeps : ∀ drive, (change drive).driveLabel = drive.driveLabel) (label other : String) :
    ({ fleet with
      drives := fleet.drives.map fun drive =>
        if drive.driveLabel = label then change drive else drive } : Fleet).findDrive other =
      (fleet.findDrive other).map fun drive => if other = label then change drive else drive :=
  find_updated change keeps label other

/-- The drives that `advanceOne` leaves. -/
theorem advanceOne_spec {operationCode : String} {captured : Option DriveFacts}
    {owner : Option (String × Nat)} {generation : Nat}
    (advanced : fleet.advanceOne label operationCode captured owner = .ok (after, generation)) :
    ∃ drive row, fleet.findDrive label = some drive ∧ after.dirty = fleet.dirty ++ [row] ∧
      after.anchors = fleet.anchors ∧
      generationKey row = (label, drive.fence.identityEpoch, drive.writeGeneration + 1) ∧
      ∀ other, after.findDrive other = (fleet.findDrive other).map fun found =>
        if other = label then { found with writeGeneration := drive.writeGeneration + 1 } else found := by
  obtain ⟨drive, found, rfl, _, rfl⟩ := advanceOne_eq_ok advanced
  refine ⟨drive, _, found, rfl, rfl, rfl, fun other => ?_⟩
  exact findDrive_updated fleet (fun row => { row with writeGeneration := drive.writeGeneration + 1 })
    (fun _ => rfl) label other

/-- An anchor of one drive, of which another generation or identity may have been written before. -/
theorem anchored_turn {middle : Fleet} {epoch generation : Nat} {observation : Observation} {now : String}
    (published : middle.publishAnchorLocked label epoch generation observation now = .ok after)
    (others : ∀ other, other ≠ label → middle.findDrive other = fleet.findDrive other)
    (anchors : middle.anchors = fleet.anchors)
    (guarded : ∀ drive, middle.findDrive label = some drive →
      ∃ old, fleet.findDrive label = some old ∧ Guarded rules held old.fence drive.fence)
    (shows : Observes fleet op action label observation.freeBytes) (other : String) :
    Turn rules held op action rows fleet after other := by
  obtain ⟨drive, found, rfl, rfl, identity, rfl⟩ := publishAnchorLocked_eq_ok published
  by_cases same : other = label
  · subst same
    obtain ⟨old, was, guard⟩ := guarded drive found
    refine .anchored old drive _ was found guard (List.mem_append_right _ List.mem_cons_self) rfl shows
      (requireIdentity_fingerprint identity) rfl
  · refine .kept (others other same) ?_
    intro anchor member labelled
    rcases List.mem_append.mp member with earlier | new
    · exact anchors ▸ earlier
    · obtain rfl := List.mem_singleton.mp new
      exact absurd labelled.symm same

theorem publish_turn {epoch generation : Nat} {observation : Observation} {now : String}
    (published : fleet.publishAnchorLocked label epoch generation observation now = .ok after)
    (guarded : ∀ drive, fleet.findDrive label = some drive → Guarded rules held drive.fence drive.fence)
    (shows : Observes fleet op action label observation.freeBytes) (other : String) :
    Turn rules held op action rows fleet after other :=
  anchored_turn published (fun _ _ => rfl) rfl (fun drive found => ⟨drive, found, guarded drive found⟩)
    shows other

/-- A step that writes rows of dirty generations, and what it does to every drive. -/
def Turns (rules : FenceRules) (held : List FenceKey) (op : DriveOp) (action : DriveAction)
    (before after : Fleet) : Prop :=
  ∃ rows, after.dirty = before.dirty ++ rows ∧
    ∀ label, Turn rules held op action rows before after label

theorem Turns.reads : Turns rules held op action fleet fleet :=
  ⟨[], by simp, fun label => .of_rows rfl rfl label⟩

/-- Only the rows of drives and evidence count. -/
theorem Turns.of_rows {last : Fleet} (turns : Turns rules held op action fleet after)
    (drives : last.drives = after.drives) (dirty : last.dirty = after.dirty)
    (anchors : last.anchors = after.anchors) : Turns rules held op action fleet last := by
  obtain ⟨rows, grown, turns⟩ := turns
  refine ⟨rows, dirty.trans grown, fun label => ?_⟩
  have same : last.findDrive label = after.findDrive label := by
    rw [Fleet.findDrive, Fleet.findDrive, drives]
  cases turns label with
  | kept drive kept => exact .kept (same.trans drive) (anchors ▸ kept)
  | dirtied old drive was found guarded proven begun kept =>
      exact .dirtied old drive was (same.trans found) guarded proven begun (anchors ▸ kept)
  | anchored old drive anchor was found guarded member key shows fingerprint authority =>
      exact .anchored old drive anchor was (same.trans found) guarded (anchors ▸ member) key shows
        fingerprint authority

theorem advanceOne_turns {operationCode : String} {captured : Option DriveFacts}
    {owner : Option (String × Nat)} {generation : Nat}
    (advanced : fleet.advanceOne label operationCode captured owner = .ok (after, generation))
    (guarded : ∀ drive, fleet.findDrive label = some drive →
      ∃ keys, rules.lockKeys drive.fence = some keys ∧ ∀ key ∈ keys, key ∈ held) :
    Turns rules held op action fleet after := by
  obtain ⟨drive, row, found, dirty, anchors, key, drives⟩ := advanceOne_spec advanced
  refine ⟨[row], dirty, fun other => ?_⟩
  have kept : ∀ anchor ∈ after.anchors, anchor.driveLabel = other → anchor ∈ fleet.anchors :=
    fun anchor member _ => anchors ▸ member
  by_cases same : other = label
  · subst same
    obtain ⟨keys, locked, holds⟩ := guarded drive found
    obtain ⟨_, fingerprint, _, proven, _⟩ := lockKeys_spec locked
    refine .dirtied drive { drive with writeGeneration := drive.writeGeneration + 1 } found ?_
      (.of_keys locked holds) (by rw [proven]; rfl) ?_ kept
    · rw [drives, found]
      simp
    · simp [key, currentKey]
  · refine .kept ?_ kept
    rw [drives]
    simp [same]

/-- What the advances of a mutation have done so far. -/
structure Advancing (fleet : Fleet) (state : Fleet × List (Captured × Nat)) : Prop where
  anchors : state.1.anchors = fleet.anchors
  begun : ∃ rows, state.1.dirty = fleet.dirty ++ rows ∧
    (∀ label, state.1.findDrive label = fleet.findDrive label ∨
      ∃ entry ∈ state.2, entry.1.label = label) ∧
    ∀ entry ∈ state.2, ∃ old drive, fleet.findDrive entry.1.label = some old ∧
      state.1.findDrive entry.1.label = some drive ∧ drive.fence = old.fence ∧
      currentKey drive entry.1.label ∈ rows.map generationKey

theorem Advancing.next {state : Fleet × List (Captured × Nat)} (advancing : Advancing fleet state)
    {entry : Captured} {operationCode : String} {captured : Option DriveFacts}
    {owner : Option (String × Nat)} {generation : Nat}
    (advanced : state.1.advanceOne entry.label operationCode captured owner = .ok (after, generation)) :
    Advancing fleet (after, state.2 ++ [(entry, generation)]) := by
  obtain ⟨drive, row, found, dirty, anchors, key, drives⟩ := advanceOne_spec advanced
  obtain ⟨rows, grown, elsewhere, begun⟩ := advancing.begun
  have dirty : after.dirty = fleet.dirty ++ (rows ++ [row]) := by
    rw [dirty, grown, List.append_assoc]
  refine ⟨anchors.trans advancing.anchors, rows ++ [row], dirty, ?_, ?_⟩
  · intro label
    by_cases same : label = entry.label
    · subst same
      exact .inr ⟨(entry, generation), List.mem_append_right _ List.mem_cons_self, rfl⟩
    · rcases elsewhere label with kept | ⟨other, member, labelled⟩
      · left
        rw [drives, ← kept]
        simp [same]
      · exact .inr ⟨other, List.mem_append_left _ member, labelled⟩
  · -- the drive of this entry is as its earlier advance left it, or as it was before all of them
    have here : ∃ old, fleet.findDrive entry.label = some old ∧ drive.fence = old.fence := by
      rcases elsewhere entry.label with kept | ⟨other, member, labelled⟩
      · exact ⟨drive, kept ▸ found, rfl⟩
      · obtain ⟨old, last, was, found', fence, _⟩ := begun other member
        rw [labelled] at was found'
        rw [found] at found'
        cases found'
        exact ⟨old, was, fence⟩
    obtain ⟨old, was, fence⟩ := here
    have now : after.findDrive entry.label =
        some { drive with writeGeneration := drive.writeGeneration + 1 } := by
      rw [drives, found]
      simp
    have written : currentKey { drive with writeGeneration := drive.writeGeneration + 1 } entry.label ∈
        (rows ++ [row]).map generationKey := by
      simp [key, currentKey]
    intro other member
    by_cases same : other.1.label = entry.label
    · rw [same]
      exact ⟨old, _, was, now, fence, written⟩
    · rcases List.mem_append.mp member with earlier | new
      · obtain ⟨older, last, was', found', fence', key'⟩ := begun other earlier
        refine ⟨older, last, was', ?_, fence', ?_⟩
        · rw [drives, found']
          simp [same]
        · rw [List.map_append]
          exact List.mem_append_left _ key'
      · obtain rfl := List.mem_singleton.mp new
        exact absurd rfl same

theorem advanceAll_spec {operationCode : String} {owner : Option (String × Nat)}
    {captured : List Captured} {result : List (Captured × Nat)}
    (advanced : fleet.advanceAll operationCode owner captured = .ok (after, result)) :
    Advancing fleet (after, result) ∧ ∀ entry ∈ result, entry.1 ∈ captured := by
  let inv (state : Fleet × List (Captured × Nat)) : Prop :=
    Advancing fleet state ∧ ∀ entry ∈ state.2, entry.1 ∈ captured
  have start : inv (fleet, []) :=
    ⟨⟨rfl, [], by simp, fun _ => .inl rfl, by simp⟩, by simp⟩
  apply thread_invariant inv _ advanced start
  intro state entry next member stepped holds
  simp only [bind_eq_ok] at stepped
  obtain ⟨⟨middle, generation⟩, one, same⟩ := stepped
  cases same
  refine ⟨holds.1.next one, ?_⟩
  intro other among
  rcases List.mem_append.mp among with earlier | new
  · exact holds.2 other earlier
  · obtain rfl := List.mem_singleton.mp new
    exact member

/-- Every captured drive still has its captured identity, and that has keys. -/
theorem requireFenceIdentities_spec {captured : List Captured} {result : Unit}
    (checked : fleet.requireFenceIdentities rules captured = .ok result) :
    ∀ entry ∈ captured, ∃ drive keys, fleet.findDrive entry.label = some drive ∧
      drive.fence = entry.identity ∧ rules.lockKeys entry.identity = some keys := by
  intro entry member
  have here := of_thread_checks checked entry member
  simp only [Fleet.fenceIdentity, bind_eq_ok, require_eq_ok, drive_eq_ok, beq_iff_eq] at here
  obtain ⟨identity, ⟨drive, found, _, locked, read⟩, same⟩ := here
  cases read
  obtain ⟨keys, locked⟩ := Option.isSome_iff_exists.mp locked
  exact ⟨drive, keys, found, same, same ▸ locked⟩

/-- The first transaction of a mutation begins a generation of each of its drives. -/
theorem dirtyBody_turns {operationCode : String} {owner : Option (String × Nat)}
    {captured : List Captured} {result : List (Captured × Nat)}
    (written : fleet.dirtyBody rules operationCode owner captured = .ok (after, result))
    (holds : ∀ key ∈ compatibleKeys rules (captured.map Captured.identity), key ∈ held) :
    (∃ rows, after.dirty = fleet.dirty ++ rows ∧
      (∀ label, Turn rules held op action rows fleet after label) ∧
      ∀ entry ∈ result, ∃ drive keys, after.findDrive entry.1.label = some drive ∧
        drive.fence = entry.1.identity ∧ rules.lockKeys entry.1.identity = some keys ∧
        currentKey drive entry.1.label ∈ rows.map generationKey) ∧
    ∀ entry ∈ result, entry.1 ∈ captured := by
  simp only [Fleet.dirtyBody, bind_eq_ok] at written
  obtain ⟨_, identities, _, _, advanced⟩ := written
  have identities := requireFenceIdentities_spec identities
  obtain ⟨advancing, among⟩ := advanceAll_spec advanced
  obtain ⟨rows, dirty, elsewhere, begun⟩ := advancing.begun
  have kept (label : String) :
      ∀ anchor ∈ after.anchors, anchor.driveLabel = label → anchor ∈ fleet.anchors :=
    fun anchor member _ => advancing.anchors ▸ member
  refine ⟨⟨rows, dirty, fun label => ?_, fun entry member => ?_⟩, among⟩
  · rcases elsewhere label with same | ⟨entry, member, rfl⟩
    · exact .kept same (kept label)
    · obtain ⟨old, drive, was, found, fence, key⟩ := begun entry member
      obtain ⟨_, keys, found', captured, locked⟩ := identities entry.1 (among entry member)
      rw [was] at found'
      cases found'
      have locked' : rules.lockKeys old.fence = some keys := captured ▸ locked
      have guarded : Guarded rules held old.fence old.fence :=
        .of_keys locked' fun key among' => holds key
          (mem_compatibleKeys (List.mem_map_of_mem (among entry member)) locked among')
      obtain ⟨_, _, _, proven, _⟩ := lockKeys_spec locked'
      refine .dirtied old drive was found (fence ▸ guarded) ?_ key (kept _)
      rw [fence, proven]
      rfl
  · obtain ⟨old, drive, was, found, fence, key⟩ := begun entry member
    obtain ⟨_, keys, found', captured, locked⟩ := identities entry.1 (among entry member)
    rw [was] at found'
    cases found'
    exact ⟨drive, keys, found, fence.trans captured, locked, key⟩

/-- The anchors of a mutation show what was observed of its drives. -/
theorem anchorBody_turns {owner : Option (String × Nat)} {envelope : Envelope} {world : MutationWorld}
    {result : Unit}
    (written : fleet.anchorBody rules owner envelope.advanced world.observeAfter world.now =
      .ok (after, result))
    (holds : ∀ key ∈ fences rules (.finishing envelope), key ∈ held) :
    Turns rules held (.finishing envelope) (.close world) fleet after := by
  simp only [Fleet.anchorBody, bind_eq_ok] at written
  obtain ⟨_, identities, _, _, _, published, same⟩ := written
  cases same
  have identities := requireFenceIdentities_spec identities
  let fresh (anchor : CleanAnchor) : Prop :=
    ∃ entry ∈ envelope.advanced, ∃ drive, fleet.findDrive entry.1.label = some drive ∧
      anchorKey anchor = currentKey drive entry.1.label ∧
      anchor.anchorFreeBytes = (world.observeAfter entry.1.label).freeBytes ∧
      anchor.identityFingerprint = drive.fence.identityFingerprint ∧
      anchor.writeAuthority = drive.writeAuthority
  let inv (state : Fleet) : Prop := state.drives = fleet.drives ∧ state.dirty = fleet.dirty ∧
    ∀ anchor ∈ state.anchors, anchor ∈ fleet.anchors ∨ fresh anchor
  have all : inv after := by
    apply thread_invariant inv _ published ⟨rfl, rfl, fun _ member => .inl member⟩
    intro state entry next member stepped ⟨drives, dirty, anchors⟩
    obtain ⟨drive, found, epoch, generation, identity, rfl⟩ := publishAnchorLocked_eq_ok stepped
    refine ⟨drives, dirty, fun anchor among => ?_⟩
    rcases List.mem_append.mp among with earlier | new
    · exact anchors anchor earlier
    · obtain rfl := List.mem_singleton.mp new
      have found : fleet.findDrive entry.1.label = some drive := by
        rw [Fleet.findDrive, ← drives]
        exact found
      refine .inr ⟨entry, member, drive, found, ?_, rfl, requireIdentity_fingerprint identity, rfl⟩
      simp [anchorKey, currentKey, Observation.anchor, epoch, generation]
  obtain ⟨drives, dirty, anchors⟩ := all
  have same (label : String) : after.findDrive label = fleet.findDrive label := by
    rw [Fleet.findDrive, Fleet.findDrive, drives]
  refine ⟨[], by simpa using dirty, fun label => ?_⟩
  by_cases old : ∀ anchor ∈ after.anchors, anchor.driveLabel = label → anchor ∈ fleet.anchors
  · exact .kept (same label) old
  · push Not at old
    obtain ⟨anchor, member, labelled, notOld⟩ := old
    obtain ⟨entry, among, drive, found, key, free, fingerprint, authority⟩ :=
      (anchors anchor member).resolve_left notOld
    obtain rfl : entry.1.label = label := (congrArg Prod.fst key).symm.trans labelled
    obtain ⟨_, keys, found', captured, locked⟩ :=
      identities entry.1 (List.mem_map_of_mem (f := Prod.fst) among)
    rw [found] at found'
    cases found'
    refine .anchored drive drive anchor found ((same _).trans found) ?_ member key ?_ fingerprint
      authority
    · refine .of_keys (captured ▸ locked) fun key among' => holds key ?_
      exact mem_compatibleKeys
        (List.mem_map_of_mem (f := fun entry : Captured × Nat => entry.1.identity) among) locked among'
    · rw [free]
      exact .mutation among

/-- What a reconciliation has established when it holds its fences. -/
def Ready (rules : FenceRules) (job : Reconciling) : Prop :=
  ∀ identity ∈ job.identities, (rules.lockKeys identity).isSome = true

/-- What a settled reconciliation has established before its transaction. -/
structure Prepared (rules : FenceRules) (settled : Settling) : Prop where
  ready : Ready rules settled.job
  fingerprint : settled.final.fingerprint = settled.job.evidence.fingerprint
  bootstrap : settled.settlement = .bootstrap → settled.job.transition = false
  renew : settled.settlement = .renew → settled.job.transition = true

theorem reconcileCapture_ready {c : Catalog} {serial : SerialRules} {call : ReconcileCall}
    {world : FencedWorld} {job : Reconciling}
    (captured : c.reconcileCapture serial call world = .ok (some job)) :
    Ready serial.toFenceRules job ∧ job.call = call := by
  simp only [Catalog.reconcileCapture, bind_eq_ok, requireOr_eq_ok] at captured
  obtain ⟨_, _, facts, _, metadata, _, _, _, owner, _, _, _, _, _, _, _, captured⟩ := captured
  split_ifs at captured
  · simp only [bind_eq_ok, requireOr_eq_ok] at captured
    obtain ⟨_, _, none⟩ := captured
    cases none
  · simp only [bind_eq_ok, requireOr_eq_ok] at captured
    obtain ⟨_, _, _, ready, _, _, same⟩ := captured
    cases same
    exact ⟨List.all_eq_true.mp ready, rfl⟩

/-- Only a drive without an identity is bootstrapped, and only one whose capacity changed is renewed. -/
theorem decision_spec {c : Catalog} {job : Reconciling} {settlement : Settlement}
    (decided : c.decision job = .ok settlement) :
    (settlement = .bootstrap → job.transition = false) ∧
      (settlement = .renew → job.transition = true) := by
  unfold Catalog.decision at decided
  by_cases unknown : job.facts.fence.identityFingerprint.isNone = true
  · simp only [unknown, if_true] at decided
    cases decided
    have absent : job.transition = false := by
      simp [Reconciling.transition, Option.isNone_iff_eq_none.mp unknown]
    simp [absent]
  · simp only [unknown, Bool.false_eq_true, if_false] at decided
    by_cases changed : job.transition = true
    · simp only [changed, if_true] at decided
      cases decided
      simp [changed]
    · simp only [changed, Bool.false_eq_true, if_false] at decided
      split_ifs at decided
      · cases decided
        simp
      · simp only [bind_eq_ok, pure_eq_ok] at decided
        obtain ⟨_, _, rfl⟩ := decided
        simp
      · split at decided
        · simp only [bind_eq_ok, pure_eq_ok] at decided
          obtain ⟨_, _, rfl⟩ := decided
          simp
        · cases decided

theorem reconcileFenced_prepared {c : Catalog} {serial : SerialRules} {job : Reconciling}
    {world : FencedWorld} {settled : Settling} (ready : Ready serial.toFenceRules job)
    (fenced : c.reconcileFenced serial job world = .ok settled) :
    Prepared serial.toFenceRules settled ∧ settled.job = job ∧ settled.final = world.final ∧
      c.fleet.findDrive job.call.label = some job.facts := by
  simp only [Catalog.reconcileFenced, bind_eq_ok, requireOr_eq_ok, persisted_eq_ok,
    beq_iff_eq] at fenced
  obtain ⟨_, _, _, _, facts, found, _, rfl, owner, _, _, _, settles⟩ := fenced
  have fingerprint (observed : finalObservation job.evidence world.final = true) :
      world.final.fingerprint = job.evidence.fingerprint := by
    simp only [finalObservation, Bool.and_eq_true, beq_iff_eq] at observed
    exact observed.1.1.2
  split at settles
  · simp only [bind_eq_ok, requireOr_eq_ok, pure_eq_ok] at settles
    obtain ⟨_, rfl, _, _, _, observed, rfl⟩ := settles
    exact ⟨⟨ready, fingerprint observed, by simp, by simp⟩, rfl, rfl, found⟩
  · simp only [bind_eq_ok, requireOr_eq_ok, pure_eq_ok] at settles
    obtain ⟨settlement, decided, _, _, _, observed, rfl⟩ := settles
    obtain ⟨bootstrap, renew⟩ := decision_spec decided
    exact ⟨⟨ready, fingerprint observed, bootstrap, renew⟩, rfl, rfl, found⟩

/-- A reconciliation holds a key of the identity that it captured. -/
theorem guarded_captured {settled : Settling}
    (holds : ∀ key ∈ fences rules (.settling settled), key ∈ held) :
    Guarded rules held settled.job.facts.fence settled.job.facts.fence := by
  have guard : ∀ keys, rules.lockKeys settled.job.facts.fence = some keys →
      ∃ key ∈ keys, key ∈ held := by
    intro keys locked
    obtain ⟨_, fingerprint, _, saved, _, own⟩ := lockKeys_spec locked
    have among : settled.job.facts.fence ∈ settled.job.identities := by
      simp [Reconciling.identities, saved]
    exact ⟨_, own, holds _ (mem_compatibleKeys among locked own)⟩
  exact ⟨guard, guard⟩

/-- It holds a key of every identity that has the observed fingerprint in the epoch that it settles. -/
theorem guarded_observed {settled : Settling} {after : FenceIdentity} (prepared : Prepared rules settled)
    (holds : ∀ key ∈ fences rules (.settling settled), key ∈ held)
    (fingerprint : after.identityFingerprint = settled.final.fingerprint)
    (epoch : after.identityEpoch = if settled.job.transition then
      settled.job.facts.fence.identityEpoch + 1 else settled.job.facts.fence.identityEpoch) :
    Guarded rules held settled.job.facts.fence after := by
  refine ⟨(guarded_captured holds).old, fun keys locked => ?_⟩
  obtain ⟨_, saved, _, fingerprint', _, own⟩ := lockKeys_spec locked
  obtain ⟨others, observed⟩ :=
    Option.isSome_iff_exists.mp (prepared.ready _ List.mem_cons_self)
  obtain ⟨_, seen, _, shown, _, held'⟩ := lockKeys_spec observed
  have same : saved = seen := by
    rw [fingerprint, prepared.fingerprint] at fingerprint'
    exact Option.some.inj (fingerprint'.symm.trans shown)
  refine ⟨_, own, holds _ ?_⟩
  rw [same, epoch]
  exact mem_compatibleKeys List.mem_cons_self observed held'

/-- An advance of a drive, after a change of its identity, and the anchor of its new generation. -/
theorem advanceAndAnchor_turns {c next : Catalog} {written : Tables} {operationCode : String}
    {proven : Revision.Inventory} {old : FleetDrive} {change : FleetDrive → FleetDrive}
    (keeps : ∀ drive, (change drive).driveLabel = drive.driveLabel)
    (performed : advanceAndAnchor label operationCode proven
      { c with tables := c.tables.updateDrive label change } = .ok written)
    (committed : next.tables = written) (was : c.fleet.findDrive label = some old)
    (guarded : Guarded rules held old.fence (change old).fence)
    (shows : Observes c.fleet op action label proven.observation.freeBytes) :
    Turns rules held op action c.fleet next.fleet := by
  simp only [advanceAndAnchor, bind_eq_ok, lift_eq_ok, pure_eq_ok] at performed
  obtain ⟨⟨advanced, generation⟩, one, anchored, published, same⟩ := performed
  obtain ⟨drive, row, found, dirty, anchors, _, drives⟩ := advanceOne_spec one
  have changed (other : String) :
      ({ c with tables := c.tables.updateDrive label change } : Catalog).fleet.findDrive other =
        (c.fleet.findDrive other).map fun drive => if other = label then change drive else drive :=
    findDrive_updated c.fleet change keeps label other
  have anchors : advanced.anchors = c.fleet.anchors := anchors
  have turn (other : String) : Turn rules held op action [row] c.fleet anchored other := by
    refine anchored_turn published ?_ anchors ?_ shows other
    · intro other apart
      rw [drives, changed]
      simp [apart]
    · intro now found'
      rw [drives, changed, was] at found'
      cases found'
      exact ⟨old, was, by simpa using guarded⟩
  have dirty' : anchored.dirty = c.fleet.dirty ++ [row] := by
    obtain ⟨_, _, _, _, _, rfl⟩ := publishAnchorLocked_eq_ok published
    exact dirty
  have turns : Turns rules held op action c.fleet anchored := ⟨[row], dirty', turn⟩
  have same := committed.trans same.symm
  exact turns.of_rows (by simp [Catalog.fleet, same, Tables.withFleet])
    (by simp [Catalog.fleet, same, Tables.withFleet]) (by simp [Catalog.fleet, same, Tables.withFleet])

theorem recovered_turns {c next : Catalog} {current : Check} {generation : Nat} {proven : Revision.Inventory}
    (committed : recovered current label generation proven c = .ok next)
    (guarded : ∀ drive, current c = .ok () → c.fleet.findDrive label = some drive →
      Guarded rules held drive.fence drive.fence)
    (shows : current c = .ok () → Observes c.fleet op action label proven.observation.freeBytes) :
    Turns rules held op action c.fleet next.fleet := by
  obtain ⟨tables, performed, same⟩ := immediate_rows committed
  simp only [bind_eq_ok, lift_eq_ok, pure_eq_ok] at performed
  obtain ⟨_, checked, anchored, published, rfl⟩ := performed
  have dirty : anchored.dirty = c.fleet.dirty ++ [] := by
    obtain ⟨_, _, _, _, _, rfl⟩ := publishAnchorLocked_eq_ok published
    simp
  have turns : Turns rules held op action c.fleet anchored :=
    ⟨[], dirty, publish_turn published (fun drive => guarded drive checked) (shows checked)⟩
  exact turns.of_rows (by simp [Catalog.fleet, same, Tables.withFleet])
    (by simp [Catalog.fleet, same, Tables.withFleet]) (by simp [Catalog.fleet, same, Tables.withFleet])

theorem updateDrive_id (tables : Tables) (label : String) : tables.updateDrive label id = tables := by
  simp [Tables.updateDrive]

/-- The transaction of a reconciliation. -/
theorem settle_turns {c next : Catalog} {serial : SerialRules} {settled : Settling}
    {childFenceHeld : Bool} (committed : settled.commit serial childFenceHeld c = .ok next)
    (prepared : Prepared rules settled) (holds : ∀ key ∈ fences rules (.settling settled), key ∈ held) :
    Turns rules held (.settling settled) (.settle childFenceHeld) c.fleet next.fleet := by
  unfold Settling.commit at committed
  cases shape : settled.settlement with
  | bootstrap =>
      simp only [shape, bootstrapped] at committed
      obtain ⟨tables, performed, same⟩ := immediate_rows committed
      simp only [bind_eq_ok] at performed
      obtain ⟨_, current, performed⟩ := performed
      refine advanceAndAnchor_turns ?_ performed same (current_eq_ok current) ?_
        (.settlement (current_eq_ok current))
      · intro drive
        rfl
      · exact guarded_observed prepared holds rfl (by rw [prepared.bootstrap shape]; rfl)
  | renew =>
      simp only [shape, epochAdvanced] at committed
      obtain ⟨tables, performed, same⟩ := immediate_rows committed
      simp only [bind_eq_ok] at performed
      obtain ⟨_, current, performed⟩ := performed
      refine advanceAndAnchor_turns ?_ performed same (current_eq_ok current) ?_
        (.settlement (current_eq_ok current))
      · intro drive
        rfl
      · exact guarded_observed prepared holds rfl (by rw [prepared.renew shape]; rfl)
  | advance operationCode =>
      simp only [shape, refreshed] at committed
      obtain ⟨tables, performed, same⟩ := immediate_rows committed
      simp only [bind_eq_ok] at performed
      obtain ⟨_, current, performed⟩ := performed
      have performed : advanceAndAnchor settled.job.call.label operationCode
          (settled.inventory settled.job.facts.fence.identityEpoch)
          { c with tables := c.tables.updateDrive settled.job.call.label id } = .ok tables := by
        rw [updateDrive_id]
        exact performed
      refine advanceAndAnchor_turns ?_ performed same (current_eq_ok current) ?_
        (.settlement (current_eq_ok current))
      · intro drive
        rfl
      · exact guarded_captured holds
  | recover =>
      simp only [shape] at committed
      refine recovered_turns committed ?_ fun current => .settlement (current_eq_ok current)
      intro drive current found
      rw [current_eq_ok current] at found
      cases found
      exact guarded_captured holds

/-- The fences of a repair hold the key without a serial of the drive that it has read. -/
theorem serialRepairState_spec {c : Catalog} {serial : SerialRules} {approvals : List String}
    {state : SerialState} (read : c.serialRepairState serial approvals label = .ok state) :
    c.fleet.findDrive label = some state.facts ∧
    ∃ capacity, state.facts.fence.filesystemCapacityBytes = some capacity ∧
      (serial.identityFingerprintV1 state.facts.fence.fsUuid state.facts.fence.annexUuid none capacity,
        state.facts.fence.identityEpoch) ∈ state.fenceKeys := by
  simp only [Catalog.serialRepairState, bind_eq_ok, persisted_eq_ok] at read
  obtain ⟨facts, found, _, _, read⟩ := read
  split at read
  · rename_i columns dirtyGeneration capacity _ _ known
    simp only [bind_eq_ok] at read
    obtain ⟨_, _, _, _, read⟩ := read
    split at read
    · cases read
    · simp only [bind_eq_ok] at read
      obtain ⟨_, _, ⟨status, required⟩, _, read⟩ := read
      dsimp only at read
      split at read
      · rename_i saved bridged locked _
        cases read
        obtain ⟨capacity', _, known', _, shared, _⟩ := lockKeys_spec locked
        refine ⟨found, capacity', known', ?_⟩
        exact List.mem_dedup.mpr (List.mem_append_left _ shared)
      · cases read
  · cases read

theorem serialGuard_spec {c : Catalog} {serial : SerialRules} {approvals : List String}
    {state : SerialState} {result : Unit} (guarded : serialGuard serial approvals state c = .ok result) :
    c.serialRepairState serial approvals state.facts.driveLabel = .ok state := by
  simp only [serialGuard, bind_eq_ok, requireOr_eq_ok, beq_iff_eq] at guarded
  obtain ⟨_, _, current, read, same⟩ := guarded
  rw [same] at read
  exact read

/-- A repair holds a key of every identity that differs from the captured one in its fingerprint. -/
theorem guarded_repair {serial : SerialRules} {state : SerialState} {after : FenceIdentity}
    {capacity : Nat} (known : state.facts.fence.filesystemCapacityBytes = some capacity)
    (shared : (serial.identityFingerprintV1 state.facts.fence.fsUuid state.facts.fence.annexUuid none
      capacity, state.facts.fence.identityEpoch) ∈ held)
    (same : after = { state.facts.fence with identityFingerprint := after.identityFingerprint }) :
    Guarded serial.toFenceRules held state.facts.fence after := by
  have guard (identity : FenceIdentity)
      (same : identity = { state.facts.fence with identityFingerprint := identity.identityFingerprint })
      (keys : List FenceKey) (locked : serial.lockKeys identity = some keys) :
      ∃ key ∈ keys, key ∈ held := by
    obtain ⟨capacity', _, known', _, among, _⟩ := lockKeys_spec locked
    rw [same] at known' among
    rw [known] at known'
    cases known'
    exact ⟨_, among, shared⟩
  exact ⟨guard _ rfl, guard after same⟩

theorem repairRecover_turns {c next : Catalog} {serial : SerialRules} {repair : Repairing}
    {world : FencedWorld} {final : LiveEvidence} {clean : SerialState}
    (recovered : repair.recover serial world final c = .ok (next, clean))
    (holds : ∀ key ∈ repair.state.fenceKeys, key ∈ held) :
    Turns serial.toFenceRules held (.repairing repair) (.recover world final) c.fleet next.fleet := by
  simp only [Repairing.recover, bind_eq_ok, pure_eq_ok, Prod.mk.injEq] at recovered
  obtain ⟨_, committed, _, _, _, _, rfl, _⟩ := recovered
  refine recovered_turns committed ?_ fun _ => .bridge
  intro drive current found
  simp only [bind_eq_ok] at current
  obtain ⟨_, guarded, _⟩ := current
  obtain ⟨found', capacity, known, shared⟩ := serialRepairState_spec (serialGuard_spec guarded)
  rw [found] at found'
  cases found'
  exact guarded_repair known (holds _ shared) rfl

theorem repairEnrich_turns {c next : Catalog} {serial : SerialRules} {repair : Repairing}
    {world : FencedWorld} {final : LiveEvidence}
    (enriched : repair.enrich serial world final c = .ok next)
    (holds : ∀ key ∈ repair.state.fenceKeys, key ∈ held) :
    Turns serial.toFenceRules held (.enriching repair) (.enrich world final) c.fleet next.fleet := by
  simp only [Repairing.enrich, serialEnrich] at enriched
  obtain ⟨tables, performed, committed⟩ := immediate_rows enriched
  simp only [bind_eq_ok, lift_eq_ok, pure_eq_ok] at performed
  obtain ⟨_, ⟨_, guarded, _⟩, ⟨advanced, generation⟩, one, anchored, published, same⟩ := performed
  obtain ⟨was, capacity, known, shared⟩ := serialRepairState_spec (serialGuard_spec guarded)
  obtain ⟨drive, row, found, dirty, anchors, _, drives⟩ := advanceOne_spec one
  let label := repair.state.facts.driveLabel
  let enrich (drive : FleetDrive) : FleetDrive :=
    { drive with fence :=
      { drive.fence with identityFingerprint := some repair.state.canonicalFingerprint } }
  have changed (other : String) :
      ({ c with tables := (c.tables.withFleet advanced).updateDrive label enrich } :
        Catalog).fleet.findDrive other =
      (advanced.findDrive other).map fun drive => if other = label then enrich drive else drive :=
    findDrive_updated advanced enrich (fun _ => rfl) label other
  have turn (other : String) : Turn serial.toFenceRules held (.enriching repair) (.enrich world final)
      [row] c.fleet anchored other := by
    refine anchored_turn published ?_ anchors ?_ .enrichment other
    · intro other apart
      rw [changed, drives]
      simp [apart, label]
    · intro now found'
      rw [changed, drives, was] at found'
      refine ⟨_, was, ?_⟩
      simp only [Option.map_some, if_true, label] at found'
      cases found'
      exact guarded_repair known (holds _ shared) rfl
  have dirty' : anchored.dirty = c.fleet.dirty ++ [row] := by
    obtain ⟨_, _, _, _, _, rfl⟩ := publishAnchorLocked_eq_ok published
    exact dirty
  have turns : Turns serial.toFenceRules held (.enriching repair) (.enrich world final) c.fleet anchored :=
    ⟨[row], dirty', turn⟩
  have same := committed.trans same.symm
  exact turns.of_rows (by simp [Catalog.fleet, same, Tables.withFleet])
    (by simp [Catalog.fleet, same, Tables.withFleet]) (by simp [Catalog.fleet, same, Tables.withFleet])

/-- The drive of a step that is taken under fences that no operation has taken. -/
def directDrive : DriveAction → Option String
  | .beginGeneration label _ _ | .publishCleanAnchor label _ _ => some label
  | _ => none

/-- The holder has all keys of the drive. -/
def HoldsDrive (rules : FenceRules) (held : List FenceKey) (fleet : Fleet) (label : String) : Prop :=
  ∀ drive, fleet.findDrive label = some drive →
    ∃ keys, rules.lockKeys drive.fence = some keys ∧ ∀ key ∈ keys, key ∈ held

/-- A mutation has entered: its drives are as they were captured, with a new generation each. -/
structure Entered (rules : FenceRules) (before after : Fleet) (envelope : Envelope) : Prop where
  anchors : after.anchors = before.anchors
  begun : ∃ rows, after.dirty = before.dirty ++ rows ∧
    ∀ entry ∈ envelope.advanced, ∃ drive keys, after.findDrive entry.1.label = some drive ∧
      drive.fence = entry.1.identity ∧ rules.lockKeys entry.1.identity = some keys ∧
      currentKey drive entry.1.label ∈ rows.map generationKey

/-- What the operations after a step have established. -/
def Established (rules : FenceRules) : DriveOp → Prop
  | .reconciling job => Ready rules job
  | .settling settled => Prepared rules settled
  | _ => True

/-- A step of a drive operation. -/
structure Stepped (rules : FenceRules) (held : List FenceKey) (c : Catalog) (op : DriveOp)
    (action : DriveAction) (next : Catalog) (after : DriveOp) : Prop where
  turns : Turns rules held op action c.fleet next.fleet
  established : Established rules after
  entered : ∀ envelope, after = .mutating envelope →
    op = .mutating envelope ∧ next = c ∨ Entered rules c.fleet next.fleet envelope
  settled : ∀ settled, after = .settling settled → next = c ∧ (op = .settling settled ∨
    ∃ job world, op = .reconciling job ∧ action = .fence world ∧ settled.job = job ∧
      settled.final = world.final ∧ c.fleet.findDrive job.call.label = some job.facts)

theorem Stepped.reads {c : Catalog} {next : DriveOp} (established : Established rules next)
    (entered : ∀ envelope, next = .mutating envelope → op = .mutating envelope)
    (settled : ∀ settled, next = .settling settled → op = .settling settled) :
    Stepped rules held c op action c next :=
  ⟨.reads, established, fun envelope same => .inl ⟨entered envelope same, rfl⟩,
    fun other same => ⟨rfl, .inl (settled other same)⟩⟩

/-- The transaction that ends an operation. -/
theorem Stepped.ends {c next : Catalog} (turns : Turns rules held op action c.fleet next.fleet) :
    Stepped rules held c op action next .idle :=
  ⟨turns, trivial, by simp, by simp⟩

theorem perform_stepped {c next : Catalog} {serial : SerialRules} {after : DriveOp}
    (performed : op.perform serial c action = .ok (next, after))
    (established : Established serial.toFenceRules op)
    (holds : ∀ key ∈ fences serial.toFenceRules op, key ∈ held)
    (direct : op = .idle → ∀ label, directDrive action = some label →
      HoldsDrive serial.toFenceRules held c.fleet label) :
    Stepped serial.toFenceRules held c op action next after := by
  unfold DriveOp.perform at performed
  split at performed
  · cases performed
  · rename_i label operationCode identityEpoch
    simp only [bind_eq_ok, pure_eq_ok] at performed
    obtain ⟨⟨_, generation⟩, begun, same⟩ := performed
    cases same
    have begun := onDrives_eq_ok begun
    simp only [Fleet.beginGeneration, bind_eq_ok, require_eq_ok] at begun
    obtain ⟨_, _, _, _, written⟩ := begun
    have adapter : c.fleet.writeAs none (fun current => current.advanceOne label operationCode none none) =
        .ok (_, generation) := written
    obtain ⟨middle, advanced, drives, dirty, anchors⟩ := fleetWriteAs_rows adapter
    exact .ends ((advanceOne_turns advanced (direct rfl label rfl)).of_rows drives dirty anchors)
  · rename_i label generation proven
    simp only [bind_eq_ok, pure_eq_ok] at performed
    obtain ⟨_, published, same⟩ := performed
    cases same
    refine .ends (recovered_turns published ?_ fun _ => .operator)
    intro drive _ found
    obtain ⟨keys, locked, holds⟩ := direct rfl label rfl drive found
    exact .of_keys locked holds
  · simp only [bind_eq_ok, pure_eq_ok] at performed
    obtain ⟨captured, read, same⟩ := performed
    cases same
    simp only [DriveOp.capture, bind_eq_ok, pure_eq_ok] at read
    obtain ⟨_, _, _, _, _, _, _, _, _, _, rfl⟩ := read
    exact .reads trivial (by simp) (by simp)
  · simp only [bind_eq_ok, lift_eq_ok, pure_eq_ok] at performed
    obtain ⟨owner, _, ⟨_, advanced⟩, entered, same⟩ := performed
    cases same
    have entered := onDrives_eq_ok entered
    obtain ⟨middle, dirtied, drives, dirty, anchors⟩ := fleetWriteAs_rows entered
    obtain ⟨⟨rows, grown, turns, begun⟩, _⟩ := dirtyBody_turns dirtied holds
    refine ⟨Turns.of_rows ⟨rows, grown, turns⟩ drives dirty anchors, trivial, ?_, by simp⟩
    intro envelope same
    cases same
    refine .inr ⟨anchors.trans (dirtyBody_anchors dirtied), rows, dirty.trans grown, ?_⟩
    intro entry member
    obtain ⟨drive, keys, found, fence, locked, key⟩ := begun entry member
    refine ⟨drive, keys, ?_, fence, locked, key⟩
    rw [Fleet.findDrive, drives]
    exact found
  · cases performed
    exact .reads trivial (by simp) (by simp)
  · rename_i envelope world
    simp only [bind_eq_ok, pure_eq_ok] at performed
    obtain ⟨⟨_, _⟩, closed, same⟩ := performed
    cases same
    have closed := onDrives_eq_ok closed
    simp only [Fleet.close, bind_eq_ok] at closed
    obtain ⟨owner, _, _, _, written⟩ := closed
    obtain ⟨middle, anchored, drives, dirty, anchors⟩ := fleetWriteAs_rows written
    exact .ends ((anchorBody_turns anchored holds).of_rows drives dirty anchors)
  · simp only [bind_eq_ok, pure_eq_ok] at performed
    obtain ⟨job, captured, same⟩ := performed
    cases same
    cases job with
    | none => exact .reads trivial (by simp) (by simp)
    | some job => exact .reads (reconcileCapture_ready captured).1 (by simp) (by simp)
  · simp only [bind_eq_ok, pure_eq_ok] at performed
    obtain ⟨settled, fenced, same⟩ := performed
    cases same
    obtain ⟨prepared, job, final, found⟩ := reconcileFenced_prepared established fenced
    refine ⟨.reads, prepared, by simp, fun other same => ⟨rfl, ?_⟩⟩
    cases same
    exact .inr ⟨_, _, rfl, rfl, job, final, found⟩
  · simp only [bind_eq_ok, pure_eq_ok] at performed
    obtain ⟨_, committed, same⟩ := performed
    cases same
    exact .ends (settle_turns committed established holds)
  · simp only [bind_eq_ok, pure_eq_ok] at performed
    obtain ⟨repair, _, same⟩ := performed
    cases same
    split_ifs
    · exact .reads trivial (by simp) (by simp)
    · exact .reads trivial (by simp) (by simp)
  · simp only [bind_eq_ok, requireOr_eq_ok, pure_eq_ok] at performed
    obtain ⟨_, _, ⟨_, clean⟩, recovered, same⟩ := performed
    cases same
    exact ⟨repairRecover_turns recovered holds, trivial, by simp, by simp⟩
  · simp only [bind_eq_ok, requireOr_eq_ok, pure_eq_ok] at performed
    obtain ⟨_, _, _, enriched, same⟩ := performed
    cases same
    exact .ends (repairEnrich_turns enriched holds)
  · cases performed
    exact .reads established (fun _ same => same) (fun _ same => same)

end Turns

end Modelark.Admission
