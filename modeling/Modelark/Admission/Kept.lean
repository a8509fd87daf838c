import Modelark.Admission.Snapshots

/-!
# What every admission step keeps

Exclusive fences exclude each other and the snapshots, the anchor of a drive's current generation shows
its free space, and what a mutation, a reconciliation or a snapshot relies on stays as it was while its
fences are held.
-/

namespace Modelark.Admission

open Library Execution Capacity Revision

variable {ι : Type} {rules : AdmissionRules} {world next : World ι} {label : String}

/-- The identity of captured facts has keys. -/
def Locked (rules : AdmissionRules) (facts : AdmissionFacts) : Prop :=
  ∃ identity keys, facts.fenceIdentity = some identity ∧ rules.lockKeys identity = some keys

/-- The observation shows the free space of the drive, as long as that has the captured identity. -/
def Observed (world : World ι) (label : String) (facts : AdmissionFacts) (observation : Option Observation) :
    Prop :=
  ∀ seen, observation = some seen → seen.identityProven = true →
    ∀ drive, world.catalog.fleet.findDrive label = some drive → facts.fenceIdentity = some drive.fence →
      drive.writeAuthority = "dedicated_local" → world.Shows label seen.freeBytes

/-- The drive has the captured identity. -/
def Unchanged (world : World ι) (label : String) (facts : AdmissionFacts) : Prop :=
  ∃ drive, world.catalog.fleet.findDrive label = some drive ∧ facts.fenceIdentity = some drive.fence

/-- What a preview of a drive relies on. -/
def Snapshot (rules : AdmissionRules) (world : World ι) (label : String) : Phase → Prop
  | .fenced facts => Locked rules facts
  | .observed facts observation => Locked rules facts ∧ Observed world label facts observation
  | .compared facts observation unchanged =>
      Locked rules facts ∧ Observed world label facts observation ∧
        (unchanged = true → Unchanged world label facts)
  | _ => True

/-- The body of a mutation runs in generations that are not anchored, of drives as they were captured. -/
def MutationKept (rules : AdmissionRules) (world : World ι) (envelope : Envelope) : Prop :=
  ∀ entry ∈ envelope.advanced, world.Unanchored entry.1.label ∧
    ∃ drive keys, world.catalog.fleet.findDrive entry.1.label = some drive ∧
      drive.fence = entry.1.identity ∧ rules.lockKeys entry.1.identity = some keys

/-- The last observation of a reconciliation shows the free space of the drive, as long as that is as it
    was captured. -/
def SettlementKept (world : World ι) (settled : Settling) : Prop :=
  (∃ drive, world.catalog.fleet.findDrive settled.job.call.label = some drive) ∧
  (world.catalog.fleet.findDrive settled.job.call.label = some settled.job.facts →
    world.Shows settled.job.call.label settled.final.free)

/-- The anchor of a current generation shows the free space of a dedicated drive. -/
def AnchorsKept (world : World ι) : Prop :=
  ∀ label drive anchor, world.catalog.fleet.findDrive label = some drive →
    anchor ∈ world.catalog.tables.anchors → anchorKey anchor = currentKey drive label →
    drive.writeAuthority = "dedicated_local" ∧ anchor.anchorFreeBytes = some (world.free label)

/-- Anchors are of generations that have begun. -/
def AnchorsBegun (c : Catalog) : Prop :=
  ∀ anchor ∈ c.tables.anchors, 1 ≤ anchor.generation ∧
    anchorKey anchor ∈ c.tables.dirty.map generationKey

/-- What holds in every world that admission steps reach. -/
structure Kept (rules : AdmissionRules) (world : World ι) : Prop where
  excluded : Excluded (world.writers rules) (world.readers rules)
  established : ∀ conn, Established rules.toFenceRules (world.holders conn).op
  begun : AnchorsBegun world.catalog
  anchored : AnchorsKept world
  mutating : ∀ conn envelope, world.holders conn = .operation (.mutating envelope) →
    MutationKept rules world envelope
  settling : ∀ conn settled, world.holders conn = .operation (.settling settled) →
    SettlementKept world settled
  previews : ∀ conn label, (world.previews conn).labels.head? = some label →
    Snapshot rules world label (world.previews conn).phase

theorem Kept.start (catalog : Catalog) (free : String → Nat) :
    Kept rules (World.start (ι := ι) catalog free) where
  excluded := Excluded.nobody
  established _ := trivial
  begun _ member := nomatch member
  anchored _ _ _ _ member := nomatch member
  mutating _ _ same := nomatch same
  settling _ _ same := nomatch same
  previews _ _ same := nomatch same

/-- A snapshot relies only on the drive whose keys it holds. -/
theorem Snapshot.of_frame {phase : Phase} (kept : Snapshot rules world label phase)
    (back : ∀ drive keys, next.catalog.fleet.findDrive label = some drive →
      rules.lockKeys drive.fence = some keys → (∀ key ∈ keys, key ∈ phase.shared rules.toFenceRules) →
      drive.writeAuthority = "dedicated_local" →
      world.catalog.fleet.findDrive label = some drive ∧ next.free label = world.free label)
    (forth : ∀ drive keys, world.catalog.fleet.findDrive label = some drive →
      rules.lockKeys drive.fence = some keys → (∀ key ∈ keys, key ∈ phase.shared rules.toFenceRules) →
      next.catalog.fleet.findDrive label = some drive) :
    Snapshot rules next label phase := by
  have observed (facts : AdmissionFacts) (observation : Option Observation) (locked : Locked rules facts)
      (shared : phase.shared rules.toFenceRules = (facts.fenceIdentity.bind rules.lockKeys).getD [])
      (observed : Observed world label facts observation) : Observed next label facts observation := by
    intro seen same proven drive found identity dedicated
    obtain ⟨_, keys, identity', keyed⟩ := locked
    rw [identity] at identity'
    cases identity'
    obtain ⟨found', free⟩ := back drive keys found keyed (by simp [shared, identity, keyed]) dedicated
    rw [World.Shows, free]
    exact observed seen same proven drive found' identity dedicated
  cases phase with
  | ready | captured _ | unproven _ | contended _ | contendedObserved _ _ => trivial
  | fenced facts => exact kept
  | observed facts observation => exact ⟨kept.1, observed facts observation kept.1 rfl kept.2⟩
  | compared facts observation unchanged =>
      refine ⟨kept.1, observed facts observation kept.1 rfl kept.2.1, fun same => ?_⟩
      obtain ⟨drive, found, identity⟩ := kept.2.2 same
      obtain ⟨_, keys, identity', keyed⟩ := kept.1
      rw [identity] at identity'
      cases identity'
      exact ⟨drive, forth drive keys found keyed (by simp [Phase.shared, identity, keyed]), identity⟩

/-- Nothing of a drive has been touched whose keys the holder of the step has not. -/
theorem Turn.undisturbed {held : List FenceKey} {op : DriveOp} {action : DriveAction}
    {rows : List DirtyGeneration} {before after : Fleet} {drive : FleetDrive} {keys : List FenceKey}
    (turn : Turn rules.toFenceRules held op action rows before after label)
    (locked : rules.lockKeys drive.fence = some keys) (apart : ∀ key ∈ keys, key ∉ held)
    (found : before.findDrive label = some drive ∨ after.findDrive label = some drive) :
    after.findDrive label = before.findDrive label ∧
      ∀ anchor ∈ after.anchors, anchor.driveLabel = label → anchor ∈ before.anchors := by
  have clash {old new : FleetDrive} (was : before.findDrive label = some old)
      (now : after.findDrive label = some new)
      (guarded : Guarded rules.toFenceRules held old.fence new.fence) : False := by
    rcases found with found | found
    · rw [was] at found
      cases found
      obtain ⟨key, member, holds⟩ := guarded.old keys locked
      exact apart key member holds
    · rw [now] at found
      cases found
      obtain ⟨key, member, holds⟩ := guarded.new keys locked
      exact apart key member holds
  cases turn with
  | kept drive anchors => exact ⟨drive, anchors⟩
  | dirtied old new was now guarded _ _ _ => exact (clash was now guarded).elim
  | anchored old new _ was now guarded _ _ _ _ _ => exact (clash was now guarded).elim

section Drives

variable {c after : Catalog} {op : DriveOp} {action : DriveAction} {held : List FenceKey}
variable {rows : List DirtyGeneration}

theorem evidenceAccepted_iff {tables : Tables} : tables.evidenceAccepted = true ↔
    (tables.dirty.map generationKey).Nodup ∧ (tables.anchors.map anchorKey).Nodup ∧
      (∀ row ∈ tables.anchors, anchorKey row ∈ tables.dirty.map generationKey) ∧
      (∀ row ∈ tables.dirty, dirtyChecked row = true) ∧
      ∀ row ∈ tables.anchors, anchorChecked row = true := by
  simp [Tables.evidenceAccepted, and_assoc]

theorem anchorsBegun_of_accepted (accepted : after.tables.evidenceAccepted = true) : AnchorsBegun after := by
  obtain ⟨_, _, refers, _, checked⟩ := evidenceAccepted_iff.mp accepted
  intro anchor member
  have check := checked anchor member
  simp only [anchorChecked, Bool.and_eq_true, decide_eq_true_eq] at check
  exact ⟨check.1.1.1.1.1.2, refers anchor member⟩

/-- A generation that has just begun has no anchor. -/
theorem fresh_of_accepted (accepted : after.tables.evidenceAccepted = true) (begun : AnchorsBegun c)
    (grown : after.fleet.dirty = c.fleet.dirty ++ rows) {anchor : CleanAnchor}
    (old : anchor ∈ c.tables.anchors) : anchorKey anchor ∉ rows.map generationKey := by
  obtain ⟨distinct, _⟩ := evidenceAccepted_iff.mp accepted
  have grown : after.tables.dirty = c.tables.dirty ++ rows := grown
  rw [grown, List.map_append] at distinct
  intro member
  exact (List.nodup_append.mp distinct).2.2 _ (begun anchor old).2 _ member rfl

/-- What a step observes is the free space of its drive. -/
theorem shows_of_observes {free : Option Nat}
    (truthful : ∀ seen ∈ observations op action, world.Shows seen.1 seen.2)
    (settling : ∀ settled, op = .settling settled → SettlementKept world settled)
    (observes : Observes world.catalog.fleet op action label free) : world.Shows label free := by
  cases observes with
  | operator => exact truthful _ List.mem_cons_self
  | mutation member => exact truthful _ (List.mem_map_of_mem member)
  | settlement current => exact (settling _ rfl).2 current
  | bridge => exact truthful _ List.mem_cons_self
  | enrichment => exact truthful _ List.mem_cons_self

/-- The anchor of a current generation shows the free space also after a step of a drive operation. -/
theorem anchorsKept_of_turns (kept : AnchorsKept world) (begun : AnchorsBegun world.catalog)
    (accepted : after.tables.evidenceAccepted = true)
    (turns : Turns rules.toFenceRules held op action world.catalog.fleet after.fleet)
    (shows : ∀ label free, Observes world.catalog.fleet op action label free → world.Shows label free) :
    AnchorsKept { world with catalog := after } := by
  obtain ⟨rows, grown, turns⟩ := turns
  obtain ⟨_, distinct, _, _, checked⟩ := evidenceAccepted_iff.mp accepted
  intro label drive anchor found member key
  have labelled : anchor.driveLabel = label := congrArg Prod.fst key
  cases turns label with
  | kept same anchors =>
      exact kept label drive anchor (same ▸ found) (anchors anchor member labelled) key
  | dirtied old drive' was now guarded proven new anchors =>
      rw [now] at found
      cases found
      exact absurd (key ▸ new) (fresh_of_accepted accepted begun grown (anchors anchor member labelled))
  | anchored old drive' anchor' was now guarded member' key' observes fingerprint authority =>
      rw [now] at found
      cases found
      obtain rfl : anchor = anchor' :=
        List.inj_on_of_nodup_map distinct member member' (key.trans key'.symm)
      have check := checked anchor member
      simp only [anchorChecked, Bool.and_eq_true, beq_iff_eq, Option.any_eq_true] at check
      obtain ⟨⟨⟨⟨⟨⟨_, _⟩, _⟩, dedicated⟩, _⟩, _⟩, free, known, _⟩ := check
      refine ⟨authority ▸ dedicated, ?_⟩
      have shown := shows label _ observes
      rw [known, World.Shows] at shown
      rw [known]
      simpa using shown

/-- Rows of drives do not vanish. -/
theorem Turn.found {before after : Fleet} {drive : FleetDrive}
    (turn : Turn rules.toFenceRules held op action rows before after label)
    (was : before.findDrive label = some drive) : ∃ next, after.findDrive label = some next := by
  cases turn with
  | kept same _ => exact ⟨drive, same.trans was⟩
  | dirtied _ next _ now _ _ _ _ => exact ⟨next, now⟩
  | anchored _ next _ _ now _ _ _ _ _ _ => exact ⟨next, now⟩

end Drives

section Steps

variable {conn : ι} {after : Catalog} {op : DriveOp} {action : DriveAction}

theorem mem_writers_of_mutating {envelope : Envelope} {entry : Captured × Nat} {keys : List FenceKey}
    (here : world.holders conn = .operation (.mutating envelope)) (member : entry ∈ envelope.advanced)
    (locked : rules.lockKeys entry.1.identity = some keys) : ∀ key ∈ keys, key ∈ world.writers rules conn := by
  intro key among
  rw [World.writers, here]
  exact mem_compatibleKeys
    (List.mem_map_of_mem (f := fun entry : Captured × Nat => entry.1.identity) member) locked among

/-- A reconciliation of a drive that has an identity holds its keys. -/
theorem mem_writers_of_settling {settled : Settling} {keys : List FenceKey}
    (here : world.holders conn = .operation (.settling settled))
    (locked : rules.lockKeys settled.job.facts.fence = some keys) :
    ∀ key ∈ keys, key ∈ world.writers rules conn := by
  intro key among
  obtain ⟨_, fingerprint, _, saved, _⟩ := lockKeys_spec locked
  have listed : settled.job.facts.fence ∈ settled.job.identities := by
    simp [Reconciling.identities, saved]
  rw [World.writers, here]
  exact mem_compatibleKeys listed locked among

theorem MutationKept.performed {rows : List DirtyGeneration} {held : List FenceKey} {envelope : Envelope}
    {other : ι} (kept : MutationKept rules world envelope)
    (here : world.holders other = .operation (.mutating envelope))
    (turns : ∀ label, Turn rules.toFenceRules held op action rows world.catalog.fleet after.fleet label)
    (apart : ∀ key ∈ world.writers rules other, key ∉ held) :
    MutationKept rules { world with catalog := after } envelope := by
  intro entry member
  obtain ⟨unanchored, drive, keys, found, fence, locked⟩ := kept entry member
  have locked' : rules.lockKeys drive.fence = some keys := fence ▸ locked
  obtain ⟨same, anchors⟩ := (turns entry.1.label).undisturbed locked'
    (fun key among => apart key (mem_writers_of_mutating here member locked key among)) (.inl found)
  refine ⟨?_, drive, keys, same.trans found, fence, locked⟩
  intro drive' found' anchor among key
  exact unanchored drive' (same ▸ found') anchor
    (anchors anchor among (congrArg Prod.fst key)) key

/-- The generations that a mutation has begun are not anchored. -/
theorem MutationKept.entered {envelope : Envelope} (begun : AnchorsBegun world.catalog)
    (accepted : after.tables.evidenceAccepted = true)
    (entered : Entered rules.toFenceRules world.catalog.fleet after.fleet envelope) :
    MutationKept rules { world with catalog := after } envelope := by
  intro entry member
  obtain ⟨rows, grown, entries⟩ := entered.begun
  obtain ⟨drive, keys, found, fence, locked, new⟩ := entries entry member
  refine ⟨?_, drive, keys, found, fence, locked⟩
  intro drive' found' anchor among key
  rw [found] at found'
  cases found'
  have kept : after.tables.anchors = world.catalog.tables.anchors := entered.anchors
  have old : anchor ∈ world.catalog.tables.anchors := kept ▸ among
  exact fresh_of_accepted accepted begun grown old (key ▸ new)

/-- A reconciliation's drive is changed by no other holder, or it is no longer as it was captured. -/
theorem SettlementKept.performed {rows : List DirtyGeneration} {held : List FenceKey}
    {settled : Settling} {other : ι} (kept : SettlementKept world settled)
    (here : world.holders other = .operation (.settling settled))
    (prepared : Prepared rules.toFenceRules settled) (accepted : after.tables.evidenceAccepted = true)
    (turns : ∀ label, Turn rules.toFenceRules held op action rows world.catalog.fleet after.fleet label)
    (apart : ∀ key ∈ world.writers rules other, key ∉ held) :
    SettlementKept { world with catalog := after } settled := by
  obtain ⟨⟨drive, was⟩, shows⟩ := kept
  refine ⟨(turns _).found was, fun found => ?_⟩
  have keyed (proven : settled.job.facts.fence.identityFingerprint.isSome = true) :
      world.catalog.fleet.findDrive settled.job.call.label = some settled.job.facts := by
    have listed : settled.job.facts.fence ∈ settled.job.identities := by
      simp [Reconciling.identities, proven]
    obtain ⟨keys, locked⟩ := Option.isSome_iff_exists.mp (prepared.ready _ listed)
    obtain ⟨same, _⟩ := (turns settled.job.call.label).undisturbed locked
      (fun key among => apart key (mem_writers_of_settling here locked key among)) (.inr found)
    exact same.symm.trans found
  cases turns settled.job.call.label with
  | kept same _ => exact shows (same.symm.trans found)
  | dirtied old new _ now _ proven _ _ =>
      rw [now] at found
      cases found
      exact shows (keyed proven)
  | anchored old new anchor _ now _ member _ _ fingerprint _ =>
      rw [now] at found
      cases found
      obtain ⟨_, _, _, _, checked⟩ := evidenceAccepted_iff.mp accepted
      have check := checked anchor member
      simp only [anchorChecked, Bool.and_eq_true, Option.any_eq_true] at check
      obtain ⟨⟨⟨⟨⟨⟨_, _⟩, text, known, _⟩, _⟩, _⟩, _⟩, _⟩ := check
      exact shows (keyed (by rw [← fingerprint, known]; rfl))

/-- Who may write to a drive holds its keys, in a generation without an anchor, unless the drive is not
    dedicated. -/
theorem mayWrite_cases (kept : Kept rules world) (may : world.MayWrite rules conn label) :
    (world.Unanchored label ∧ (∀ settled, world.holders conn ≠ .operation (.settling settled)) ∧
      HoldsDrive rules.toFenceRules (world.writers rules conn) world.catalog.fleet label) ∨
    (¬world.Dedicated label ∧ ∀ other, World.reconciled (world.holders other) ≠ some label) := by
  rcases may with holder | others
  · left
    cases shape : world.holders conn with
    | operation op =>
        cases op with
        | mutating envelope =>
            rw [shape] at holder
            obtain ⟨entry, member, rfl⟩ := holder
            obtain ⟨unanchored, drive, keys, found, fence, locked⟩ :=
              kept.mutating conn envelope shape entry member
            refine ⟨unanchored, by simp, fun drive' found' => ⟨keys, ?_, ?_⟩⟩
            · rw [found] at found'
              cases found'
              rw [fence]
              exact locked
            · exact mem_writers_of_mutating shape member locked
        | _ => simp [shape, World.Writes] at holder
    | direct keys =>
        rw [shape] at holder
        refine ⟨holder.2, by simp, ?_⟩
        rw [World.writers, shape]
        exact holder.1
  · exact .inr others

/-- A drive gets another free space. -/
theorem Kept.written (kept : Kept rules world) (may : world.MayWrite rules conn label) (free : Nat) :
    Kept rules { world with free := Function.update world.free label free } := by
  have cases' := mayWrite_cases kept may
  constructor
  · exact kept.excluded
  · exact kept.established
  · exact kept.begun
  · intro other drive anchor found member key
    obtain ⟨dedicated, shown⟩ := kept.anchored other drive anchor found member key
    by_cases same : other = label
    · subst same
      rcases cases' with ⟨unanchored, _, _⟩ | ⟨undedicated, _⟩
      · exact absurd key (unanchored drive found anchor member)
      · exact absurd ⟨drive, found, dedicated⟩ undedicated
    · refine ⟨dedicated, ?_⟩
      rw [shown]
      simp [same]
  · exact kept.mutating
  · intro other settled here
    obtain ⟨known, shows⟩ := kept.settling other settled here
    refine ⟨known, fun found => ?_⟩
    by_cases same : settled.job.call.label = label
    · subst same
      rcases cases' with ⟨_, notSettling, holds⟩ | ⟨_, unreconciled⟩
      · obtain ⟨keys, locked, held⟩ := holds settled.job.facts found
        obtain ⟨key, among⟩ := lockKeys_nonempty locked
        have one : conn = other :=
          kept.excluded.same (held key among) (mem_writers_of_settling here locked key among)
        exact absurd (one ▸ here) (notSettling settled)
      · exact absurd (by rw [here]; rfl) (unreconciled other)
    · have shows := shows found
      rw [World.Shows] at shows ⊢
      simpa [same] using shows
  · intro other current labelled
    refine (kept.previews other current labelled).of_frame ?_ fun _ _ found _ _ => found
    intro drive keys found locked shared dedicated
    refine ⟨found, ?_⟩
    by_cases same : current = label
    · subst same
      rcases cases' with ⟨_, _, holds⟩ | ⟨undedicated, _⟩
      · obtain ⟨keys', locked', held⟩ := holds drive found
        rw [locked] at locked'
        cases locked'
        obtain ⟨key, among⟩ := lockKeys_nonempty locked
        exact absurd (shared key among) (kept.excluded.shared conn other key (held key among))
      · exact absurd ⟨drive, found, dedicated⟩ undedicated
    · simp [same]

theorem graphWrite_tables {c after : Catalog} {body : Body} (written : c.graphWrite body = .ok after) :
    ∃ tables noop, body c = .ok (tables, noop) ∧ after.tables = tables := by
  simp only [Catalog.graphWrite, bind_eq_ok] at written
  obtain ⟨_, _, ⟨tables, noop⟩, performed, ends⟩ := written
  refine ⟨tables, noop, performed, ?_⟩
  cases noop with
  | true =>
      cases ends
      rfl
  | false =>
      simp only [Bool.false_eq_true, if_false, bumpRevision_eq_ok] at ends
      obtain ⟨_, rfl⟩ := ends
      rfl

theorem insertDrive_rows {tables next : Tables} {reg : Registration}
    (inserted : tables.insertDrive reg = .ok next) :
    next.drives = tables.drives ++ [reg.drive] ∧ next.dirty = tables.dirty ∧
      next.anchors = tables.anchors := by
  unfold Tables.insertDrive at inserted
  split at inserted
  · cases inserted
  · cases inserted
    exact ⟨rfl, rfl, rfl⟩

theorem joinActivePlan_rows (tables : Tables) (driveLabel : String) :
    (tables.joinActivePlan driveLabel).drives = tables.drives ∧
      (tables.joinActivePlan driveLabel).dirty = tables.dirty ∧
      (tables.joinActivePlan driveLabel).anchors = tables.anchors := by
  unfold Tables.joinActivePlan
  split
  · exact ⟨rfl, rfl, rfl⟩
  · dsimp only
    split_ifs <;> exact ⟨rfl, rfl, rfl⟩

theorem registerDriveBody_rows {c : Catalog} {legacy : Check} {reg : Registration} {tables : Tables}
    {noop : Bool} (performed : registerDriveBody legacy reg c = .ok (tables, noop)) :
    tables.drives = c.tables.drives ++ [reg.drive] ∧ tables.dirty = c.tables.dirty ∧
      tables.anchors = c.tables.anchors := by
  simp only [registerDriveBody, bind_eq_ok, pure_eq_ok, Prod.mk.injEq] at performed
  obtain ⟨_, _, _, _, registered, inserted, rfl, _⟩ := performed
  obtain ⟨drives, dirty, anchors⟩ := joinActivePlan_rows registered reg.driveLabel
  obtain ⟨drives', dirty', anchors'⟩ := insertDrive_rows inserted
  exact ⟨drives.trans drives', dirty.trans dirty', anchors.trans anchors'⟩

/-- A registration adds a row without an identity. -/
theorem enrolment_rows {c after : Catalog} {call : Enrolment}
    (written : c.graphWrite call.body = .ok after) :
    after.tables.drives = c.tables.drives ++ [call.registration.drive] ∧
      after.tables.dirty = c.tables.dirty ∧ after.tables.anchors = c.tables.anchors := by
  obtain ⟨tables, noop, performed, rfl⟩ := graphWrite_tables written
  cases call with
  | registerDrive legacy reg => exact registerDriveBody_rows performed
  | registerNas legacy revision reg => exact registerDriveBody_rows (registerNasBody_ok performed)
  | registerNewIdentity check planId reg =>
      simp only [Enrolment.body, registerNewIdentityBody, bind_eq_ok] at performed
      obtain ⟨_, _, registered, inserted, _, _, joined⟩ := performed
      split at joined
      · cases joined
      · simp only [pure_eq_ok, Prod.mk.injEq] at joined
        obtain ⟨same, _⟩ := joined
        obtain ⟨drives, dirty, anchors⟩ := insertDrive_rows inserted
        rw [← same]
        exact ⟨drives, dirty, anchors⟩

/-- A drive that was not there before has no identity, and its generation is 0. -/
def Unwritten (drive : FleetDrive) : Prop :=
  drive.writeGeneration = 0 ∧ drive.fence.identityFingerprint = none

/-- Rows that are added leave the drives that there are. -/
theorem findDrive_enrolled {c : Catalog} {call : Enrolment}
    (drives : after.tables.drives = c.tables.drives ++ [call.registration.drive]) (label : String) :
    after.fleet.findDrive label = c.fleet.findDrive label ∨
      c.fleet.findDrive label = none ∧
        ∃ drive, after.fleet.findDrive label = some drive ∧ Unwritten drive := by
  have found : after.fleet.findDrive label = (c.fleet.findDrive label).or
      ([call.registration.drive].find? (·.driveLabel == label)) := by
    rw [Fleet.findDrive, Fleet.findDrive, Catalog.fleet, Catalog.fleet]
    dsimp only
    rw [drives, List.find?_append]
  cases before : c.fleet.findDrive label with
  | some drive =>
      left
      rw [found, before]
      rfl
  | none =>
      rw [found, before, Option.none_or, List.find?_singleton]
      split_ifs
      · exact .inr ⟨rfl, _, rfl, rfl, rfl⟩
      · exact .inl rfl

/-- A transaction that leaves the evidence alone, and the drives that there are. -/
theorem Kept.grown (kept : Kept rules world) (dirty : after.tables.dirty = world.catalog.tables.dirty)
    (anchors : after.tables.anchors = world.catalog.tables.anchors)
    (drives : ∀ label, after.fleet.findDrive label = world.catalog.fleet.findDrive label ∨
      world.catalog.fleet.findDrive label = none ∧
        ∃ drive, after.fleet.findDrive label = some drive ∧ Unwritten drive) :
    Kept rules { world with catalog := after } := by
  have stays {label : String} {drive : FleetDrive}
      (found : world.catalog.fleet.findDrive label = some drive) :
      after.fleet.findDrive label = some drive := by
    rcases drives label with same | ⟨absent, _⟩
    · exact same.trans found
    · rw [absent] at found
      cases found
  -- a drive with an identity was there before
  have known {label : String} {drive : FleetDrive} (found : after.fleet.findDrive label = some drive)
      (proven : drive.fence.identityFingerprint.isSome = true) :
      world.catalog.fleet.findDrive label = some drive := by
    rcases drives label with same | ⟨_, new, found', _, unproven⟩
    · exact same.symm.trans found
    · rw [found] at found'
      cases found'
      rw [unproven] at proven
      cases proven
  constructor
  · exact kept.excluded
  · exact kept.established
  · intro anchor member
    rw [dirty]
    exact kept.begun anchor (anchors ▸ member)
  · intro label drive anchor found member key
    rcases drives label with same | ⟨_, new, found', zero, _⟩
    · exact kept.anchored label drive anchor (same.symm.trans found) (anchors ▸ member) key
    · rw [found] at found'
      cases found'
      have first := (kept.begun anchor (anchors ▸ member)).1
      have generation : anchor.generation = drive.writeGeneration :=
        congrArg (fun key => key.2.2) key
      omega
  · intro conn envelope here entry member
    obtain ⟨unanchored, drive, keys, found, fence, locked⟩ := kept.mutating conn envelope here entry member
    refine ⟨?_, drive, keys, stays found, fence, locked⟩
    intro drive' found' anchor among
    have same : after.fleet.findDrive entry.1.label = some drive := stays found
    rw [same] at found'
    cases found'
    exact unanchored drive found anchor (anchors ▸ among)
  · intro conn settled here
    obtain ⟨⟨drive, found⟩, shows⟩ := kept.settling conn settled here
    refine ⟨⟨drive, stays found⟩, fun found' => shows ?_⟩
    have same : after.fleet.findDrive settled.job.call.label = some drive := stays found
    exact found.trans (same.symm.trans found')
  · intro conn label labelled
    refine (kept.previews conn label labelled).of_frame ?_ fun drive keys found _ _ => stays found
    intro drive keys found locked _ _
    obtain ⟨_, fingerprint, _, proven, _⟩ := lockKeys_spec locked
    exact ⟨known found (by rw [proven]; rfl), rfl⟩

/-- What a preview relies on after one of its steps. -/
theorem Snapshot.progress {preview next : Preview} {action : PreviewAction}
    (kept : ∀ label, preview.labels.head? = some label → Snapshot rules world label preview.phase)
    (shows : ∀ label observed, preview.observes action = some (label, observed) →
      world.Shows label observed)
    (progress : Preview.Progress rules world.catalog preview action next) (label : String)
    (current : next.labels.head? = some label) : Snapshot rules world label next.phase := by
  cases progress with
  | stays => exact kept label current
  | begins => trivial
  | captures _ => trivial
  | fences was known locked => exact ⟨_, _, known, locked⟩
  | refuses _ unfenced => rcases unfenced with rfl | rfl | ⟨_, rfl⟩ <;> trivial
  | @observes label' facts observation head was =>
      obtain rfl : label' = label := Option.some.inj (head.symm.trans current)
      have before := kept label' head
      rw [was] at before
      refine ⟨before, ?_⟩
      intro seen same proven _ _ _ _
      subst same
      apply shows
      simp [Preview.observes, head, Option.filter, proven]
  | @compares label' facts observation head was =>
      obtain rfl : label' = label := Option.some.inj (head.symm.trans current)
      have before := kept label' head
      rw [was] at before
      refine ⟨before.1, before.2, fun same => ?_⟩
      obtain ⟨identity, keys, known, locked⟩ := before.1
      have same := of_decide_eq_true same
      rw [known, AdmissionFacts.fenceIdentity, Option.map_eq_some_iff] at same
      obtain ⟨drive, read, rfl⟩ := same
      refine ⟨drive, ?_, known⟩
      unfold admissionFacts at read
      split at read
      · cases read
      · rename_i found
        cases read
        exact found
  | derives _ _ _ => trivial

variable [DecidableEq ι] {holder : Holder}

theorem writers_setHolder :
    (world.setHolder conn holder).writers rules =
      Function.update (world.writers rules) conn (holder.fences rules.toFenceRules) := by
  funext other
  by_cases same : other = conn
  · subst same
    simp [World.writers, World.setHolder]
  · simp [World.writers, World.setHolder, same]

/-- A connection that has no operation under way any more, and holds fences of its own or free ones. -/
theorem Kept.setHolder (kept : Kept rules world)
    (taken : ∀ key ∈ holder.fences rules.toFenceRules,
      key ∈ world.writers rules conn ∨ Unheld (world.writers rules) (world.readers rules) key)
    (idle : holder.op = .idle) : Kept rules (world.setHolder conn holder) := by
  have holds (other : ι) : (world.setHolder conn holder).holders other = world.holders other ∨
      ((world.setHolder conn holder).holders other).op = .idle := by
    by_cases same : other = conn
    · subst same
      right
      simpa [World.setHolder] using idle
    · left
      simp [World.setHolder, same]
  constructor
  · rw [writers_setHolder]
    exact kept.excluded.write conn taken
  · intro other
    rcases holds other with same | ended
    · rw [same]
      exact kept.established other
    · rw [ended]
      trivial
  · exact kept.begun
  · exact kept.anchored
  · intro other envelope here
    rcases holds other with same | ended
    · exact kept.mutating other envelope (same ▸ here)
    · rw [here] at ended
      cases ended
  · intro other settled here
    rcases holds other with same | ended
    · exact kept.settling other settled (same ▸ here)
    · rw [here] at ended
      cases ended
  · exact kept.previews

/-- An operation ends, and its fences are free. -/
theorem Kept.ended (kept : Kept rules world) : Kept rules
    (world.setHolder conn ((world.holders conn).next .idle)) := by
  apply kept.setHolder
  · intro key member
    cases shape : world.holders conn with
    | operation op =>
        rw [shape] at member
        cases member
    | direct keys =>
        rw [shape] at member
        left
        rw [World.writers, shape]
        exact member
  · cases world.holders conn <;> rfl

/-- A transaction of a drive operation that commits. -/
theorem Kept.performed (kept : Kept rules world) {next : DriveOp}
    (performed : (world.holders conn).op.perform rules.toSerialRules world.catalog action =
      .ok (after, next))
    (accepted : after.tables.evidenceAccepted = true)
    (acquires : ∀ key ∈ ((world.holders conn).next next).fences rules.toFenceRules,
      key ∈ world.writers rules conn ∨ Unheld (world.writers rules) (world.readers rules) key)
    (truthful : ∀ seen ∈ observations (world.holders conn).op action, world.Shows seen.1 seen.2)
    (direct : (world.holders conn).op = .idle → ∀ label, directDrive action = some label →
      HoldsDrive rules.toFenceRules (world.writers rules conn) world.catalog.fleet label) :
    Kept rules ({ world with catalog := after }.setHolder conn ((world.holders conn).next next)) := by
  have holds : ∀ key ∈ fences rules.toFenceRules (world.holders conn).op, key ∈ world.writers rules conn := by
    intro key member
    cases shape : world.holders conn with
    | operation op =>
        rw [shape] at member
        rw [World.writers, shape]
        exact member
    | direct keys =>
        rw [shape] at member
        cases member
  have stepped := perform_stepped performed (kept.established conn) holds direct
  have settling (settled : Settling) (same : (world.holders conn).op = .settling settled) :
      SettlementKept world settled := by
    cases shape : world.holders conn with
    | operation op =>
        rw [shape] at same
        exact kept.settling conn settled (shape.trans (congrArg Holder.operation same))
    | direct keys =>
        rw [shape] at same
        cases same
  obtain ⟨rows, grown, turns⟩ := stepped.turns
  have apart {other : ι} (different : other ≠ conn) :
      ∀ key ∈ world.writers rules other, key ∉ world.writers rules conn :=
    kept.excluded.apart other conn different
  have anchored : AnchorsKept { world with catalog := after } :=
    anchorsKept_of_turns kept.anchored kept.begun accepted ⟨rows, grown, turns⟩
      fun label free => shows_of_observes truthful settling
  constructor
  · rw [writers_setHolder]
    exact kept.excluded.write conn acquires
  · intro other
    by_cases same : other = conn
    · subst same
      cases shape : world.holders other with
      | operation op => simpa [World.setHolder, shape, Holder.next, Holder.op] using stepped.established
      | direct keys => simp [World.setHolder, Holder.next, Holder.op, Established]
    · simpa [World.setHolder, same] using kept.established other
  · exact anchorsBegun_of_accepted accepted
  · exact anchored
  · intro other envelope here
    by_cases same : other = conn
    · subst same
      cases shape : world.holders other with
      | operation op =>
          simp only [World.setHolder, shape, Holder.next, Function.update_self,
            Holder.operation.injEq] at here
          rcases stepped.entered envelope here with ⟨before, rfl⟩ | entered
          · rw [shape] at before
            exact kept.mutating other envelope (shape.trans (congrArg Holder.operation before))
          · exact .entered kept.begun accepted entered
      | direct keys => simp [World.setHolder, shape, Holder.next] at here
    · have here : world.holders other = .operation (.mutating envelope) := by
        simpa [World.setHolder, same] using here
      exact (kept.mutating other envelope here).performed here turns (apart same)
  · intro other settled here
    by_cases same : other = conn
    · subst same
      cases shape : world.holders other with
      | operation op =>
          simp only [World.setHolder, shape, Holder.next, Function.update_self,
            Holder.operation.injEq] at here
          obtain ⟨rfl, before | ⟨job, seen, before, rfl, rfl, final, found⟩⟩ := stepped.settled settled here
          · exact settling settled before
          · rw [before] at truthful
            exact ⟨⟨_, found⟩, fun _ => final ▸ truthful _ List.mem_cons_self⟩
      | direct keys => simp [World.setHolder, shape, Holder.next] at here
    · have here : world.holders other = .operation (.settling settled) := by
        simpa [World.setHolder, same] using here
      have prepared := kept.established other
      rw [here] at prepared
      exact (kept.settling other settled here).performed here prepared accepted turns (apart same)
  · intro other label current
    refine (kept.previews other label current).of_frame ?_ ?_
    · intro drive keys found locked shared _
      have free : ∀ key ∈ keys, key ∉ world.writers rules conn := fun key among held =>
        kept.excluded.shared conn other key held (shared key among)
      obtain ⟨same, _⟩ := (turns label).undisturbed locked free (.inr found)
      exact ⟨same.symm.trans found, rfl⟩
    · intro drive keys found locked shared
      have free : ∀ key ∈ keys, key ∉ world.writers rules conn := fun key among held =>
        kept.excluded.shared conn other key held (shared key among)
      obtain ⟨same, _⟩ := (turns label).undisturbed locked free (.inl found)
      exact same.trans found

theorem readers_setPreview {preview : Preview} :
    ({ world with previews := Function.update world.previews conn preview } : World ι).readers rules =
      Function.update (world.readers rules) conn (preview.phase.shared rules.toFenceRules) := by
  funext other
  by_cases same : other = conn
  · subst same
    simp [World.readers]
  · simp [World.readers, same]

theorem Kept.previewed (kept : Kept rules world) {action : PreviewAction}
    (shared : ∀ key ∈ ((world.previews conn).step rules world.catalog action).phase.shared
      rules.toFenceRules, key ∈ world.readers rules conn ∨ Readable (world.writers rules) key)
    (shows : ∀ label observed, (world.previews conn).observes action =
      some (label, observed) → world.Shows label observed) :
    Kept rules (world.step rules (.preview conn action)) := by
  constructor
  · rw [World.step, readers_setPreview]
    exact kept.excluded.read conn shared
  · exact kept.established
  · exact kept.begun
  · exact kept.anchored
  · exact kept.mutating
  · exact kept.settling
  · intro other label current
    by_cases same : other = conn
    · subst same
      simp only [World.step, Function.update_self] at current ⊢
      exact Snapshot.progress (kept.previews other) shows Preview.step_progress label current
    · simp only [World.step, Function.update_of_ne same] at current ⊢
      exact kept.previews other label current

/-- Every allowed step keeps what the parties rely on. -/
theorem Kept.step (kept : Kept rules world) {event : Event ι} (allowed : world.Allowed rules event) :
    Kept rules (world.step rules event) := by
  cases event with
  | drive conn action =>
      obtain ⟨acquires, truthful, direct⟩ := allowed
      simp only [World.step]
      split
      · exact kept.ended
      · rename_i after next performed
        simp only [World.fencesAfter, performed] at acquires
        split_ifs with accepted
        · exact kept.performed performed accepted acquires truthful direct
        · exact kept.ended
  | hold conn keys =>
      simp only [World.step]
      split
      · exact kept.setHolder (fun key member => .inr (allowed key member)) rfl
      · exact kept
  | release conn =>
      simp only [World.step]
      split
      · exact kept.setHolder (fun key member => nomatch member) rfl
      · exact kept
  | write conn label free => exact kept.written allowed free
  | register call =>
      simp only [World.step]
      split
      · exact kept
      · rename_i after written
        obtain ⟨drives, dirty, anchors⟩ := enrolment_rows written
        exact kept.grown dirty anchors (findDrive_enrolled drives)
  | others other => exact kept.grown rfl rfl fun _ => .inl rfl
  | preview conn action => exact kept.previewed allowed.1 allowed.2

end Steps

end Modelark.Admission
