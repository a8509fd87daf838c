import Modelark.Revision.Exclusion
import Modelark.Revision.DriveRuns

/-!
# The generations of a drive

In every run of drive operations, the generations begun in the current epoch of a drive are 1 to its
current one, all below it have a clean anchor, and neither the epoch nor the generation goes back. The
anchors of a mutation are published together, after its body returned and every drive of it was
reconciled and observed anew.
-/

namespace Modelark.Revision

open Library Execution Capacity

/-- The journal that the evidence tables keep of a drive. -/
def driveJournal (fleet : Fleet) (label : String) : Option Journal :=
  (fleet.findDrive label).map fun drive =>
    { epoch := drive.fence.identityEpoch
      generation := drive.writeGeneration
      begun := (fleet.dirty.filter (·.driveLabel == label)).map fun row =>
        (row.identityEpoch, row.generation)
      clean := (fleet.anchors.filter (·.driveLabel == label)).map fun row =>
        (row.identityEpoch, row.generation) }

/-- The drives are the same, and every drive's journal has only moved forward. -/
structure Advances (before after : Fleet) : Prop where
  labels : after.drives.map FleetDrive.driveLabel = before.drives.map FleetDrive.driveLabel
  journals : ∀ label journal, driveJournal before label = some journal →
    ∃ next, driveJournal after label = some next ∧ Journal.Shifts journal next

theorem Advances.refl (fleet : Fleet) : Advances fleet fleet :=
  ⟨rfl, fun _ journal found => ⟨journal, found, .refl⟩⟩

theorem Advances.trans {first second third : Fleet} (one : Advances first second)
    (two : Advances second third) : Advances first third := by
  refine ⟨two.labels.trans one.labels, ?_⟩
  intro label journal found
  obtain ⟨middle, found', shifts⟩ := one.journals label journal found
  obtain ⟨last, found'', shifts'⟩ := two.journals label middle found'
  exact ⟨last, found'', shifts.trans shifts'⟩

/-- Only drives and evidence count. -/
theorem Advances.of_rows {before after : Fleet} (drives : after.drives = before.drives)
    (dirty : after.dirty = before.dirty) (anchors : after.anchors = before.anchors) :
    Advances before after := by
  refine ⟨by rw [drives], ?_⟩
  intro label journal found
  refine ⟨journal, ?_, .refl⟩
  simpa only [driveJournal, Fleet.findDrive, drives, dirty, anchors] using found

/-- A drive found after was there before. -/
theorem Advances.found {before after : Fleet} (advances : Advances before after) {label : String}
    {next : Journal} (found : driveJournal after label = some next) :
    ∃ journal, driveJournal before label = some journal ∧ Journal.Shifts journal next := by
  obtain ⟨drive, foundDrive, _⟩ := Option.map_eq_some_iff.mp found
  have member : label ∈ before.drives.map FleetDrive.driveLabel := by
    rw [← advances.labels]
    have labelled : drive.driveLabel = label := by simpa using List.find?_some foundDrive
    exact List.mem_map.mpr ⟨drive, List.mem_of_find?_eq_some foundDrive, labelled⟩
  obtain ⟨old, oldMember, labelled⟩ := List.mem_map.mp member
  have present : (before.findDrive label).isSome = true := by
    rw [Fleet.findDrive, List.find?_isSome]
    exact ⟨old, oldMember, by simp [labelled]⟩
  obtain ⟨earlier, foundEarlier⟩ := Option.isSome_iff_exists.mp present
  obtain ⟨other, found', shifts⟩ := advances.journals label _ (by rw [driveJournal, foundEarlier]; rfl)
  rw [found] at found'
  cases found'
  exact ⟨_, by rw [driveJournal, foundEarlier]; rfl, shifts⟩

theorem find_updated {drives : List FleetDrive} (change : FleetDrive → FleetDrive)
    (keeps : ∀ drive, (change drive).driveLabel = drive.driveLabel) (label other : String) :
    (drives.map fun drive => if drive.driveLabel = label then change drive else drive).find?
        (·.driveLabel == other) =
      (drives.find? (·.driveLabel == other)).map
        fun drive => if other = label then change drive else drive := by
  induction drives with
  | nil => rfl
  | cons drive drives ih =>
      have same : (if drive.driveLabel = label then change drive else drive).driveLabel =
          drive.driveLabel := by
        split_ifs <;> simp [keeps]
      simp only [List.map_cons, List.find?_cons, same]
      cases found : drive.driveLabel == other with
      | true =>
          have same : drive.driveLabel = other := by simpa using found
          simp [same]
      | false => simpa using ih

theorem labels_updated {drives : List FleetDrive} (change : FleetDrive → FleetDrive)
    (keeps : ∀ drive, (change drive).driveLabel = drive.driveLabel) (label : String) :
    (drives.map fun drive => if drive.driveLabel = label then change drive else drive).map
        FleetDrive.driveLabel = drives.map FleetDrive.driveLabel := by
  rw [List.map_map]
  apply List.map_congr_left
  intro drive _
  simp only [Function.comp]
  split_ifs <;> simp [keeps]

/-- A change of one drive moves its journal forward, and leaves the others. -/
theorem advances_of_update {fleet : Fleet} {label : String} (change : FleetDrive → FleetDrive)
    (keeps : ∀ drive, (change drive).driveLabel = drive.driveLabel)
    (shifts : ∀ drive journal, fleet.findDrive label = some drive →
      driveJournal fleet label = some journal → Journal.Shifts journal
        { journal with
          epoch := (change drive).fence.identityEpoch, generation := (change drive).writeGeneration }) :
    Advances fleet { fleet with
      drives := fleet.drives.map fun drive =>
        if drive.driveLabel = label then change drive else drive } := by
  refine ⟨labels_updated change keeps label, ?_⟩
  intro other journal found
  obtain ⟨drive, foundDrive, rfl⟩ := Option.map_eq_some_iff.mp found
  by_cases same : other = label
  · subst same
    refine ⟨_, ?_, shifts drive _ foundDrive found⟩
    simp only [driveJournal, Fleet.findDrive] at foundDrive ⊢
    rw [find_updated change keeps, foundDrive]
    simp
  · refine ⟨_, ?_, .refl⟩
    simp only [driveJournal, Fleet.findDrive] at foundDrive ⊢
    rw [find_updated change keeps, foundDrive]
    simp [same]

variable {fleet after : Fleet} {label : String}

theorem drive_eq_ok {drive : FleetDrive} : fleet.drive label = .ok drive ↔
    fleet.findDrive label = some drive := by
  unfold Fleet.drive
  cases fleet.findDrive label <;> simp

/-- An advance begins the next generation of a drive whose current one is clean, if it has any. -/
theorem advanceOne_eq_ok {operationCode : String} {captured : Option DriveFacts}
    {owner : Option (String × Nat)} {generation : Nat}
    (advanced : fleet.advanceOne label operationCode captured owner = .ok (after, generation)) :
    ∃ drive, fleet.findDrive label = some drive ∧ generation = drive.writeGeneration + 1 ∧
      (drive.writeGeneration = 0 ∨ fleet.generationIsClean label drive.facts = true) ∧
      after = { fleet with
        dirty := fleet.dirty ++
          [⟨label, drive.fence.identityEpoch, drive.writeGeneration + 1, operationCode, owner⟩]
        drives := fleet.drives.map fun drive =>
          if drive.driveLabel = label then { drive with writeGeneration := generation } else drive } := by
  simp only [Fleet.advanceOne, bind_eq_ok, require_eq_ok, drive_eq_ok, Bool.or_eq_true,
    beq_iff_eq] at advanced
  obtain ⟨drive, found, _, _, _, ready, result⟩ := advanced
  cases result
  exact ⟨drive, found, rfl, ready, rfl⟩

theorem clean_mem {drive : FleetDrive} (clean : fleet.generationIsClean label drive.facts = true) :
    (drive.fence.identityEpoch, drive.writeGeneration) ∈
      (fleet.anchors.filter (·.driveLabel == label)).map fun row =>
        (row.identityEpoch, row.generation) := by
  obtain ⟨anchor, member, same⟩ := List.any_eq_true.mp clean
  simp only [Bool.and_eq_true, beq_iff_eq] at same
  obtain ⟨⟨⟨⟨⟨labelled, epoch⟩, generation⟩, _⟩, _⟩, _⟩ := same
  refine List.mem_map.mpr ⟨anchor, List.mem_filter.mpr ⟨member, by simpa using labelled⟩, ?_⟩
  rw [epoch, generation]
  rfl

theorem advanceOne_advances {operationCode : String} {captured : Option DriveFacts}
    {owner : Option (String × Nat)} {generation : Nat}
    (advanced : fleet.advanceOne label operationCode captured owner = .ok (after, generation)) :
    Advances fleet after := by
  obtain ⟨drive, foundDrive, rfl, ready, rfl⟩ := advanceOne_eq_ok advanced
  let advance (row : FleetDrive) : FleetDrive :=
    { row with writeGeneration := drive.writeGeneration + 1 }
  refine ⟨labels_updated advance (fun _ => rfl) label, ?_⟩
  intro other journal found
  obtain ⟨otherDrive, foundOther, rfl⟩ := Option.map_eq_some_iff.mp found
  by_cases same : other = label
  · subst same
    rw [foundDrive] at foundOther
    obtain rfl := Option.some.inj foundOther
    refine ⟨_, ?_, Relation.ReflTransGen.single (.advance (ready.imp_right clean_mem))⟩
    simp only [driveJournal, Fleet.findDrive] at foundDrive ⊢
    rw [find_updated advance (fun _ => rfl), foundDrive]
    simp [advance]
  · refine ⟨_, ?_, .refl⟩
    simp only [driveJournal, Fleet.findDrive] at foundOther ⊢
    rw [find_updated advance (fun _ => rfl), foundOther]
    have skipped : (label == other) = false := beq_false_of_ne (Ne.symm same)
    simp [same, skipped]

/-- An anchor is published of exactly the current generation, with the proven identity. -/
theorem publishAnchorLocked_eq_ok {epoch generation : Nat} {observation : Observation} {now : String}
    (published : fleet.publishAnchorLocked label epoch generation observation now = .ok after) :
    ∃ drive, fleet.findDrive label = some drive ∧ drive.fence.identityEpoch = epoch ∧
      drive.writeGeneration = generation ∧
      Fleet.requireIdentity observation drive.facts = .ok () ∧
      after = { fleet with
        anchors := fleet.anchors ++
          [observation.anchor label epoch generation drive.writeAuthority now] } := by
  simp only [Fleet.publishAnchorLocked, bind_eq_ok, require_eq_ok, drive_eq_ok, Bool.and_eq_true,
    beq_iff_eq] at published
  obtain ⟨drive, found, _, ⟨sameEpoch, sameGeneration⟩, _, identity, result⟩ := published
  cases result
  exact ⟨drive, found, sameEpoch, sameGeneration, identity, rfl⟩

theorem publishAnchorLocked_advances {epoch generation : Nat} {observation : Observation}
    {now : String}
    (published : fleet.publishAnchorLocked label epoch generation observation now = .ok after) :
    Advances fleet after := by
  obtain ⟨drive, foundDrive, rfl, rfl, _, rfl⟩ := publishAnchorLocked_eq_ok published
  refine ⟨rfl, ?_⟩
  intro other journal found
  obtain ⟨otherDrive, foundOther, rfl⟩ := Option.map_eq_some_iff.mp found
  by_cases same : other = label
  · subst same
    rw [foundDrive] at foundOther
    obtain rfl := Option.some.inj foundOther
    refine ⟨_, ?_, Relation.ReflTransGen.single .settle⟩
    simp only [driveJournal, Fleet.findDrive] at foundDrive ⊢
    rw [foundDrive]
    simp [Observation.anchor]
  · refine ⟨_, ?_, .refl⟩
    simp only [driveJournal, Fleet.findDrive] at foundOther ⊢
    rw [foundOther]
    have skipped : (label == other) = false := beq_false_of_ne (Ne.symm same)
    simp [Observation.anchor, skipped]

theorem dirtyBody_anchors {rules : FenceRules} {operationCode : String} {owner : Option (String × Nat)}
    {captured : List Captured} {result : List (Captured × Nat)}
    (written : fleet.dirtyBody rules operationCode owner captured = .ok (after, result)) :
    after.anchors = fleet.anchors := by
  simp only [Fleet.dirtyBody, bind_eq_ok] at written
  obtain ⟨_, _, _, _, advanced⟩ := written
  let kept (state : Fleet × List (Captured × Nat)) : Prop := state.1.anchors = fleet.anchors
  have all : kept (after, result) := by
    apply thread_invariant kept _ advanced rfl
    intro state entry next _ stepped holds
    simp only [bind_eq_ok] at stepped
    obtain ⟨⟨advancedFleet, generation⟩, one, same⟩ := stepped
    cases same
    obtain ⟨_, _, _, _, rfl⟩ := advanceOne_eq_ok one
    exact holds
  exact all

theorem dirtyBody_advances {rules : FenceRules} {operationCode : String} {owner : Option (String × Nat)}
    {captured : List Captured} {result : List (Captured × Nat)}
    (written : fleet.dirtyBody rules operationCode owner captured = .ok (after, result)) :
    Advances fleet after := by
  simp only [Fleet.dirtyBody, bind_eq_ok] at written
  obtain ⟨_, _, _, _, advanced⟩ := written
  let moved (state : Fleet × List (Captured × Nat)) : Prop := Advances fleet state.1
  have all : moved (after, result) := by
    apply thread_invariant moved _ advanced (.refl fleet)
    intro state entry next _ stepped holds
    simp only [bind_eq_ok] at stepped
    obtain ⟨⟨advancedFleet, generation⟩, one, same⟩ := stepped
    cases same
    exact holds.trans (advanceOne_advances one)
  exact all

theorem anchorBody_advances {rules : FenceRules} {owner : Option (String × Nat)}
    {advanced : List (Captured × Nat)} {candidates : String → Observation} {now : String} {result : Unit}
    (written : fleet.anchorBody rules owner advanced candidates now = .ok (after, result)) :
    Advances fleet after := by
  simp only [Fleet.anchorBody, bind_eq_ok] at written
  obtain ⟨_, _, _, _, anchored, published, same⟩ := written
  cases same
  apply thread_invariant (Advances fleet) _ published (.refl fleet)
  intro state entry next _ stepped holds
  exact holds.trans (publishAnchorLocked_advances stepped)

/-- The anchors of a mutation are those of all its drives. -/
theorem anchorBody_published {rules : FenceRules} {owner : Option (String × Nat)}
    {advanced : List (Captured × Nat)} {candidates : String → Observation} {now : String} {result : Unit}
    (written : fleet.anchorBody rules owner advanced candidates now = .ok (after, result)) :
    ∃ published, after.anchors = fleet.anchors ++ published ∧
      published.map anchorKey = advanced.map fun entry =>
        (entry.1.label, entry.1.facts.identityEpoch, entry.2) := by
  simp only [Fleet.anchorBody, bind_eq_ok] at written
  obtain ⟨_, identities, _, owned, anchored, published, same⟩ := written
  cases same
  clear identities owned
  induction advanced generalizing fleet with
  | nil =>
      cases published
      exact ⟨[], by simp, rfl⟩
  | cons entry advanced ih =>
      obtain ⟨next, first, rest⟩ := bind_eq_ok.mp published
      obtain ⟨drive, _, _, _, _, rfl⟩ := publishAnchorLocked_eq_ok first
      obtain ⟨others, anchors, keys⟩ := ih rest
      refine ⟨_ :: others, by rw [anchors, List.append_assoc]; rfl, ?_⟩
      rw [List.map_cons, List.map_cons, keys]
      rfl

/-- Either adapter leaves the drives as its body does. -/
theorem fleetWriteAs_rows {α : Type} {owner : Option (String × Nat)}
    {body : Fleet → Except Refused (Fleet × α)} {result : α}
    (written : fleet.writeAs owner body = .ok (after, result)) :
    ∃ middle, body fleet = .ok (middle, result) ∧ after.drives = middle.drives ∧
      after.dirty = middle.dirty ∧ after.anchors = middle.anchors := by
  rcases owner with _ | ⟨sessionId, token⟩
  · simp only [Fleet.writeAs, Fleet.operatorWrite, Fleet.bumpRevision, bind_eq_ok,
      require_eq_ok] at written
    obtain ⟨⟨middle, value⟩, performed, bumped, ⟨_, _, same⟩, committed⟩ := written
    cases same
    cases committed
    exact ⟨middle, performed, rfl, rfl, rfl⟩
  · obtain ⟨_, middle, performed, dirty, drives, anchors⟩ := Fleet.sessionWrite_spec written
    exact ⟨middle, performed, drives, dirty, anchors⟩

theorem fleetWriteAs_advances {α : Type} {owner : Option (String × Nat)}
    {body : Fleet → Except Refused (Fleet × α)} {result : α}
    (moves : ∀ middle value, body fleet = .ok (middle, value) → Advances fleet middle)
    (written : fleet.writeAs owner body = .ok (after, result)) : Advances fleet after := by
  obtain ⟨middle, performed, drives, dirty, anchors⟩ := fleetWriteAs_rows written
  exact (moves middle result performed).trans (.of_rows drives dirty anchors)

theorem close_advances {rules : FenceRules} {sessionId : Option String} {token : Option Nat}
    {world : MutationWorld} {advanced : List (Captured × Nat)} {result : Unit}
    (closed : fleet.close rules sessionId token world advanced = .ok (after, result)) :
    Advances fleet after := by
  simp only [Fleet.close, bind_eq_ok] at closed
  obtain ⟨owner, _, _, _, written⟩ := closed
  exact fleetWriteAs_advances (fun _ _ performed => anchorBody_advances performed) written

theorem beginGeneration_advances {operationCode : String} {epoch : Option Nat} {generation : Nat}
    (begun : fleet.beginGeneration label operationCode epoch = .ok (after, generation)) :
    Advances fleet after := by
  simp only [Fleet.beginGeneration, bind_eq_ok, require_eq_ok] at begun
  obtain ⟨_, _, _, _, written⟩ := begun
  have adapter : fleet.writeAs none
      (fun current => current.advanceOne label operationCode none none) = .ok (after, generation) :=
    written
  exact fleetWriteAs_advances (fun _ _ performed => advanceOne_advances performed) adapter

section Catalogs

variable {c next : Catalog}

theorem immediate_rows {body : Catalog → Except Failure Tables} (written : c.immediate body = .ok next) :
    ∃ tables, body c = .ok tables ∧ next.tables = tables := by
  simp only [Catalog.immediate, bind_eq_ok, bumpRevision_eq_ok] at written
  obtain ⟨tables, performed, _, rfl⟩ := written
  exact ⟨tables, performed, rfl⟩

/-- The fleet that tables leave, whatever the sessions and the revision. -/
theorem advances_of_tables {tables : Tables} (same : next.tables = tables)
    (moves : Advances c.fleet ({ c with tables } : Catalog).fleet) : Advances c.fleet next.fleet := by
  subst same
  exact moves.trans (.of_rows rfl rfl rfl)

theorem persisted_eq_ok {facts : FleetDrive} :
    c.persisted label = .ok facts ↔ c.fleet.findDrive label = some facts := by
  simp [Catalog.persisted, drive_eq_ok]

theorem requireOr_eq_ok {holds : Bool} {code : String} {result : Unit} :
    requireOr holds code = .ok result ↔ holds = true := by
  simp [requireOr]

theorem advanceAndAnchor_advances {operationCode : String} {proven : Inventory} {tables : Tables}
    (performed : advanceAndAnchor label operationCode proven c = .ok tables) :
    Advances c.fleet ({ c with tables } : Catalog).fleet := by
  simp only [advanceAndAnchor, bind_eq_ok, lift_eq_ok, pure_eq_ok] at performed
  obtain ⟨⟨advanced, generation⟩, one, anchored, published, rfl⟩ := performed
  exact ((advanceOne_advances one).trans (publishAnchorLocked_advances published)).trans
    (.of_rows rfl rfl rfl)

theorem updateDrive_advances {change : FleetDrive → FleetDrive}
    (keeps : ∀ drive, (change drive).driveLabel = drive.driveLabel)
    (shifts : ∀ drive journal, c.fleet.findDrive label = some drive →
      driveJournal c.fleet label = some journal → Journal.Shifts journal
        { journal with
          epoch := (change drive).fence.identityEpoch, generation := (change drive).writeGeneration }) :
    Advances c.fleet ({ c with tables := c.tables.updateDrive label change } : Catalog).fleet :=
  advances_of_update change keeps shifts

theorem recovered_advances {current : Check} {generation : Nat} {proven : Inventory}
    (committed : recovered current label generation proven c = .ok next) :
    Advances c.fleet next.fleet := by
  obtain ⟨tables, performed, same⟩ := immediate_rows committed
  simp only [bind_eq_ok, lift_eq_ok, pure_eq_ok] at performed
  obtain ⟨_, _, anchored, published, rfl⟩ := performed
  exact advances_of_tables same
    ((publishAnchorLocked_advances published).trans (.of_rows rfl rfl rfl))

theorem serialEnrich_advances {current : Check} {captured : DriveFacts} {fingerprint : String}
    {proven : Inventory} (committed : serialEnrich current label captured fingerprint proven c = .ok next) :
    Advances c.fleet next.fleet := by
  obtain ⟨tables, performed, same⟩ := immediate_rows committed
  simp only [bind_eq_ok, lift_eq_ok, pure_eq_ok] at performed
  obtain ⟨_, _, ⟨advanced, generation⟩, one, anchored, published, rfl⟩ := performed
  apply advances_of_tables same
  refine Advances.trans ((advanceOne_advances one).trans ?_)
    ((publishAnchorLocked_advances published).trans (.of_rows rfl rfl rfl))
  -- only the fingerprint changes in between
  let enriched (drive : FleetDrive) : FleetDrive :=
    { drive with fence := { drive.fence with identityFingerprint := some fingerprint } }
  refine Advances.trans (advances_of_update enriched (fun _ => rfl) ?_) (.of_rows rfl rfl rfl)
  intro drive journal foundDrive foundJournal
  rw [driveJournal, foundDrive] at foundJournal
  cases foundJournal
  exact .refl

/-- A reconciliation's transaction commits only while the drive is as it was captured. -/
theorem current_eq_ok {settled : Settling} {rules : SerialRules} {held : Bool} {result : Unit}
    (current : settled.current rules held c = .ok result) :
    c.fleet.findDrive settled.job.call.label = some settled.job.facts := by
  simp only [Settling.current, bind_eq_ok, require_eq_ok, requireOr_eq_ok, persisted_eq_ok,
    beq_iff_eq] at current
  obtain ⟨_, _, _, _, facts, found, _, rfl, _⟩ := current
  exact found

theorem settle_advances {settled : Settling} {rules : SerialRules} {held : Bool}
    (committed : settled.commit rules held c = .ok next) : Advances c.fleet next.fleet := by
  unfold Settling.commit at committed
  cases shape : settled.settlement with
  | bootstrap =>
      simp only [shape, bootstrapped] at committed
      obtain ⟨tables, performed, same⟩ := immediate_rows committed
      simp only [bind_eq_ok] at performed
      obtain ⟨_, current, performed⟩ := performed
      have found := current_eq_ok current
      have anchored := advanceAndAnchor_advances performed
      apply advances_of_tables same
      refine Advances.trans ?_ anchored
      apply updateDrive_advances
      · intro drive
        rfl
      intro drive journal foundDrive foundJournal
      rw [found] at foundDrive
      cases foundDrive
      rw [driveJournal, found] at foundJournal
      cases foundJournal
      exact .refl
  | renew =>
      simp only [shape, epochAdvanced] at committed
      obtain ⟨tables, performed, same⟩ := immediate_rows committed
      simp only [bind_eq_ok] at performed
      obtain ⟨_, current, performed⟩ := performed
      have found := current_eq_ok current
      have anchored := advanceAndAnchor_advances performed
      apply advances_of_tables same
      refine Advances.trans ?_ anchored
      apply updateDrive_advances
      · intro drive
        rfl
      intro drive journal foundDrive foundJournal
      rw [found] at foundDrive
      cases foundDrive
      rw [driveJournal, found] at foundJournal
      cases foundJournal
      exact .single .renew
  | advance operationCode =>
      simp only [shape, refreshed] at committed
      obtain ⟨tables, performed, same⟩ := immediate_rows committed
      simp only [bind_eq_ok] at performed
      obtain ⟨_, _, performed⟩ := performed
      exact advances_of_tables same (advanceAndAnchor_advances performed)
  | recover =>
      simp only [shape] at committed
      exact recovered_advances committed

theorem repairRecover_advances {repair : Repairing} {rules : SerialRules} {world : FencedWorld}
    {final : LiveEvidence} {clean : SerialState}
    (recovered : repair.recover rules world final c = .ok (next, clean)) :
    Advances c.fleet next.fleet := by
  simp only [Repairing.recover, bind_eq_ok, pure_eq_ok, Prod.mk.injEq] at recovered
  obtain ⟨middle, committed, _, _, _, _, rfl, _⟩ := recovered
  exact recovered_advances committed

theorem repairEnrich_advances {repair : Repairing} {rules : SerialRules} {world : FencedWorld}
    {final : LiveEvidence} (enriched : repair.enrich rules world final c = .ok next) :
    Advances c.fleet next.fleet :=
  serialEnrich_advances enriched

theorem onDrives_eq_ok {α : Type} {transaction : Fleet → Except Refused (Fleet × α)} {result : α}
    (written : c.onDrives transaction = .ok (next, result)) :
    transaction c.fleet = .ok (next.fleet, result) := by
  simp only [Catalog.onDrives, bind_eq_ok, lift_eq_ok, pure_eq_ok] at written
  obtain ⟨⟨fleet, value⟩, performed, same⟩ := written
  cases same
  exact performed

/-- The anchor shows what was observed. -/
def Shows (anchor : CleanAnchor) (observation : Observation) : Prop :=
  anchor = observation.anchor anchor.driveLabel anchor.identityEpoch anchor.generation
    anchor.writeAuthority anchor.observedAt

/-- The anchors that a step publishes, and on what grounds. -/
inductive Grounds : DriveOp → DriveAction → List CleanAnchor → Prop where
  | nothing {op action} : Grounds op action []
  /-- Every drive of the mutation was reconciled and observed anew, and all of them are anchored. -/
  | mutation {envelope world published}
      (reconciled : ∀ entry ∈ envelope.advanced, world.reconcile entry.1.label = none)
      (observed : ∀ entry ∈ envelope.advanced,
        Fleet.requireIdentity (world.observeAfter entry.1.label) entry.1.facts = .ok ())
      (together : published.map anchorKey = envelope.advanced.map fun entry =>
        (entry.1.label, entry.1.facts.identityEpoch, entry.2)) :
      Grounds (.finishing envelope) (.close world) published
  | operator {label generation proven anchor}
      (key : anchorKey anchor = (label, proven.epoch, generation))
      (shows : Shows anchor proven.observation) :
      Grounds .idle (.publishCleanAnchor label generation proven) [anchor]
  | reconciliation {settled held anchor} (drive : anchor.driveLabel = settled.job.call.label)
      (shows : Shows anchor settled.final.observation) :
      Grounds (.settling settled) (.settle held) [anchor]
  | bridge {repair world final anchor rules} (live : serialLive repair.state final = true)
      (drive : anchor.driveLabel = repair.state.facts.driveLabel)
      (shows : Shows anchor (legacyObservation rules repair.state final)) :
      Grounds (.repairing repair) (.recover world final) [anchor]
  | enrichment {repair world final anchor} (live : serialLive repair.state final = true)
      (drive : anchor.driveLabel = repair.state.facts.driveLabel)
      (shows : Shows anchor final.observation) :
      Grounds (.enriching repair) (.enrich world final) [anchor]

/-- What a step does. -/
structure Performed (rules : SerialRules) (c : Catalog) (op : DriveOp) (action : DriveAction)
    (next : Catalog) (after : DriveOp) : Prop where
  advances : Advances c.fleet next.fleet
  published : ∃ published, next.tables.anchors = c.tables.anchors ++ published ∧
    Grounds op action published
  finishing : ∀ envelope, after = .finishing envelope →
    op = .finishing envelope ∨ op = .mutating envelope ∧ action = .bodyReturns
  settling : ∀ settled, after = .settling settled → op = .settling settled ∨
    ∃ job world, op = .reconciling job ∧ action = .fence world ∧
      c.reconcileFenced rules job world = .ok settled

/-- A step that only reads. -/
theorem Performed.reads {rules : SerialRules} {op after : DriveOp} {action : DriveAction}
    (finishing : ∀ envelope, after = .finishing envelope →
      op = .finishing envelope ∨ op = .mutating envelope ∧ action = .bodyReturns)
    (settling : ∀ settled, after = .settling settled → op = .settling settled ∨
      ∃ job world, op = .reconciling job ∧ action = .fence world ∧
        c.reconcileFenced rules job world = .ok settled) : Performed rules c op action c after where
  advances := .refl _
  published := ⟨[], by simp, .nothing⟩
  finishing := finishing
  settling := settling

/-- The transaction that ends an operation. -/
theorem Performed.ends {rules : SerialRules} {op : DriveOp} {action : DriveAction}
    (advances : Advances c.fleet next.fleet)
    (published : ∃ published, next.tables.anchors = c.tables.anchors ++ published ∧
      Grounds op action published) : Performed rules c op action next .idle where
  advances := advances
  published := published
  finishing := by simp
  settling := by simp

theorem beginGeneration_anchors {operationCode : String} {epoch : Option Nat} {generation : Nat}
    (begun : fleet.beginGeneration label operationCode epoch = .ok (after, generation)) :
    after.anchors = fleet.anchors := by
  simp only [Fleet.beginGeneration, bind_eq_ok, require_eq_ok] at begun
  obtain ⟨_, _, _, _, written⟩ := begun
  have adapter : fleet.writeAs none
      (fun current => current.advanceOne label operationCode none none) = .ok (after, generation) :=
    written
  obtain ⟨middle, performed, _, _, anchors⟩ := fleetWriteAs_rows adapter
  obtain ⟨_, _, _, _, rfl⟩ := advanceOne_eq_ok performed
  exact anchors

theorem publishAnchorLocked_shows {epoch generation : Nat} {observation : Observation} {now : String}
    (published : fleet.publishAnchorLocked label epoch generation observation now = .ok after) :
    ∃ anchor, after.anchors = fleet.anchors ++ [anchor] ∧
      anchorKey anchor = (label, epoch, generation) ∧ Shows anchor observation := by
  obtain ⟨drive, _, _, _, _, rfl⟩ := publishAnchorLocked_eq_ok published
  exact ⟨_, rfl, rfl, rfl⟩

theorem advanceAndAnchor_shows {operationCode : String} {proven : Inventory} {tables : Tables}
    (performed : advanceAndAnchor label operationCode proven c = .ok tables) :
    ∃ anchor, tables.anchors = c.tables.anchors ++ [anchor] ∧ anchor.driveLabel = label ∧
      Shows anchor proven.observation := by
  simp only [advanceAndAnchor, bind_eq_ok, lift_eq_ok, pure_eq_ok] at performed
  obtain ⟨⟨advanced, generation⟩, one, anchored, published, rfl⟩ := performed
  obtain ⟨anchor, anchors, key, shows⟩ := publishAnchorLocked_shows published
  obtain ⟨_, _, _, _, rfl⟩ := advanceOne_eq_ok one
  exact ⟨anchor, anchors, congrArg Prod.fst key, shows⟩

theorem recovered_shows {current : Check} {generation : Nat} {proven : Inventory}
    (committed : recovered current label generation proven c = .ok next) :
    ∃ anchor, next.tables.anchors = c.tables.anchors ++ [anchor] ∧
      anchorKey anchor = (label, proven.epoch, generation) ∧ Shows anchor proven.observation := by
  obtain ⟨tables, performed, same⟩ := immediate_rows committed
  simp only [bind_eq_ok, lift_eq_ok, pure_eq_ok] at performed
  obtain ⟨_, _, anchored, published, rfl⟩ := performed
  rw [same]
  exact publishAnchorLocked_shows published

theorem settle_shows {settled : Settling} {rules : SerialRules} {held : Bool}
    (committed : settled.commit rules held c = .ok next) :
    ∃ anchor, next.tables.anchors = c.tables.anchors ++ [anchor] ∧
      anchor.driveLabel = settled.job.call.label ∧ Shows anchor settled.final.observation := by
  unfold Settling.commit at committed
  cases shape : settled.settlement with
  | bootstrap | renew | advance operationCode =>
      simp only [shape, bootstrapped, epochAdvanced, refreshed] at committed
      obtain ⟨tables, performed, same⟩ := immediate_rows committed
      simp only [bind_eq_ok] at performed
      obtain ⟨_, _, performed⟩ := performed
      rw [same]
      exact advanceAndAnchor_shows performed
  | recover =>
      simp only [shape] at committed
      obtain ⟨anchor, anchors, key, shows⟩ := recovered_shows committed
      exact ⟨anchor, anchors, congrArg Prod.fst key, shows⟩

theorem serialEnrich_shows {current : Check} {captured : DriveFacts} {fingerprint : String}
    {proven : Inventory} (committed : serialEnrich current label captured fingerprint proven c = .ok next) :
    ∃ anchor, next.tables.anchors = c.tables.anchors ++ [anchor] ∧ anchor.driveLabel = label ∧
      Shows anchor proven.observation := by
  obtain ⟨tables, performed, same⟩ := immediate_rows committed
  simp only [bind_eq_ok, lift_eq_ok, pure_eq_ok] at performed
  obtain ⟨_, _, ⟨advanced, generation⟩, one, anchored, published, rfl⟩ := performed
  obtain ⟨anchor, anchors, key, shows⟩ := publishAnchorLocked_shows published
  obtain ⟨_, _, _, _, rfl⟩ := advanceOne_eq_ok one
  rw [same]
  exact ⟨anchor, anchors, congrArg Prod.fst key, shows⟩

/-- A mutation closes with all its drives reconciled, observed and anchored. -/
theorem close_grounds {rules : FenceRules} {envelope : Envelope} {world : MutationWorld} {result : Unit}
    (closed : fleet.close rules envelope.sessionId envelope.fencingToken world envelope.advanced =
      .ok (after, result)) :
    ∃ published, after.anchors = fleet.anchors ++ published ∧
      Grounds (.finishing envelope) (.close world) published := by
  simp only [Fleet.close, bind_eq_ok] at closed
  obtain ⟨owner, _, _, checks, written⟩ := closed
  have checked := of_thread_checks checks
  simp only [bind_eq_ok, require_eq_ok] at checked
  obtain ⟨middle, performed, _, _, anchors⟩ := fleetWriteAs_rows written
  obtain ⟨published, appended, keys⟩ := anchorBody_published performed
  refine ⟨published, anchors.trans appended, .mutation ?_ ?_ keys⟩
  · intro entry member
    obtain ⟨_, reconciled, _⟩ := checked entry member
    simpa using reconciled
  · intro entry member
    obtain ⟨_, _, observed⟩ := checked entry member
    exact observed

theorem perform_spec {rules : SerialRules} {op after : DriveOp} {action : DriveAction}
    (performed : op.perform rules c action = .ok (next, after)) :
    Performed rules c op action next after := by
  unfold DriveOp.perform at performed
  split at performed
  · cases performed
  · simp only [bind_eq_ok, pure_eq_ok] at performed
    obtain ⟨⟨_, generation⟩, begun, same⟩ := performed
    cases same
    have begun := onDrives_eq_ok begun
    refine .ends (beginGeneration_advances begun) ⟨[], ?_, .nothing⟩
    rw [List.append_nil]
    exact beginGeneration_anchors begun
  · simp only [bind_eq_ok, pure_eq_ok] at performed
    obtain ⟨_, published, same⟩ := performed
    cases same
    obtain ⟨anchor, anchors, key, shows⟩ := recovered_shows published
    exact .ends (recovered_advances published) ⟨[anchor], anchors, .operator key shows⟩
  · simp only [bind_eq_ok, pure_eq_ok] at performed
    obtain ⟨captured, read, same⟩ := performed
    cases same
    simp only [DriveOp.capture, bind_eq_ok, pure_eq_ok] at read
    obtain ⟨_, _, _, _, _, _, _, _, _, _, rfl⟩ := read
    exact .reads (by simp) (by simp)
  · simp only [bind_eq_ok, lift_eq_ok, pure_eq_ok] at performed
    obtain ⟨owner, _, ⟨_, advanced⟩, entered, same⟩ := performed
    cases same
    have entered := onDrives_eq_ok entered
    obtain ⟨middle, dirtied, _, _, anchors⟩ := fleetWriteAs_rows entered
    constructor
    · exact fleetWriteAs_advances (fun _ _ dirtied => dirtyBody_advances dirtied) entered
    · refine ⟨[], ?_, .nothing⟩
      rw [List.append_nil]
      exact anchors.trans (dirtyBody_anchors dirtied)
    · simp
    · simp
  · rename_i envelope
    cases performed
    apply Performed.reads
    · intro other same
      cases same
      exact .inr ⟨rfl, rfl⟩
    · simp
  · simp only [bind_eq_ok, pure_eq_ok] at performed
    obtain ⟨⟨_, _⟩, closed, same⟩ := performed
    cases same
    have closed := onDrives_eq_ok closed
    exact .ends (close_advances closed) (close_grounds closed)
  · simp only [bind_eq_ok, pure_eq_ok] at performed
    obtain ⟨job, _, same⟩ := performed
    cases same
    cases job <;> exact .reads (by simp) (by simp)
  · simp only [bind_eq_ok, pure_eq_ok] at performed
    obtain ⟨settled, fenced, same⟩ := performed
    cases same
    apply Performed.reads (by simp)
    intro other same
    cases same
    exact .inr ⟨_, _, rfl, rfl, fenced⟩
  · simp only [bind_eq_ok, pure_eq_ok] at performed
    obtain ⟨_, committed, same⟩ := performed
    cases same
    obtain ⟨anchor, anchors, drive, shows⟩ := settle_shows committed
    exact .ends (settle_advances committed) ⟨[anchor], anchors, .reconciliation drive shows⟩
  · simp only [bind_eq_ok, pure_eq_ok] at performed
    obtain ⟨repair, _, same⟩ := performed
    cases same
    apply Performed.reads
    all_goals
      intro other same
      split_ifs at same
  · simp only [bind_eq_ok, requireOr_eq_ok, pure_eq_ok] at performed
    obtain ⟨_, live, ⟨_, clean⟩, recovered, same⟩ := performed
    cases same
    have advances := repairRecover_advances recovered
    simp only [Repairing.recover, bind_eq_ok, pure_eq_ok, Prod.mk.injEq] at recovered
    obtain ⟨_, committed, _, _, _, _, rfl, _⟩ := recovered
    obtain ⟨anchor, anchors, key, shows⟩ := recovered_shows committed
    exact ⟨advances, ⟨[anchor], anchors, .bridge live (congrArg Prod.fst key) shows⟩, by simp,
      by simp⟩
  · simp only [bind_eq_ok, requireOr_eq_ok, pure_eq_ok] at performed
    obtain ⟨_, live, _, enriched, same⟩ := performed
    cases same
    obtain ⟨anchor, anchors, drive, shows⟩ := serialEnrich_shows enriched
    exact .ends (repairEnrich_advances enriched) ⟨[anchor], anchors, .enrichment live drive shows⟩
  · cases performed
    exact .reads (fun _ same => .inl same) (fun _ same => .inl same)

end Catalogs

/-- The generations begun in the current epoch of a drive are 1 to its current one, and all below it have
    a clean anchor. -/
def GenerationsKept (c : Catalog) : Prop :=
  ∀ label drive, c.fleet.findDrive label = some drive →
    (c.tables.dirty.filter fun row => row.driveLabel == label &&
      row.identityEpoch == drive.fence.identityEpoch).map DirtyGeneration.generation =
        List.range' 1 drive.writeGeneration ∧
    ∀ generation, 1 ≤ generation → generation < drive.writeGeneration →
      (c.findAnchor label drive.fence.identityEpoch generation).isSome = true

/-- No drive is lost, and its epoch and generation do not go back. -/
def NeverBack (before after : Catalog) : Prop :=
  ∀ label drive, before.fleet.findDrive label = some drive →
    ∃ later, after.fleet.findDrive label = some later ∧
      toLex (drive.fence.identityEpoch, drive.writeGeneration) ≤
        toLex (later.fence.identityEpoch, later.writeGeneration)

/-- Offline evidence of a drive is executable only from the anchor of its current generation. -/
def OfflineAnchored (c : Catalog) : Prop :=
  ∀ safetyFloor label, (c.offlineFacts safetyFloor label).derive.executable = true →
    ∃ drive, c.fleet.findDrive label = some drive ∧
      (c.findAnchor label drive.fence.identityEpoch drive.writeGeneration).isSome = true

section Runs

variable (rules : SerialRules) (start : DriveSystem)

def afterRun (events : List DriveEvent) : DriveSystem := run (DriveSystem.step rules) start events

/-- The body of the mutation has returned. -/
def BodyReturned (before : List DriveEvent) (conn : Nat) (envelope : Envelope) : Prop :=
  ∃ earlier later, before = earlier ++ .drive conn .bodyReturns :: later ∧
    (afterRun rules start earlier).operations conn = .mutating envelope

/-- The inventory of the drive was complete, and its fresh observation showed the same identity. -/
def Inventoried (before : List DriveEvent) (conn : Nat) (settled : Settling) : Prop :=
  ∃ earlier world later, before = earlier ++ .drive conn (.fence world) :: later ∧
    world.inventoryComplete = true ∧ settled.final = world.final ∧
      finalObservation settled.job.evidence settled.final = true

/-- The anchors that a step publishes, and what has gone before. -/
structure Warrant (before : List DriveEvent) (conn : Nat) (action : DriveAction)
    (published : List CleanAnchor) : Prop where
  grounds : Grounds ((afterRun rules start before).operations conn) action published
  returned : ∀ envelope, (afterRun rules start before).operations conn = .finishing envelope →
    BodyReturned rules start before conn envelope
  inventoried : ∀ settled, (afterRun rules start before).operations conn = .settling settled →
    Inventoried before conn settled

/-- Every step that publishes anchors has a warrant for them. -/
def Warranted (events : List DriveEvent) : Prop :=
  ∀ before event later, events = before ++ event :: later → ∃ published,
    (afterRun rules start (before ++ [event])).catalog.tables.anchors =
      (afterRun rules start before).catalog.tables.anchors ++ published ∧
    match event with
    | .drive conn action => Warrant rules start before conn action published
    | .others _ => published = []

end Runs

/-- Drives that have never been written, and operations that have not begun. -/
structure Unwritten (sys : DriveSystem) : Prop where
  idle : ∀ conn, sys.operations conn = .idle
  drives : ∀ drive ∈ sys.catalog.tables.drives, drive.writeGeneration = 0
  dirty : sys.catalog.tables.dirty = []
  anchors : sys.catalog.tables.anchors = []

section Invariants

variable {rules : SerialRules} {start sys : DriveSystem} {c : Catalog}

def Journaled (c : Catalog) : Prop :=
  ∀ label journal, driveJournal c.fleet label = some journal → Journal.Sound journal

theorem step_advances (event : DriveEvent) :
    Advances sys.catalog.fleet (sys.step rules event).catalog.fleet := by
  cases event with
  | others other => exact .of_rows rfl rfl rfl
  | drive conn action =>
      simp only [DriveSystem.step]
      split
      · exact .refl _
      · rename_i next after performed
        split_ifs
        · exact (perform_spec performed).advances
        · exact .refl _

theorem run_advances (events : List DriveEvent) :
    Advances start.catalog.fleet (afterRun rules start events).catalog.fleet := by
  let moved (sys : DriveSystem) : Prop := Advances start.catalog.fleet sys.catalog.fleet
  have preserved (sys : DriveSystem) (event : DriveEvent) (holds : moved sys) :
      moved (sys.step rules event) :=
    holds.trans (step_advances event)
  exact run_invariant_always moved preserved events (.refl _)

theorem journaled_of_advances {before after : Catalog} (advances : Advances before.fleet after.fleet)
    (journaled : Journaled before) : Journaled after := by
  intro label journal found
  obtain ⟨earlier, found', shifts⟩ := advances.found found
  exact shifts.sound (journaled label earlier found')

theorem Unwritten.journaled (unwritten : Unwritten start) : Journaled start.catalog := by
  intro label journal found
  obtain ⟨drive, foundDrive, rfl⟩ := Option.map_eq_some_iff.mp found
  have zero := unwritten.drives drive (List.mem_of_find?_eq_some foundDrive)
  constructor
  · simp [Journal.current, Catalog.fleet, unwritten.dirty, zero]
  · intro generation _ below
    simp only at below
    omega
  · intro entry member
    simp [Catalog.fleet, unwritten.dirty] at member

theorem Journaled.kept (journaled : Journaled c) : GenerationsKept c := by
  intro label drive found
  have sound := journaled label _ (by rw [driveJournal, found]; rfl)
  constructor
  · have begun := sound.begun
    simp only [Journal.current, List.filter_map, List.map_map] at begun
    rw [← begun, List.filter_filter]
    congr 2
    funext row
    rw [Bool.and_comm, Function.comp, beq_eq_decide]
  · intro generation first below
    obtain ⟨row, member, same⟩ := List.mem_map.mp (sound.clean generation first below)
    obtain ⟨member, labelled⟩ := List.mem_filter.mp member
    obtain ⟨epoch, number⟩ := Prod.mk.inj same
    rw [Catalog.findAnchor, List.find?_isSome]
    exact ⟨row, member, by simp [epoch, number, beq_iff_eq.mp labelled]⟩

theorem neverBack_of_advances {before after : Catalog}
    (advances : Advances before.fleet after.fleet) : NeverBack before after := by
  intro label drive found
  obtain ⟨next, found', shifts⟩ := advances.journals label _ (by rw [driveJournal, found]; rfl)
  obtain ⟨later, foundLater, rfl⟩ := Option.map_eq_some_iff.mp found'
  exact ⟨later, foundLater, shifts.position_le⟩

theorem offlineAnchored (c : Catalog) : OfflineAnchored c := by
  intro safetyFloor label executable
  have offline : (c.offlineFacts safetyFloor label).mounted = false := by
    unfold Catalog.offlineFacts
    split <;> rfl
  obtain ⟨_, free, anchored, _⟩ := EvidenceFacts.anchor_of_offline offline executable
  unfold Catalog.offlineFacts at anchored
  split at anchored
  · cases anchored
  · rename_i drive found
    refine ⟨drive, found, ?_⟩
    cases shape : c.findAnchor label drive.fence.identityEpoch drive.writeGeneration with
    | none => simp [shape] at anchored
    | some anchor => rfl

/-- A connection carries on what it carried, nothing, or what its own step has left. -/
theorem step_operation (event : DriveEvent) (conn : Nat) :
    (sys.step rules event).operations conn = sys.operations conn ∨
    (sys.step rules event).operations conn = .idle ∨
    ∃ action next, event = .drive conn action ∧ (sys.operations conn).perform rules sys.catalog action =
      .ok (next, (sys.step rules event).operations conn) := by
  cases event with
  | others other => exact .inl rfl
  | drive other action =>
      by_cases same : conn = other
      · subst same
        simp only [DriveSystem.step]
        split
        · simp [DriveSystem.setOperation]
        · rename_i next after performed
          split_ifs
          · right; right
            refine ⟨action, next, rfl, ?_⟩
            simpa [DriveSystem.setOperation] using performed
          · simp [DriveSystem.setOperation]
      · left
        simp only [DriveSystem.step]
        split
        · simp [DriveSystem.setOperation, same]
        · split_ifs <;> simp [DriveSystem.setOperation, same]

theorem bodyReturned_of_finishing (unwritten : Unwritten start) {before : List DriveEvent} {conn : Nat}
    {envelope : Envelope}
    (finishing : (afterRun rules start before).operations conn = .finishing envelope) :
    BodyReturned rules start before conn envelope := by
  let finishes (sys : DriveSystem) : Prop := sys.operations conn = .finishing envelope
  have starts : ¬finishes start := by simp [finishes, unwritten.idle conn]
  obtain ⟨earlier, event, later, split, notYet, now⟩ :=
    run_origin (DriveSystem.step rules) starts finishing
  simp only [finishes] at notYet now
  rcases step_operation event conn with same | idle | ⟨action, next, rfl, performed⟩
  · exact absurd (same.symm.trans now) notYet
  · rw [idle] at now
    cases now
  · rcases (perform_spec performed).finishing envelope now with same | ⟨mutating, rfl⟩
    · exact absurd same notYet
    · exact ⟨earlier, later, split, mutating⟩

theorem reconcileFenced_observed {job : Reconciling} {world : FencedWorld} {settled : Settling}
    (fenced : c.reconcileFenced rules job world = .ok settled) :
    world.inventoryComplete = true ∧ settled.final = world.final ∧
      finalObservation settled.job.evidence settled.final = true := by
  simp only [Catalog.reconcileFenced, bind_eq_ok, requireOr_eq_ok] at fenced
  obtain ⟨_, _, _, _, _, _, _, _, owner, _, _, _, settles⟩ := fenced
  split at settles
  all_goals
    simp only [bind_eq_ok, requireOr_eq_ok, pure_eq_ok] at settles
    obtain ⟨_, _, _, complete, _, observed, rfl⟩ := settles
    exact ⟨complete, rfl, observed⟩

theorem inventoried_of_settling (unwritten : Unwritten start) {before : List DriveEvent} {conn : Nat}
    {settled : Settling}
    (settling : (afterRun rules start before).operations conn = .settling settled) :
    Inventoried before conn settled := by
  let settles (sys : DriveSystem) : Prop := sys.operations conn = .settling settled
  have starts : ¬settles start := by simp [settles, unwritten.idle conn]
  obtain ⟨earlier, event, later, split, notYet, now⟩ :=
    run_origin (DriveSystem.step rules) starts settling
  simp only [settles] at notYet now
  rcases step_operation event conn with same | idle | ⟨action, next, rfl, performed⟩
  · exact absurd (same.symm.trans now) notYet
  · rw [idle] at now
    cases now
  · rcases (perform_spec performed).settling settled now with same | ⟨job, world, _, rfl, fenced⟩
    · exact absurd same notYet
    · obtain ⟨complete, final, observed⟩ := reconcileFenced_observed fenced
      exact ⟨earlier, world, later, split, complete, final, observed⟩

theorem warranted (unwritten : Unwritten start) (events : List DriveEvent) :
    Warranted rules start events := by
  intro before event later _
  have stepped : afterRun rules start (before ++ [event]) =
      (afterRun rules start before).step rules event := run_snoc _ _ _ _
  rw [stepped]
  cases event with
  | others other => exact ⟨[], by simp [DriveSystem.step, Tables.withFleet, Catalog.fleet], rfl⟩
  | drive conn action =>
      have warrant (published : List CleanAnchor)
          (grounds : Grounds ((afterRun rules start before).operations conn) action published) :
          Warrant rules start before conn action published :=
        ⟨grounds, fun _ => bodyReturned_of_finishing unwritten,
          fun _ => inventoried_of_settling unwritten⟩
      simp only [DriveSystem.step]
      split
      · exact ⟨[], by simp [DriveSystem.setOperation], warrant _ .nothing⟩
      · rename_i next after performed
        split_ifs
        · obtain ⟨published, anchors, grounds⟩ := (perform_spec performed).published
          exact ⟨published, anchors, warrant _ grounds⟩
        · exact ⟨[], by simp [DriveSystem.setOperation], warrant _ .nothing⟩

end Invariants

/-- Over every run of drive operations from drives that have never been written: the generations of the
    current epoch have no gap and all but the last are clean, epochs and generations never go back, every
    anchor is published on its grounds, and offline evidence rests on the current anchor. -/
theorem generations_kept (rules : SerialRules) (start : DriveSystem) (unwritten : Unwritten start)
    (events : List DriveEvent) :
    GenerationsKept (afterRun rules start events).catalog ∧
    (∀ before later, events = before ++ later →
      NeverBack (afterRun rules start before).catalog (afterRun rules start events).catalog) ∧
    Warranted rules start events ∧
    OfflineAnchored (afterRun rules start events).catalog := by
  refine ⟨?_, ?_, warranted unwritten events, offlineAnchored _⟩
  · exact (journaled_of_advances (run_advances events) unwritten.journaled).kept
  · intro before later split
    have split : afterRun rules start events = afterRun rules (afterRun rules start before) later := by
      rw [split]
      exact run_append _ _ _ _
    rw [split]
    exact neverBack_of_advances (run_advances later)

/-- Fingerprints that name the annex, which the text of an identity begins with. -/
def pairedRules : SerialRules where
  unicode := Archive.asciiUnicode
  sha256 text := String.ofList ((text.toList.drop 15).take 1 ++ List.replicate 63 'f')
  isLegacySerialMismatch _ _ := false
  recognizeLegacyAnchor _ _ := false
  seriallessAnchorSerial _ _ := none
  recognizeBridgeAnchor _ _ := none
  legacyProof _ := "legacy"

def pairedDrive (label : String) : FleetDrive :=
  { driveLabel := label
    fence :=
      { fsUuid := none, annexUuid := some label, serial := none, filesystemCapacityBytes := some 100
        identityEpoch := 1
        identityFingerprint := some (pairedRules.identityFingerprintV1 none (some label) none 100) }
    writeGeneration := 0
    writeAuthority := "dedicated_local" }

/-- Two drives of one catalog. -/
def pairedSystem : DriveSystem where
  catalog :=
    { mirroredCatalog with
      tables := { mirroredCatalog.tables with drives := [pairedDrive "a", pairedDrive "b"] } }
  operations _ := .idle

def pairedEvidence (label : String) : LiveEvidence where
  path := some label
  fsUuid := none
  annexUuid := some label
  serial := none
  capacity := some 100
  free := some 40
  allocUnit := some 4
  fingerprint := (pairedDrive label).fence.identityFingerprint
  proven := true
  identitySerial := none
  identityProof := "proof"
  fenceProof := "proof"

def pairedWorld : MutationWorld where
  fencesFree := true
  observe label := (pairedEvidence label).observation
  observeAfter label := (pairedEvidence label).observation
  reconcile _ := none
  now := "now"

def reconcileWorld (label : String) : FencedWorld where
  evidence := pairedEvidence label
  final := pairedEvidence label
  inventoryComplete := true
  childFenceHeld := false
  fencesFree := true
  affectedApprovals := []

def beginBoth : List DriveEvent :=
  [.drive 0 (.capture ["a", "b"] "replica" none none pairedWorld), .drive 0 .enter]

def reconcileOne (label : String) : List DriveEvent :=
  [.drive 1 (.reconcile ⟨label, true, false, "later"⟩ (reconcileWorld label)),
    .drive 1 (.fence (reconcileWorld label)), .drive 1 (.settle false)]

theorem pairedSystem_unwritten : Unwritten pairedSystem where
  idle _ := rfl
  drives := by decide +kernel
  dirty := rfl
  anchors := rfl

/-- A mutation of both drives that closes, then the refresh of one. -/
def pairedEvents : List DriveEvent :=
  beginBoth ++ [.drive 0 .bodyReturns, .drive 0 (.close pairedWorld)] ++ reconcileOne "a"

theorem generations_kept_paired :
    (afterRun pairedRules pairedSystem pairedEvents).catalog.tables.anchors.map anchorKey =
        [("a", 1, 1), ("b", 1, 1), ("a", 1, 2)] ∧
      GenerationsKept (afterRun pairedRules pairedSystem pairedEvents).catalog :=
  ⟨by decide +kernel, (generations_kept pairedRules pairedSystem pairedSystem_unwritten pairedEvents).1⟩

/-- The generations of a mutation are anchored only after its own body has returned, and for all of its
    drives or for none. -/
def AnchoredTogether (rules : SerialRules) (start : DriveSystem) (events : List DriveEvent) : Prop :=
  ∀ before conn later envelope, events = before ++ .drive conn .enter :: later →
    (afterRun rules start (before ++ [.drive conn .enter])).operations conn = .mutating envelope →
    ∀ entry ∈ envelope.advanced, ((afterRun rules start events).catalog.findAnchor entry.1.label
        entry.1.facts.identityEpoch entry.2).isSome = true →
      .drive conn .bodyReturns ∈ later ∧ ∀ other ∈ envelope.advanced,
        ((afterRun rules start events).catalog.findAnchor other.1.label other.1.facts.identityEpoch
          other.2).isSome = true

/-- The body of a mutation of both drives fails, and one of them is recovered. -/
theorem recovered_apart : ¬AnchoredTogether pairedRules pairedSystem
    (beginBoth ++ .drive 0 .abandon :: reconcileOne "a") := by
  intro together
  let captured (label : String) : Captured × Nat :=
    (⟨label, (pairedDrive label).facts, (pairedDrive label).fence⟩, 1)
  let envelope : Envelope := ⟨none, none, [captured "a", captured "b"]⟩
  have entered : (afterRun pairedRules pairedSystem beginBoth).operations 0 = .mutating envelope := by
    decide +kernel
  have both := together [.drive 0 (.capture ["a", "b"] "replica" none none pairedWorld)] 0
    (.drive 0 .abandon :: reconcileOne "a") envelope rfl entered (captured "a")
    List.mem_cons_self (by decide +kernel)
  have other := both.2 (captured "b") (List.mem_cons_of_mem _ List.mem_cons_self)
  have missing : ((afterRun pairedRules pairedSystem (beginBoth ++ .drive 0 .abandon ::
      reconcileOne "a")).catalog.findAnchor "b" 1 1).isSome = false := by
    decide +kernel
  cases missing.symm.trans other

end Modelark.Revision
