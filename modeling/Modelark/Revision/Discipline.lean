import Modelark.Library.Runs
import Modelark.Revision.Evidence

/-!
# Which writers revise

A transaction that changes a fact of the planner must increment the revision. All of the supported
writers do, apart from the two that fill original digests; without their fills, a revision determines
the planner input.
-/

namespace Modelark.Revision

open Library Execution Planning

/-- The supported transactions. -/
inductive Writer where
  | create (planId capacityMode : String)
  | setActive (planId : String)
  | setCapacityMode (planId mode : String)
  | addDrive (planId driveLabel : String)
  | removeDrive (planId driveLabel : String)
  | bootstrap (planId : String)
  | toggle (workerIdle : Bool) (repoId : String) (on : Bool)
  | bulk (selectionHash : List SelectionRow → String) (workerIdle : Bool) (repoIds : List String)
      (on : Bool) (bound : Option Binding)
  | clear (workerIdle : Bool)
  | finalize (workerIdle : Bool) (now : String)
  | replaceFiles (repoId : String) (rows : List FileRow)
  | discoverOne (repoId : String) (answer : ModelInfo)
  | applyMetadataClassification (previewCurrent : Check) (changedFiles : List (String × String))
  | protect (repoIds : List String) (numcopies : Nat)
  | registerDrive (requireLegacyRegistration : Check) (reg : Registration)
  | registerNas (requireLegacyRegistration : Check) (revision : Nat) (reg : Registration)
  | registerNewIdentity (checkCatalog : Check) (planId : String) (reg : Registration)
  | declareLost (publicationClear : Check) (fenceHeld : Bool) (driveLabel : String)
      (expected : LossBinding) (confirmation : String)
  | bootstrapped (current : Check) (driveLabel : String) (proven : Inventory)
  | epochAdvanced (current : Check) (driveLabel : String) (proven : Inventory)
  | refreshed (current : Check) (driveLabel operationCode : String) (proven : Inventory)
  | recovered (current : Check) (driveLabel : String) (generation : Nat) (proven : Inventory)
  | serialEnrich (current : Check) (driveLabel : String) (captured : DriveFacts) (fingerprint : String)
      (proven : Inventory)
  | beginGeneration (driveLabel operationCode : String) (identityEpoch : Option Nat)
  | publishCleanAnchor (driveLabel : String) (generation : Nat) (proven : Inventory)
  | enterMutation (rules : FenceRules) (labels : List String) (operationCode : String)
      (sessionId : Option String) (fencingToken : Option Nat) (world : MutationWorld)
  | closeMutation (rules : FenceRules) (sessionId : Option String) (fencingToken : Option Nat)
      (world : MutationWorld) (advanced : List (Captured × Nat))
  | repairHashes (u : Archive.Unicode) (supported : Check) (head : HeadEvidence) (scope : List String)
  | runExplicitDriveRepair (u : Archive.Unicode) (supported : Check)
      (resolver : Option (Option HeadEvidence)) (identity : RepairIdentity)
  | healReplica (u : Archive.Unicode) (sourceDrive targetDrive repoId rfilename : String)
  | transportWrite (ctx : RunCtx) (write : TransportWrite)
  | archiveModel (repoId : String)
  | publish (owner : Option (String × Nat)) (bound : Check) (step : PublicationStep)
  | abortUnfinished (prepared : Bool)
  | publishKey (candidate : ArchivedRow) (annexKey storedRelpath storedName : String)
  | approve (checks : Check) (mutation : Mutation) (now : String)

/-- The catalog that a transaction commits. -/
def Writer.perform (c : Catalog) : Writer → Except Failure Catalog
  | .create planId capacityMode => Revision.create planId capacityMode c
  | .setActive planId => Revision.setActive planId c
  | .setCapacityMode planId mode => Revision.setCapacityMode planId mode c
  | .addDrive planId driveLabel => Revision.addDrive planId driveLabel c
  | .removeDrive planId driveLabel => Revision.removeDrive planId driveLabel c
  | .bootstrap planId => Revision.bootstrap planId c
  | .toggle workerIdle repoId on => Revision.toggle workerIdle repoId on c
  | .bulk hash workerIdle repoIds on bound => Revision.bulk hash workerIdle repoIds on bound c
  | .clear workerIdle => Revision.clear workerIdle c
  | .finalize workerIdle now => Revision.finalize workerIdle now c
  | .replaceFiles repoId rows => Revision.replaceFiles repoId rows c
  | .discoverOne repoId answer => Revision.discoverOne repoId answer c
  | .applyMetadataClassification current changed => Revision.applyMetadataClassification current changed c
  | .protect repoIds numcopies => Revision.protect repoIds numcopies c
  | .registerDrive legacy reg => c.graphWrite (registerDriveBody legacy reg)
  | .registerNas legacy revision reg => c.graphWrite (registerNasBody legacy revision reg)
  | .registerNewIdentity check planId reg => c.graphWrite (registerNewIdentityBody check planId reg)
  | .declareLost unpublished held driveLabel expected confirmation =>
      Revision.declareLost unpublished held driveLabel expected confirmation c
  | .bootstrapped current driveLabel proven => Revision.bootstrapped current driveLabel proven c
  | .epochAdvanced current driveLabel proven => Revision.epochAdvanced current driveLabel proven c
  | .refreshed current driveLabel code proven => Revision.refreshed current driveLabel code proven c
  | .recovered current driveLabel generation proven =>
      Revision.recovered current driveLabel generation proven c
  | .serialEnrich current driveLabel captured fingerprint proven =>
      Revision.serialEnrich current driveLabel captured fingerprint proven c
  | .beginGeneration driveLabel code epoch => c.onFleet (·.beginGeneration driveLabel code epoch)
  | .publishCleanAnchor driveLabel generation proven =>
      Revision.publishCleanAnchor driveLabel generation proven c
  | .enterMutation rules labels code sessionId token world =>
      c.onFleet (·.enter rules labels code sessionId token world)
  | .closeMutation rules sessionId token world advanced =>
      c.onFleet (·.close rules sessionId token world advanced)
  | .repairHashes u supported head scope => Revision.repairHashes u supported head scope c
  | .runExplicitDriveRepair u supported resolver identity =>
      (Revision.runExplicitDriveRepair u supported resolver identity c).map Prod.fst
  | .healReplica u source target repoId rfilename =>
      (healReplicaArchivedFromSource u source target repoId rfilename c).map Prod.fst
  | .transportWrite ctx write => Revision.transportWrite ctx write c
  | .archiveModel repoId => Revision.archiveModel repoId c
  | .publish owner bound step => Revision.publish owner bound step c
  | .abortUnfinished prepared => Revision.abortUnfinished prepared c
  | .publishKey candidate key relpath name => Revision.publishKey candidate key relpath name c
  | .approve checks mutation now => Revision.approve checks mutation now c

/-- A refused transaction is rolled back. -/
def Catalog.step (c : Catalog) (writer : Writer) : Catalog :=
  (writer.perform c).toOption.getD c

/-- A committed change of the planner's facts increments the revision with it. -/
def Writer.Revises (c : Catalog) (writer : Writer) : Prop :=
  ∀ after, writer.perform c = .ok after → after.tables.facts ≠ c.tables.facts →
    after.plannerRevision = c.plannerRevision + 1

/-- The hub agrees with every digest found for the rows. -/
def Agreed (u : Archive.Unicode) (head : Option HeadEvidence) (rows : List (ArchivedRow × FileRow)) :
    Prop :=
  ∀ pair ∈ rows, ∀ found ∈ repairDigest u head pair,
    hubDisagrees u.lower pair.2.sha256 found.1 = false

/-- The drive repair is authorized, some unresolved row of the drive has a digest, and the hub agrees
    with all of them. -/
structure RepairFills (u : Archive.Unicode) (supported : Check) (head : Option HeadEvidence)
    (identity : RepairIdentity) (c : Catalog) : Prop where
  supported : supported c = .ok ()
  columns : (c.tables.driveColumns.find identity.driveLabel).isSome = true
  authorized : ∃ drive, c.fleet.findDrive identity.driveLabel = some drive ∧
    repairHalt u.lower identity drive = none
  some : ∃ pair ∈ unresolvedNullDigests c.tables identity.driveLabel,
    (repairDigest u head pair).isSome = true
  agreed : Agreed u head (unresolvedNullDigests c.tables identity.driveLabel)

/-- The heal copies the digest of its source to a row that has none. -/
def HealFills (u : Archive.Unicode) (sourceDrive targetDrive repoId rfilename : String) (c : Catalog) :
    Prop :=
  ∃ source target, c.tables.archived.find (repoId, rfilename, sourceDrive) = some source ∧
    c.tables.archived.find (repoId, rfilename, targetDrive) = some target ∧
      classifyReplicaHeal u source target = .fill .digest ∧ target.origSha256 = none

/-- The transactions that fill digests without a bump. -/
def Writer.FillsDigests (c : Catalog) : Writer → Prop
  | .runExplicitDriveRepair u supported resolver identity =>
      RepairFills u supported (readArchive resolver) identity c
  | .healReplica u source target repoId rfilename => HealFills u source target repoId rfilename c
  | _ => False

/-- Either the revision moves with the tables, or no fact changes. -/
inductive Commits (c after : Catalog) : Prop where
  | bumped (revision : after.plannerRevision = c.plannerRevision + 1)
  | kept (facts : after.tables.facts = c.tables.facts)
      (revision : after.plannerRevision = c.plannerRevision)

@[simp] theorem lift_eq_ok {α : Type} {result : Except Refused α} {value : α} :
    lift result = .ok value ↔ result = .ok value := by
  cases result with
  | error refused => simp [lift, Except.mapError]
  | ok value => simp [lift, Except.mapError]

variable {c after : Catalog} {op : Body}

theorem bumpRevision_eq_ok {authorized : Bool} :
    c.bumpRevision authorized = .ok after ↔ (authorized || !c.sessions.liveExists) = true ∧
      after = { c with plannerRevision := c.plannerRevision + 1 } := by
  simp only [Catalog.bumpRevision, bind_eq_ok, require_eq_ok, pure_eq_ok]
  constructor
  · rintro ⟨_, idle, same⟩
    exact ⟨idle, same.symm⟩
  · rintro ⟨idle, same⟩
    exact ⟨(), idle, same.symm⟩

/-- A body whose proofs of no change are sound. -/
def Sound (c : Catalog) (op : Body) : Prop :=
  ∀ tables, op c = .ok (tables, true) → tables.facts = c.tables.facts

theorem graphWrite_commits (sound : Sound c op) (written : c.graphWrite op = .ok after) :
    Commits c after := by
  simp only [Catalog.graphWrite, bind_eq_ok, require_eq_ok] at written
  obtain ⟨_, _, ⟨tables, provenNoop⟩, performed, committed⟩ := written
  cases provenNoop with
  | true =>
      simp only [if_true, pure_eq_ok] at committed
      subst committed
      exact .kept (sound tables performed) rfl
  | false =>
      simp only [Bool.false_eq_true, if_false, bumpRevision_eq_ok] at committed
      rw [committed.2]
      exact .bumped rfl

theorem sessionWrite_commits {sessionId : String} {token : Nat} (sound : Sound c op)
    (written : c.sessionWrite sessionId token op = .ok after) : Commits c after := by
  unfold Catalog.sessionWrite at written
  rcases found : c.sessions.find sessionId with _ | row
  · simp [found] at written
  · simp only [found, bind_eq_ok, require_eq_ok] at written
    obtain ⟨_, _, _, _, ⟨tables, provenNoop⟩, performed, committed⟩ := written
    cases provenNoop with
    | true =>
        simp only [if_true, pure_eq_ok] at committed
        subst committed
        exact .kept (sound tables performed) rfl
    | false =>
        simp only [Bool.false_eq_true, if_false, bind_eq_ok, bumpRevision_eq_ok] at committed
        obtain ⟨bumped, ⟨_, rfl⟩, rebound⟩ := committed
        split at rebound
        · cases rebound
        · cases rebound
          exact .bumped rfl

theorem writeAs_commits {owner : Option (String × Nat)} (sound : Sound c op)
    (written : c.writeAs owner op = .ok after) : Commits c after := by
  rcases owner with _ | ⟨sessionId, token⟩
  · exact graphWrite_commits sound written
  · exact sessionWrite_commits sound written

theorem immediate_commits {body : Catalog → Except Failure Tables}
    (written : c.immediate body = .ok after) : Commits c after := by
  simp only [Catalog.immediate, bind_eq_ok, bumpRevision_eq_ok] at written
  obtain ⟨tables, _, _, rfl⟩ := written
  exact .bumped rfl

variable {fleet other : Fleet}

theorem advanceOne_revision {label operationCode : String} {captured : Option DriveFacts}
    {owner : Option (String × Nat)} {generation : Nat}
    (advanced : fleet.advanceOne label operationCode captured owner = .ok (other, generation)) :
    other.plannerRevision = fleet.plannerRevision := by
  simp only [Fleet.advanceOne, bind_eq_ok, require_eq_ok] at advanced
  obtain ⟨drive, _, _, _, _, _, result⟩ := advanced
  cases result
  rfl

theorem publishAnchorLocked_revision {label now : String} {epoch generation : Nat}
    {observation : Observation}
    (anchored : fleet.publishAnchorLocked label epoch generation observation now = .ok other) :
    other.plannerRevision = fleet.plannerRevision := by
  simp only [Fleet.publishAnchorLocked, bind_eq_ok, require_eq_ok] at anchored
  obtain ⟨drive, _, _, _, _, _, result⟩ := anchored
  cases result
  rfl

theorem dirtyBody_revision {rules : FenceRules} {operationCode : String}
    {owner : Option (String × Nat)} {captured : List Captured} {result : List (Captured × Nat)}
    (written : fleet.dirtyBody rules operationCode owner captured = .ok (other, result)) :
    other.plannerRevision = fleet.plannerRevision := by
  simp only [Fleet.dirtyBody, bind_eq_ok] at written
  obtain ⟨_, _, _, _, advanced⟩ := written
  let kept (state : Fleet × List (Captured × Nat)) : Prop :=
    state.1.plannerRevision = fleet.plannerRevision
  have all : kept (other, result) := by
    apply thread_invariant kept _ advanced rfl
    intro state entry next _ stepped holds
    simp only [bind_eq_ok] at stepped
    obtain ⟨⟨advancedFleet, generation⟩, one, same⟩ := stepped
    cases same
    exact (advanceOne_revision one).trans holds
  exact all

theorem anchorBody_revision {rules : FenceRules} {owner : Option (String × Nat)}
    {advanced : List (Captured × Nat)} {candidates : String → Observation} {now : String} {result : Unit}
    (written : fleet.anchorBody rules owner advanced candidates now = .ok (other, result)) :
    other.plannerRevision = fleet.plannerRevision := by
  simp only [Fleet.anchorBody, bind_eq_ok] at written
  obtain ⟨_, _, _, _, anchored, published, same⟩ := written
  cases same
  let kept (state : Fleet) : Prop := state.plannerRevision = fleet.plannerRevision
  apply thread_invariant kept _ published rfl
  intro state entry next _ stepped holds
  exact (publishAnchorLocked_revision stepped).trans holds

/-- Either adapter bumps once. -/
theorem fleetWriteAs_revision {α : Type} {owner : Option (String × Nat)}
    {body : Fleet → Except Refused (Fleet × α)} {result : α}
    (keeps : ∀ written value, body fleet = .ok (written, value) →
      written.plannerRevision = fleet.plannerRevision)
    (written : fleet.writeAs owner body = .ok (other, result)) :
    other.plannerRevision = fleet.plannerRevision + 1 := by
  rcases owner with _ | ⟨sessionId, token⟩
  · simp only [Fleet.writeAs, Fleet.operatorWrite, Fleet.bumpRevision, bind_eq_ok,
      require_eq_ok] at written
    obtain ⟨⟨mid, value⟩, performed, bumped, ⟨_, _, same⟩, committed⟩ := written
    cases same
    cases committed
    simp [keeps mid value performed]
  · simp only [Fleet.writeAs, Fleet.sessionWrite] at written
    split at written
    · cases written
    · simp only [Fleet.bumpRevision, bind_eq_ok, require_eq_ok] at written
      obtain ⟨_, _, _, _, ⟨mid, value⟩, performed, bumped, ⟨_, _, same⟩, rebound⟩ := written
      cases same
      split at rebound
      · cases rebound
      · cases rebound
        simp [keeps mid value performed]

theorem onFleet_commits {α : Type} {transaction : Fleet → Except Refused (Fleet × α)}
    (bumps : ∀ fleet value, transaction c.fleet = .ok (fleet, value) →
      fleet.plannerRevision = c.fleet.plannerRevision + 1)
    (written : c.onFleet transaction = .ok after) : Commits c after := by
  simp only [Catalog.onFleet, bind_eq_ok, lift_eq_ok] at written
  obtain ⟨⟨fleet, value⟩, performed, committed⟩ := written
  cases committed
  exact .bumped (bumps fleet value performed)

theorem beginGeneration_revision {label operationCode : String} {epoch : Option Nat} {generation : Nat}
    (begun : fleet.beginGeneration label operationCode epoch = .ok (other, generation)) :
    other.plannerRevision = fleet.plannerRevision + 1 := by
  simp only [Fleet.beginGeneration, bind_eq_ok, require_eq_ok] at begun
  obtain ⟨_, _, _, _, written⟩ := begun
  have adapter : fleet.writeAs none
      (fun current => current.advanceOne label operationCode none none) = .ok (other, generation) :=
    written
  exact fleetWriteAs_revision (fun _ _ performed => advanceOne_revision performed) adapter

theorem enter_revision {rules : FenceRules} {labels : List String} {operationCode : String}
    {sessionId : Option String} {token : Option Nat} {world : MutationWorld}
    {advanced : List (Captured × Nat)}
    (entered : fleet.enter rules labels operationCode sessionId token world = .ok (other, advanced)) :
    other.plannerRevision = fleet.plannerRevision + 1 := by
  simp only [Fleet.enter, bind_eq_ok] at entered
  obtain ⟨owner, _, captured, _, _, _, _, _, _, _, written⟩ := entered
  exact fleetWriteAs_revision (fun _ _ performed => dirtyBody_revision performed) written

theorem close_revision {rules : FenceRules} {sessionId : Option String} {token : Option Nat}
    {world : MutationWorld} {advanced : List (Captured × Nat)} {result : Unit}
    (closed : fleet.close rules sessionId token world advanced = .ok (other, result)) :
    other.plannerRevision = fleet.plannerRevision + 1 := by
  simp only [Fleet.close, bind_eq_ok] at closed
  obtain ⟨owner, _, _, _, written⟩ := closed
  exact fleetWriteAs_revision (fun _ _ performed => anchorBody_revision performed) written

theorem addDrive_commits {planId driveLabel : String}
    (written : addDrive planId driveLabel c = .ok after) : Commits c after := by
  apply graphWrite_commits _ written
  intro tables performed
  simp only [bind_eq_ok, require_eq_ok, pure_eq_ok, Prod.mk.injEq] at performed
  obtain ⟨_, _, same, existed⟩ := performed
  have kept := c.tables.planDrives.upsert_eq_self ⟨planId, driveLabel⟩ existed
  rw [← same]
  simp [Tables.joinPlan, kept]

theorem removeDrive_commits {planId driveLabel : String}
    (written : removeDrive planId driveLabel c = .ok after) : Commits c after := by
  apply graphWrite_commits _ written
  intro tables performed
  simp only [Except.ok.injEq, Prod.mk.injEq, Bool.not_eq_true'] at performed
  obtain ⟨same, absent⟩ := performed
  have kept : c.tables.planDrives.delete (·.key == (planId, driveLabel)) = c.tables.planDrives := by
    apply Table.delete_eq_self
    intro row member
    by_contra found
    have there : c.tables.planDrives.has (planId, driveLabel) = true := by
      rw [Table.has_iff]
      exact ⟨row, member, by simpa using found⟩
    simp [there] at absent
  rw [← same, kept]

/-- As long as `bootstrap` has noted no change, it has made none. -/
theorem bootstrapBody_kept {planId : String} {tables : Tables}
    (unchanged : (bootstrapBody planId tables).2 = false) : (bootstrapBody planId tables).1 = tables := by
  let kept (state : Tables × Bool) : Prop := state.2 = false → state.1 = tables
  have drives (labels : List String) (state : Tables × Bool) (holds : kept state) :
      kept (labels.foldl (bootstrapDrive planId) state) := by
    induction labels generalizing state with
    | nil => exact holds
    | cons label labels ih =>
        apply ih
        unfold bootstrapDrive
        split
        · exact holds
        · intro noted
          cases noted
  unfold bootstrapBody at unchanged ⊢
  split
  · rename_i present
    simp only [present, if_true] at unchanged ⊢
    split
    · rename_i active
      simp only [active, if_true] at unchanged
      exact drives _ _ (fun _ => rfl) unchanged
    · rename_i inactive
      simp [inactive] at unchanged
  · rename_i absent
    simp only [absent, Bool.false_eq_true, if_false] at unchanged ⊢
    split
    · rename_i active
      simp only [active, if_true] at unchanged
      exact drives _ _ (fun noted => by cases noted) unchanged
    · rename_i inactive
      simp [inactive] at unchanged

variable {u : Archive.Unicode} {sourceDrive targetDrive repoId rfilename : String}

theorem facts_fillDigest_ne {tables : Tables} {row : ArchivedRow} {selected : ArchivedRow → Bool}
    {digest provenance : Option String} (member : row ∈ tables.archived.rows)
    (chosen : selected row = true) (changed : row.origSha256 ≠ digest) :
    (tables.fillDigest selected digest provenance).facts ≠ tables.facts := by
  let change (row : ArchivedRow) : ArchivedRow :=
    { row with origSha256 := digest, origSha256Provenance := provenance }
  have fact : (change row).fact ≠ row.fact := by
    intro same
    exact changed (congrArg ArchivedFileFact.origSha256 same).symm
  have keeps (row : ArchivedRow) : (change row).key = row.key := rfl
  have column := tables.archived.column_update_ne ArchivedRow.fact keeps member chosen fact
  intro same
  exact column (congrArg Facts.archived same)

/-- Provenance is not a fact of the planner. -/
theorem facts_updateProvenance {tables : Tables} {selected : ArchivedRow → Bool}
    {provenance : Option String} :
    (tables.updateArchived selected (fun row => { row with origSha256Provenance := provenance })
      (fun _ => rfl)).facts = tables.facts := by
  let change (row : ArchivedRow) : ArchivedRow := { row with origSha256Provenance := provenance }
  have keeps (row : ArchivedRow) : (change row).key = row.key := rfl
  have same (row : ArchivedRow) (_ : selected row = true) : (change row).fact = row.fact := rfl
  have column := tables.archived.column_update_eq ArchivedRow.fact keeps same
  unfold Tables.facts
  congr 1

theorem truthy_of_classify {source target : ArchivedRow}
    (fills : classifyReplicaHeal u source target = .fill .digest) :
    Archive.truthy source.origSha256 = true := by
  unfold classifyReplicaHeal at fills
  grind

theorem heal_commits {result : HealResult}
    (ordinary : ¬HealFills u sourceDrive targetDrive repoId rfilename c)
    (healed : healReplicaArchivedFromSource u sourceDrive targetDrive repoId rfilename c =
      .ok (after, result)) : Commits c after := by
  unfold healReplicaArchivedFromSource at healed
  rcases foundSource : c.tables.archived.find (repoId, rfilename, sourceDrive) with _ | source
  · simp [foundSource] at healed
  rcases foundTarget : c.tables.archived.find (repoId, rfilename, targetDrive) with _ | target
  · simp [foundSource, foundTarget] at healed
  simp only [foundSource, foundTarget] at healed
  rcases decision : classifyReplicaHeal u source target with _ | (_ | _) | _ | _
  · simp [decision] at healed
  · -- the digest is filled only where there is none, and that has been excluded
    simp only [decision, bind_eq_ok, require_eq_ok, pure_eq_ok, beq_iff_eq] at healed
    obtain ⟨_, count, _⟩ := healed
    have present : ∃ row, row ∈ c.tables.archived.rows.filter fun row =>
        healTarget target row && row.origSha256.isNone := by
      apply List.exists_mem_of_length_pos
      omega
    obtain ⟨row, among⟩ := present
    simp only [List.mem_filter, healTarget, Bool.and_eq_true, beq_iff_eq, Option.isNone_iff_eq_none]
      at among
    obtain ⟨member, ⟨⟨same, _⟩, _⟩, empty⟩ := among
    obtain ⟨targetMember, _⟩ := (Table.find_eq_some _).mp foundTarget
    have row_eq := List.inj_on_of_nodup_map c.tables.archived.distinct member targetMember same
    rw [row_eq] at empty
    exact absurd ⟨source, target, foundSource, foundTarget, decision, empty⟩ ordinary
  · simp only [decision, bind_eq_ok, require_eq_ok, pure_eq_ok, Prod.mk.injEq] at healed
    obtain ⟨_, _, same, _⟩ := healed
    rw [← same]
    exact .kept facts_updateProvenance rfl
  · simp only [decision, pure_eq_ok, Prod.mk.injEq] at healed
    rw [← healed.1]
    exact .kept rfl rfl
  · simp only [decision, pure_eq_ok, Prod.mk.injEq] at healed
    rw [← healed.1]
    exact .kept rfl rfl

/-- A heal that fills a digest commits a change of facts at the old revision. -/
theorem heal_fills (fills : HealFills u sourceDrive targetDrive repoId rfilename c) :
    ∃ after, healReplicaArchivedFromSource u sourceDrive targetDrive repoId rfilename c =
        .ok (after, .filled) ∧
      after.tables.facts ≠ c.tables.facts ∧ after.plannerRevision = c.plannerRevision := by
  obtain ⟨source, target, foundSource, foundTarget, decision, empty⟩ := fills
  obtain ⟨member, _⟩ := (Table.find_eq_some _).mp foundTarget
  let selected (row : ArchivedRow) : Bool := healTarget target row && row.origSha256.isNone
  have chosen : selected target = true := by simp [selected, healTarget, empty]
  have count : (c.tables.archived.rows.filter selected).length = 1 := by
    apply Table.count_eq_one _ member chosen
    intro other otherChosen
    simp only [selected, healTarget, Bool.and_eq_true, beq_iff_eq] at otherChosen
    exact otherChosen.1.1.1
  let filled := c.tables.fillDigest selected source.origSha256 source.origSha256Provenance
  refine ⟨{ c with tables := filled }, ?_, ?_, rfl⟩
  · simp only [healReplicaArchivedFromSource, foundSource, foundTarget, decision, bind_eq_ok,
      require_eq_ok, pure_eq_ok, beq_iff_eq]
    exact ⟨(), count, rfl⟩
  · apply facts_fillDigest_ne member chosen
    have digest := truthy_of_classify decision
    rw [empty]
    intro absent
    simp [← absent, Archive.truthy] at digest

variable {head : Option HeadEvidence} {tables : Tables}

@[simp] theorem facts_setRepairState {state : HashRepairState} :
    (tables.setRepairState state).facts = tables.facts := rfl

/-- Some row of the key has a digest. -/
def Filled (key : String × String × String) (tables : Tables) : Prop :=
  ∃ row ∈ tables.archived.rows, row.key = key ∧ row.origSha256.isSome = true

theorem Filled.fillOne {key : String × String × String} (filled : Filled key tables)
    (planned : ArchivedRow × String × String) : Filled key (Revision.fillOne tables planned) := by
  obtain ⟨row, member, same, digest⟩ := filled
  refine ⟨row, List.mem_map.mpr ⟨row, member, ?_⟩, same, digest⟩
  simp [Option.isNone_iff_eq_none, Option.ne_none_iff_isSome.mpr digest]

theorem filled_fillOne {row : ArchivedRow} {fill : String × String}
    (member : row ∈ tables.archived.rows) (empty : row.origSha256 = none) :
    Filled row.key (Revision.fillOne tables (row, fill)) := by
  refine ⟨{ row with origSha256 := some fill.1, origSha256Provenance := some fill.2 },
    List.mem_map.mpr ⟨row, member, ?_⟩, rfl, rfl⟩
  simp [empty]

theorem filled_foldl {key : String × String × String} (planned : List (ArchivedRow × String × String))
    (filled : Filled key tables) : Filled key (planned.foldl Revision.fillOne tables) := by
  induction planned generalizing tables with
  | nil => exact filled
  | cons first planned ih => exact ih (filled.fillOne first)

/-- A row without a digest whose key is filled has changed. -/
theorem facts_ne_of_filled {filled : Tables} {row : ArchivedRow} (member : row ∈ tables.archived.rows)
    (empty : row.origSha256 = none) (now : Filled row.key filled) : filled.facts ≠ tables.facts := by
  intro same
  obtain ⟨other, otherMember, key, digest⟩ := now
  have column : filled.archived.rows.map ArchivedRow.fact = tables.archived.rows.map ArchivedRow.fact :=
    congrArg Facts.archived same
  have fact : other.fact ∈ tables.archived.rows.map ArchivedRow.fact := by
    rw [← column]
    exact List.mem_map_of_mem otherMember
  obtain ⟨old, oldMember, sameFact⟩ := List.mem_map.mp fact
  simp only [ArchivedRow.fact, ArchivedFileFact.mk.injEq] at sameFact
  have sameKey : old.key = row.key := by
    rw [← key]
    simp [ArchivedRow.key, sameFact]
  have old_eq := List.inj_on_of_nodup_map tables.archived.distinct oldMember member sameKey
  rw [← sameFact.2.2.2.1, old_eq, empty] at digest
  cases digest

/-- The fill of a row, if a digest is found for it. -/
def plannedFill (u : Archive.Unicode) (head : Option HeadEvidence) (pair : ArchivedRow × FileRow) :
    Option (ArchivedRow × String × String) :=
  (repairDigest u head pair).map fun found => (pair.1, found.1, found.2)

/-- Planning succeeds exactly when the hub agrees, and then plans every row with a digest. -/
theorem planRepairs_eq_ok {rows : List (ArchivedRow × FileRow)}
    {planned : List (ArchivedRow × String × String)} :
    planRepairs u head rows = .ok planned ↔
      Agreed u head rows ∧ planned = rows.filterMap (plannedFill u head) := by
  obtain ⟨step, threaded, unproven, proven⟩ : ∃ step : List (ArchivedRow × String × String) →
      ArchivedRow × FileRow → Except String (List (ArchivedRow × String × String)),
      planRepairs u head rows = thread step [] rows ∧
        (∀ seen pair, repairDigest u head pair = none → step seen pair = .ok seen) ∧
        ∀ seen pair digest evidence, repairDigest u head pair = some (digest, evidence) →
          step seen pair = if hubDisagrees u.lower pair.2.sha256 digest then
              .error ("hub digest disagreement on " ++ pair.1.repoId ++ "/" ++ pair.1.rfilename ++
                " (" ++ evidence ++ ")")
            else .ok (seen ++ [(pair.1, digest, evidence)]) :=
    ⟨_, rfl, fun _ _ found => by simp [found], fun _ _ _ _ found => by simp [found]⟩
  rw [threaded]
  have general (seen : List (ArchivedRow × String × String)) :
      thread step seen rows = .ok planned ↔
        Agreed u head rows ∧ planned = seen ++ rows.filterMap (plannedFill u head) := by
    clear threaded
    induction rows generalizing seen with
    | nil =>
        simp only [thread_nil, Except.ok.injEq, List.filterMap_nil, List.append_nil]
        exact ⟨fun same => ⟨by simp [Agreed], same.symm⟩, fun given => given.2.symm⟩
    | cons pair rows ih =>
        rcases found : repairDigest u head pair with _ | ⟨digest, evidence⟩
        · have skipped : plannedFill u head pair = none := by simp [plannedFill, found]
          simp [found, unproven, ih, Agreed, skipped]
        · have filled : plannedFill u head pair = some (pair.1, digest, evidence) := by
            simp [plannedFill, found]
          rcases disagrees : hubDisagrees u.lower pair.2.sha256 digest
          · simp [found, proven seen pair digest evidence found, disagrees, ih, Agreed, filled]
          · simp [found, proven seen pair digest evidence found, disagrees, Agreed]
  exact general []

theorem mem_unresolved {driveLabel : String} {pair : ArchivedRow × FileRow}
    (member : pair ∈ unresolvedNullDigests tables driveLabel) :
    pair.1 ∈ tables.archived.rows ∧ pair.1.driveLabel = driveLabel ∧ pair.1.origSha256 = none := by
  simp only [unresolvedNullDigests, Tables.archivedFiles, List.mem_filter, mem_sortBy,
    List.mem_filterMap, Option.map_eq_some_iff, Bool.and_eq_true, Option.isNone_iff_eq_none] at member
  obtain ⟨⟨row, rowMember, file, _, rfl⟩, label, empty⟩ := member
  exact ⟨rowMember, by simpa using label, empty⟩

/-- A repair that fills nothing keeps the facts. -/
theorem foldl_fillOne_ne {planned : List (ArchivedRow × String × String)} (some_ : planned ≠ [])
    (empty : ∀ fill ∈ planned, fill.1 ∈ tables.archived.rows ∧ fill.1.origSha256 = none) :
    (planned.foldl Revision.fillOne tables).facts ≠ tables.facts := by
  rcases planned with _ | ⟨first, rest⟩
  · exact absurd rfl some_
  · obtain ⟨member, blank⟩ := empty first List.mem_cons_self
    exact facts_ne_of_filled member blank (filled_foldl rest (filled_fillOne member blank))

variable {identity : RepairIdentity} {drive : FleetDrive} {lifecycle : String}

/-- A repair changes facts exactly when it is authorized, agreed, and finds a digest. -/
theorem driveRepair_facts :
    (driveRepair u head identity drive lifecycle tables).1.facts ≠ tables.facts ↔
      repairHalt u.lower identity drive = none ∧
        Agreed u head (unresolvedNullDigests tables identity.driveLabel) ∧
        ∃ pair ∈ unresolvedNullDigests tables identity.driveLabel,
          (repairDigest u head pair).isSome = true := by
  by_cases lost : (lifecycle == "lost" &&
      (tables.archived.rows.filter (·.driveLabel == identity.driveLabel)).length == 0) = true
  · -- no archived row of the drive, so nothing is unresolved
    simp only [driveRepair, lost, if_true]
    simp only [Bool.and_eq_true, beq_iff_eq, List.length_eq_zero_iff] at lost
    constructor
    · intro changed
      exact absurd rfl changed
    · rintro ⟨_, _, pair, member, _⟩
      obtain ⟨rowMember, label, _⟩ := mem_unresolved member
      have among : pair.1 ∈ tables.archived.rows.filter (·.driveLabel == identity.driveLabel) := by
        simp [rowMember, label]
      rw [lost.2] at among
      cases among
  · simp only [driveRepair, lost, Bool.false_eq_true, if_false]
    rcases halted : repairHalt u.lower identity drive with _ | detail
    · rcases plan : planRepairs u head (unresolvedNullDigests tables identity.driveLabel) with
        detail | planned
      · -- a disagreement halts the repair
        have disagreed : ¬Agreed u head (unresolvedNullDigests tables identity.driveLabel) := by
          intro agreed
          have planned := planRepairs_eq_ok.mpr ⟨agreed, rfl⟩
          rw [plan] at planned
          cases planned
        simp [disagreed]
      · obtain ⟨agreed, rfl⟩ := planRepairs_eq_ok.mp plan
        simp only [facts_setRepairState, agreed, true_and]
        constructor
        · intro changed
          by_contra nothing
          apply changed
          have empty : (unresolvedNullDigests tables identity.driveLabel).filterMap
              (plannedFill u head) = [] := by
            rw [List.filterMap_eq_nil_iff]
            intro pair member
            rcases found : repairDigest u head pair with _ | digest
            · simp [plannedFill, found]
            · exact absurd ⟨pair, member, by simp [found]⟩ nothing
          rw [empty]
          rfl
        · intro ⟨pair, member, found⟩
          obtain ⟨digest, digested⟩ := Option.isSome_iff_exists.mp found
          apply foldl_fillOne_ne
          · have among : (pair.1, digest.1, digest.2) ∈
                (unresolvedNullDigests tables identity.driveLabel).filterMap (plannedFill u head) :=
              List.mem_filterMap.mpr ⟨pair, member, by simp [plannedFill, digested]⟩
            exact List.ne_nil_of_mem among
          · intro fill among
            obtain ⟨source, sourceMember, planned⟩ := List.mem_filterMap.mp among
            obtain ⟨rowMember, _, blank⟩ := mem_unresolved sourceMember
            simp only [plannedFill, Option.map_eq_some_iff] at planned
            obtain ⟨_, _, rfl⟩ := planned
            exact ⟨rowMember, blank⟩
    · simp
theorem fingerprint_length (authorized : repairHalt u.lower identity drive = none) :
    identity.identityFingerprint.length = 64 := by
  unfold repairHalt at authorized
  split at authorized
  · cases authorized
  · rename_i hex
    simp only [Bool.not_eq_true', Bool.not_eq_false, isHex64, Bool.and_eq_true, beq_iff_eq] at hex
    exact hex.1

variable {supported : Check} {report : RepairReport} {resolver : Option (Option HeadEvidence)}

theorem repair_commits (ordinary : ¬RepairFills u supported (readArchive resolver) identity c)
    (repaired : runExplicitDriveRepair u supported resolver identity c = .ok (after, report)) :
    Commits c after := by
  simp only [runExplicitDriveRepair, bind_eq_ok, require_eq_ok] at repaired
  obtain ⟨_, accepted, _, _, repaired⟩ := repaired
  split at repaired
  · rename_i drive columns foundDrive foundColumns
    simp only [pure_eq_ok, Prod.mk.injEq] at repaired
    obtain ⟨rfl, _⟩ := repaired
    refine .kept ?_ rfl
    by_contra changed
    obtain ⟨authorized, agreed, some_⟩ := driveRepair_facts.mp changed
    exact ordinary ⟨accepted, by simp [foundColumns], ⟨drive, foundDrive, authorized⟩, some_, agreed⟩
  · cases repaired

/-- A drive repair that fills digests commits a change of facts at the old revision. -/
theorem repair_fills (fills : RepairFills u supported (readArchive resolver) identity c) :
    ∃ after report, runExplicitDriveRepair u supported resolver identity c = .ok (after, report) ∧
      after.tables.facts ≠ c.tables.facts ∧ after.plannerRevision = c.plannerRevision := by
  obtain ⟨columns, foundColumns⟩ := Option.isSome_iff_exists.mp fills.columns
  obtain ⟨drive, foundDrive, authorized⟩ := fills.authorized
  let repaired := driveRepair u (readArchive resolver) identity drive (u.lower columns.lifecycle) c.tables
  refine ⟨{ c with tables := repaired.1 }, repaired.2, ?_, ?_, rfl⟩
  · simp only [runExplicitDriveRepair, fills.supported, ok_bind, foundDrive, foundColumns,
      fingerprint_length authorized, beq_self_eq_true, require, if_true]
    rfl
  · exact driveRepair_facts.mpr ⟨authorized, fills.agreed, fills.some⟩

/-- Peels the refusals of a removal that is guarded by this process's worker. -/
theorem guarded_commits {workerIdle : Bool} {mutate : Catalog → Except Failure Catalog}
    (commits : mutate c = .ok after → Commits c after)
    (written : guarded workerIdle mutate c = .ok after) : Commits c after := by
  simp only [guarded, bind_eq_ok, require_eq_ok] at written
  obtain ⟨_, _, performed⟩ := written
  exact commits performed

theorem selectAll_commits {repoIds : List String} (written : selectAll repoIds c = .ok after) :
    Commits c after := by
  apply graphWrite_commits _ written
  intro tables claimed
  simp at claimed

theorem persistInfo_commits {rows : List FileRow} (written : persistInfo repoId rows c = .ok after) :
    Commits c after := by
  apply graphWrite_commits _ written
  intro tables claimed
  simp at claimed

theorem declareLost_commits {publicationClear : Check} {fenceHeld : Bool} {driveLabel confirmation : String}
    {expected : LossBinding}
    (written : declareLost publicationClear fenceHeld driveLabel expected confirmation c = .ok after) :
    Commits c after := by
  simp only [declareLost, bind_eq_ok, require_eq_ok] at written
  obtain ⟨_, _, written⟩ := written
  apply graphWrite_commits _ written
  intro tables claimed
  simp only [bind_eq_ok] at claimed
  obtain ⟨_, _, claimed⟩ := claimed
  split at claimed
  · simp only [bind_eq_ok, require_eq_ok] at claimed
    obtain ⟨_, _, _, _, claimed⟩ := claimed
    split at claimed
    · simp only [pure_eq_ok, Prod.mk.injEq, and_true] at claimed
      rw [claimed]
    · simp at claimed
  · cases claimed

theorem publish_commits {owner : Option (String × Nat)} {bound : Check} {step : PublicationStep}
    (written : publish owner bound step c = .ok after) : Commits c after := by
  apply writeAs_commits _ written
  intro tables claimed
  simp only [bind_eq_ok] at claimed
  obtain ⟨_, _, claimed⟩ := claimed
  cases step <;> simp at claimed

theorem transportWrite_commits {ctx : RunCtx} {write : TransportWrite}
    (written : transportWrite ctx write c = .ok after) : Commits c after := by
  apply writeAs_commits _ written
  intro tables claimed
  cases write <;> simp at claimed

/-- The presentation status of a model is not a fact. -/
theorem facts_modelArchived : (tables.modelArchived repoId).facts = tables.facts := by
  let change (row : ModelRow) : ModelRow := { row with status := "archived" }
  have keeps (row : ModelRow) : (change row).repoId = row.repoId := rfl
  have same (row : ModelRow) (_ : (row.repoId == repoId) = true) :
      ((change row).repoId, (change row).numcopies) = (row.repoId, row.numcopies) := rfl
  have column := tables.models.column_update_eq (fun row => (row.repoId, row.numcopies)) keeps same
  unfold Tables.facts
  congr 1

/-- Every transaction but the fills of digests either bumps or changes no fact. -/
theorem perform_commits {writer : Writer} (ordinary : ¬writer.FillsDigests c)
    (performed : writer.perform c = .ok after) : Commits c after := by
  cases writer with
  | setActive planId =>
      simp only [Writer.perform, Revision.setActive, bind_eq_ok, require_eq_ok] at performed
      obtain ⟨_, _, _, _, performed⟩ := performed
      split at performed
      · cases performed
        exact .kept rfl rfl
      · apply graphWrite_commits _ performed
        intro tables claimed
        simp at claimed
  | setCapacityMode planId mode =>
      simp only [Writer.perform, Revision.setCapacityMode, bind_eq_ok, require_eq_ok] at performed
      obtain ⟨_, _, performed⟩ := performed
      apply graphWrite_commits _ performed
      intro tables claimed
      simp at claimed
  | addDrive => exact addDrive_commits performed
  | removeDrive => exact removeDrive_commits performed
  | bootstrap planId =>
      simp only [Writer.perform, Revision.bootstrap] at performed
      apply graphWrite_commits _ performed
      intro tables claimed
      simp only [Except.ok.injEq, Prod.mk.injEq, Bool.not_eq_true'] at claimed
      rw [← claimed.1, bootstrapBody_kept claimed.2]
  | toggle workerIdle repoId on =>
      simp only [Writer.perform, Revision.toggle] at performed
      split at performed
      · exact selectAll_commits performed
      · apply guarded_commits _ performed
        intro written
        apply graphWrite_commits _ written
        intro tables claimed
        simp at claimed
  | bulk hash workerIdle repoIds on bound =>
      simp only [Writer.perform, Revision.bulk] at performed
      split at performed
      · exact selectAll_commits performed
      · split at performed
        · apply guarded_commits _ performed
          intro written
          apply graphWrite_commits _ written
          intro tables claimed
          simp at claimed
        · apply guarded_commits _ performed
          intro written
          apply graphWrite_commits _ written
          intro tables claimed
          simp at claimed
        · cases performed
  | clear | finalize =>
      simp only [Writer.perform, Revision.clear, Revision.finalize] at performed
      apply guarded_commits _ performed
      intro written
      apply graphWrite_commits _ written
      intro tables claimed
      simp at claimed
  | discoverOne repoId answer =>
      simp only [Writer.perform, Revision.discoverOne, bind_eq_ok, require_eq_ok] at performed
      obtain ⟨_, _, performed⟩ := performed
      cases answer with
      | gated =>
          apply graphWrite_commits _ performed
          intro tables claimed
          simp at claimed
      | absent =>
          cases performed
          exact .kept rfl rfl
      | info rows => exact persistInfo_commits performed
  | applyMetadataClassification current changed =>
      simp only [Writer.perform, Revision.applyMetadataClassification] at performed
      apply graphWrite_commits _ performed
      intro tables claimed
      simp only [bind_eq_ok] at claimed
      obtain ⟨_, _, claimed⟩ := claimed
      split at claimed
      · simp only [pure_eq_ok, Prod.mk.injEq, and_true] at claimed
        rw [claimed]
      · simp at claimed
  | protect repoIds numcopies =>
      simp only [Writer.perform, Revision.protect, bind_eq_ok, require_eq_ok] at performed
      obtain ⟨_, _, performed⟩ := performed
      apply graphWrite_commits _ performed
      intro tables claimed
      simp at claimed
  | registerDrive =>
      apply graphWrite_commits _ performed
      intro tables claimed
      simp [registerDriveBody] at claimed
  | registerNas =>
      apply graphWrite_commits _ performed
      intro tables claimed
      simp [registerNasBody] at claimed
  | registerNewIdentity =>
      apply graphWrite_commits _ performed
      intro tables claimed
      simp only [registerNewIdentityBody, bind_eq_ok] at claimed
      obtain ⟨_, _, _, _, _, _, claimed⟩ := claimed
      split at claimed
      · cases claimed
      · simp at claimed
  | declareLost => exact declareLost_commits performed
  | bootstrapped | epochAdvanced | refreshed | recovered | serialEnrich | publishCleanAnchor
  | approve =>
      simp only [Writer.perform, Revision.bootstrapped, Revision.epochAdvanced, Revision.refreshed,
        Revision.publishCleanAnchor, Revision.recovered, Revision.serialEnrich, Revision.approve]
        at performed
      exact immediate_commits performed
  | beginGeneration =>
      simp only [Writer.perform] at performed
      exact onFleet_commits (fun _ _ begun => beginGeneration_revision begun) performed
  | enterMutation =>
      simp only [Writer.perform] at performed
      exact onFleet_commits (fun _ _ entered => enter_revision entered) performed
  | closeMutation =>
      simp only [Writer.perform] at performed
      exact onFleet_commits (fun _ _ closed => close_revision closed) performed
  | repairHashes u supported head scope =>
      simp only [Writer.perform, Revision.repairHashes, bind_eq_ok, require_eq_ok] at performed
      obtain ⟨_, _, _, _, report, _, _, _, performed⟩ := performed
      split at performed
      · cases performed
        exact .kept rfl rfl
      · exact immediate_commits performed
  | runExplicitDriveRepair u supported resolver identity =>
      simp only [Writer.perform] at performed
      rcases repaired : Revision.runExplicitDriveRepair u supported resolver identity c with
        refused | ⟨committed, report⟩
      · simp [repaired, Except.map] at performed
      · simp only [repaired, Except.map, Except.ok.injEq] at performed
        subst performed
        exact repair_commits ordinary repaired
  | healReplica u source target repoId rfilename =>
      simp only [Writer.perform] at performed
      rcases healed : healReplicaArchivedFromSource u source target repoId rfilename c with
        refused | ⟨committed, result⟩
      · simp [healed, Except.map] at performed
      · simp only [healed, Except.map, Except.ok.injEq] at performed
        subst performed
        exact heal_commits ordinary healed
  | transportWrite => exact transportWrite_commits performed
  | archiveModel repoId =>
      cases performed
      exact .kept facts_modelArchived rfl
  | publish => exact publish_commits performed
  | abortUnfinished prepared =>
      simp only [Writer.perform, Revision.abortUnfinished] at performed
      apply graphWrite_commits _ performed
      intro tables claimed
      simp only [Except.ok.injEq, Prod.mk.injEq] at claimed
      rw [claimed.1]
  | create | replaceFiles | publishKey =>
      simp only [Writer.perform, Revision.create, Revision.replaceFiles, Revision.publishKey]
        at performed
      apply graphWrite_commits _ performed
      intro tables claimed
      simp at claimed

/-- A transaction revises exactly when it fills no digest. -/
theorem revises_iff {writer : Writer} : writer.Revises c ↔ ¬writer.FillsDigests c := by
  constructor
  · intro revises fills
    have unrevised : ∃ after, writer.perform c = .ok after ∧ after.tables.facts ≠ c.tables.facts ∧
        after.plannerRevision = c.plannerRevision := by
      cases writer with
      | runExplicitDriveRepair u supported resolver identity =>
          obtain ⟨after, report, repaired, changed, same⟩ := repair_fills fills
          exact ⟨after, by simp [Writer.perform, repaired, Except.map], changed, same⟩
      | healReplica u source target repoId rfilename =>
          obtain ⟨after, healed, changed, same⟩ := heal_fills fills
          exact ⟨after, by simp [Writer.perform, healed, Except.map], changed, same⟩
      | _ => exact absurd fills id
    obtain ⟨after, performed, changed, same⟩ := unrevised
    have bumped := revises after performed changed
    omega
  · intro ordinary after performed changed
    cases perform_commits ordinary performed with
    | bumped revision => exact revision
    | kept facts => exact absurd facts changed

/-- Every committed transaction of the run revises. -/
def Disciplined (start : Catalog) (writers : List Writer) : Prop :=
  Permitted Catalog.step (fun c writer => writer.Revises c) start writers

/-- Two reads at one revision of the run capture one planner input. -/
def SameReads (start : Catalog) (writers : List Writer) : Prop :=
  ∀ first second, first <+: writers → second <+: writers →
    (run Catalog.step start first).plannerRevision = (run Catalog.step start second).plannerRevision →
    ∀ rules planId repoIds, (run Catalog.step start first).capture rules planId repoIds =
      (run Catalog.step start second).capture rules planId repoIds

theorem step_commits {writer : Writer} (ordinary : ¬writer.FillsDigests c) :
    Commits c (c.step writer) := by
  unfold Catalog.step
  rcases performed : writer.perform c with refused | committed
  · exact .kept rfl rfl
  · exact perform_commits ordinary performed

/-- The revision never falls, and while it stands the facts do. -/
theorem run_commits {writers : List Writer}
    (ordinary : Permitted Catalog.step (fun c writer => ¬writer.FillsDigests c) c writers) :
    c.plannerRevision ≤ (run Catalog.step c writers).plannerRevision ∧
      ((run Catalog.step c writers).plannerRevision = c.plannerRevision →
        (run Catalog.step c writers).tables.facts = c.tables.facts) := by
  induction writers generalizing c with
  | nil => simp
  | cons writer writers ih =>
      obtain ⟨first, rest⟩ := permitted_cons.mp ordinary
      obtain ⟨rises, stands⟩ := ih rest
      simp only [run_cons]
      cases step_commits first with
      | bumped revision =>
          constructor
          · omega
          · intro same
            omega
      | kept facts revision =>
          constructor
          · omega
          · intro same
            exact (stands (by omega)).trans facts

theorem sameReads_of_ordinary {start : Catalog} {writers : List Writer}
    (ordinary : Permitted Catalog.step (fun c writer => ¬writer.FillsDigests c) start writers) :
    SameReads start writers := by
  -- of two points of a run, the later one is reached from the earlier one
  have later (first second : List Writer) (prefixed : second <+: writers) (before : first <+: second)
      (same : (run Catalog.step start first).plannerRevision =
        (run Catalog.step start second).plannerRevision) :
      (run Catalog.step start second).tables.facts = (run Catalog.step start first).tables.facts := by
    obtain ⟨between, rfl⟩ := before
    obtain ⟨rest, rfl⟩ := prefixed
    obtain ⟨_, middle⟩ := permitted_append.mp (permitted_append.mp ordinary).1
    rw [run_append] at same ⊢
    exact (run_commits middle).2 same.symm
  intro first second firstPrefix secondPrefix same rules planId repoIds
  unfold Catalog.capture
  rcases List.prefix_or_prefix_of_prefix firstPrefix secondPrefix with before | before
  · rw [later first second secondPrefix before same]
  · rw [later second first firstPrefix before same.symm]

/-- A run is disciplined, and its revisions determine what is read, exactly when none of its transactions
    fills digests without a bump. -/
theorem disciplined_iff (start : Catalog) (writers : List Writer) :
    Disciplined start writers ∧ SameReads start writers ↔
      Permitted Catalog.step (fun c writer => ¬writer.FillsDigests c) start writers := by
  have same : Disciplined start writers ↔
      Permitted Catalog.step (fun c writer => ¬writer.FillsDigests c) start writers := by
    unfold Disciplined Permitted
    simp only [revises_iff]
  constructor
  · intro disciplined
    exact same.mp disciplined.1
  · intro ordinary
    exact ⟨same.mpr ordinary, sameReads_of_ordinary ordinary⟩

def mirroredRow (label : String) (digest : Option String) : ArchivedRow :=
  { repoId := "org/m", rfilename := "m.gguf", driveLabel := label, storedName := none,
    storedRelpath := none, origSha256 := digest, origBytes := some 5, storedBytes := some 5,
    compressed := false, annexKey := none, origSha256Provenance := none }

def mirroredColumns (label role : String) : DriveColumns :=
  ⟨label, role, false, some 100, none, "active", "enabled"⟩

def mirroredDrive (label : String) : FleetDrive :=
  { driveLabel := label
    fence :=
      { fsUuid := none, annexUuid := some label, serial := none, filesystemCapacityBytes := some 100,
        identityEpoch := 1, identityFingerprint := some (String.ofList (List.replicate 64 'f')) }
    writeGeneration := 0
    writeAuthority := "dedicated_local" }

/-- A repository with one weight file, archived with its digest on a drive and without it on another. -/
def mirroredModel : ModelRow := ⟨"org/m", "archived", 2⟩

def mirroredFile : FileRow := ⟨"org/m", "m.gguf", some 5, none, some "gguf", none⟩

def mirroredPlan : PlanRow := ⟨"ark", "guaranteed", true⟩

def mirroredCatalog : Catalog where
  tables :=
    { models := ⟨[mirroredModel], by decide⟩
      files := ⟨[mirroredFile], by decide⟩
      replicas := Table.empty
      selection := ⟨[⟨"org/m", some "then"⟩], by decide⟩
      archived :=
        ⟨[mirroredRow "a" (some (String.ofList (List.replicate 64 '0'))), mirroredRow "b" none],
          by decide +kernel⟩
      plans := ⟨[mirroredPlan], by decide⟩
      planDrives := ⟨[⟨"ark", "a"⟩, ⟨"ark", "b"⟩], by decide⟩
      driveColumns := ⟨[mirroredColumns "a" "primary", mirroredColumns "b" "replica"], by decide +kernel⟩
      drives := [mirroredDrive "a", mirroredDrive "b"]
      dirty := []
      anchors := []
      hashRepairState := Table.empty }
  plannerRevision := 7
  sessions := .empty

/-- The heal of the second copy from the first. -/
def mirroredHeal : Writer :=
  .healReplica Archive.asciiUnicode "a" "b" "org/m" "m.gguf"

/-- The repair of the second drive, whose archive proves the digest. -/
def mirroredRepair : Writer :=
  .runExplicitDriveRepair Archive.asciiUnicode (fun _ => .ok ())
    (some (some ⟨fun _ => true, fun _ _ => some (String.ofList (List.replicate 64 '0'))⟩))
    ⟨"b", 1, String.ofList (List.replicate 64 'f')⟩

/-- Both change the digest that planning reads of the second copy, and keep the revision. -/
theorem digest_fills_unrevised :
    ¬(Disciplined mirroredCatalog [mirroredHeal] ∧ SameReads mirroredCatalog [mirroredHeal]) ∧
      ¬(Disciplined mirroredCatalog [mirroredRepair] ∧ SameReads mirroredCatalog [mirroredRepair]) := by
  -- the fact of the second copy, and the revision, after a transaction
  have changed (writer : Writer) (facts : (mirroredCatalog.step writer).tables.facts ≠
      mirroredCatalog.tables.facts) (same : (mirroredCatalog.step writer).plannerRevision = 7) :
      ¬Disciplined mirroredCatalog [writer] := by
    intro disciplined
    have revises := disciplined [] writer [] rfl
    simp only [run_nil] at revises
    cases step_shape : writer.perform mirroredCatalog with
    | error refused => simp [Catalog.step, step_shape, Except.toOption] at facts
    | ok after =>
        have stepped : mirroredCatalog.step writer = after := by
          simp [Catalog.step, step_shape, Except.toOption]
        rw [stepped] at facts same
        have bumped := revises after step_shape facts
        rw [same] at bumped
        cases bumped
  constructor
  · intro given
    exact changed mirroredHeal (by decide +kernel) (by decide +kernel) given.1
  · intro given
    exact changed mirroredRepair (by decide +kernel) (by decide +kernel) given.1

end Modelark.Revision
