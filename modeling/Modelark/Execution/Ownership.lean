import Modelark.Execution.DriveMutation

/-!
# Whose write a drive mutation is

While a session is live, every dirty generation that begins is its own. A batch of the drain is admitted
as the session's write exactly when it opens no envelope for a replica group: those are not given the
session.
-/

namespace Modelark.Execution

open Library

/-- A live session of a claimed worker whose lease has not run out. -/
structure Claimed (session : Session) (now : Nat) (fleet : Fleet) : Prop where
  member : session ∈ fleet.sessions.rows
  live : session.live = true
  worker : session.workerIdentity.isSome = true
  unexpired : session.expired now = false

/-- Fences are free, identities proven, generations clean, and nothing is left to reconcile. -/
structure Undisturbed (rules : FenceRules) (fleet : Fleet) (world : MutationWorld)
    (labels : List String) : Prop where
  fences : world.fencesFree = true
  drives : ∀ label ∈ labels, ∃ drive, fleet.findDrive label = some drive ∧
    (rules.lockKeys drive.fence).isSome = true ∧
    (drive.writeGeneration = 0 ∨ fleet.generationIsClean label drive.facts = true) ∧
    Fleet.requireIdentity (world.observe label) drive.facts = .ok () ∧
    Fleet.requireIdentity (world.observeAfter label) drive.facts = .ok ()
  reconciled : ∀ label ∈ labels, world.reconcile label = none

def BatchUndisturbed (rules : FenceRules) (fleet : Fleet) (world : BatchWorld) : Batch → Prop
  | .fetch label => Undisturbed rules fleet (world.mutation (none, label)) [label]
  | .replica tasks => ∀ group ∈ replicaGroups tasks, reachesEnvelope fleet world group = true →
      Undisturbed rules fleet (world.mutation group) [group.1.getD "", group.2]

/-- The transactions of the batch are accepted, and its dirty generations carry the session. -/
structure Admitted (session : Session) (fleet : Fleet) (ended : EnvelopeRun) : Prop where
  accepted : ∀ outcome ∈ ended.transactions, outcome = none
  owned : ∀ row ∈ ended.fleet.dirty, row ∉ fleet.dirty →
    row.owner = some (session.sessionId, session.fencingToken)

/-- The transactions that begin dirty generations: of a drive mutation, of `begin_generation`, and of
    the operator bodies that advance a generation on their own. -/
inductive Begins (rules : FenceRules) (fleet : Fleet) : Fleet → Prop where
  | mutation {labels operationCode sessionId token world after advanced}
      (entered : fleet.enter rules labels operationCode sessionId token world = .ok (after, advanced)) :
      Begins rules fleet after
  | generation {label operationCode epoch after generation}
      (begun : fleet.beginGeneration label operationCode epoch = .ok (after, generation)) :
      Begins rules fleet after
  | operator {α : Type} {body : Fleet → Except Refused (Fleet × α)} {after result}
      (keeps : ∀ written value, body fleet = .ok (written, value) →
        written.sessions = fleet.sessions)
      (written : fleet.operatorWrite body = .ok (after, result)) : Begins rules fleet after

def OwnsDirty (rules : FenceRules) (fleet : Fleet) (session : Session) : Prop :=
  ∀ after, Begins rules fleet after → ∀ row ∈ after.dirty, row ∉ fleet.dirty →
    row.owner = some (session.sessionId, session.fencingToken)

namespace Fleet

variable {fleet after : Fleet} {session : Session}

@[simp] theorem sessions_setGeneration (label : String) (generation : Nat) :
    (fleet.setGeneration label generation).sessions = fleet.sessions := rfl

@[simp] theorem dirty_setGeneration (label : String) (generation : Nat) :
    (fleet.setGeneration label generation).dirty = fleet.dirty := rfl

/-- An advance begins one generation of its owner. -/
theorem advanceOne_spec {label operationCode : String} {captured : Option DriveFacts}
    {owner : Option (String × Nat)} {generation : Nat}
    (advanced : fleet.advanceOne label operationCode captured owner = .ok (after, generation)) :
    after.sessions = fleet.sessions ∧
      ∀ row ∈ after.dirty, row ∈ fleet.dirty ∨ row.owner = owner := by
  simp only [advanceOne, bind_eq_ok, require_eq_ok] at advanced
  obtain ⟨drive, _, _, _, _, _, result⟩ := advanced
  cases result
  refine ⟨rfl, fun row member => ?_⟩
  simp only [dirty_setGeneration, List.mem_append, List.mem_singleton] at member
  rcases member with old | rfl
  · exact .inl old
  · exact .inr rfl

theorem dirtyBody_spec {rules : FenceRules} {operationCode : String}
    {owner : Option (String × Nat)} {captured : List Captured} {result : List (Captured × Nat)}
    (written : fleet.dirtyBody rules operationCode owner captured = .ok (after, result)) :
    after.sessions = fleet.sessions ∧
      ∀ row ∈ after.dirty, row ∈ fleet.dirty ∨ row.owner = owner := by
  simp only [dirtyBody, bind_eq_ok] at written
  obtain ⟨_, _, _, _, advanced⟩ := written
  -- every advance keeps the sessions and begins a generation of the same owner
  let kept (state : Fleet × List (Captured × Nat)) : Prop :=
    state.1.sessions = fleet.sessions ∧
      ∀ row ∈ state.1.dirty, row ∈ fleet.dirty ∨ row.owner = owner
  have all : kept (after, result) := by
    apply thread_invariant kept _ advanced
    · exact ⟨rfl, fun row member => .inl member⟩
    · intro state entry next _ stepped holds
      simp only [bind_eq_ok] at stepped
      obtain ⟨⟨advancedFleet, generation⟩, one, same⟩ := stepped
      cases same
      obtain ⟨sessions, rows⟩ := advanceOne_spec one
      refine ⟨sessions.trans holds.1, fun row member => ?_⟩
      rcases rows row member with old | owned
      · exact holds.2 row old
      · exact .inr owned
  exact all

/-- No operator's transaction commits while a session is live. -/
theorem operatorWrite_refused {α : Type} {body : Fleet → Except Refused (Fleet × α)} {result : α}
    (member : session ∈ fleet.sessions.rows) (live : session.live = true)
    (keeps : ∀ written value, body fleet = .ok (written, value) →
      written.sessions = fleet.sessions) :
    fleet.operatorWrite body ≠ .ok (after, result) := by
  intro committed
  simp only [operatorWrite, bumpRevision, bind_eq_ok, require_eq_ok] at committed
  obtain ⟨⟨written, value⟩, performed, _, ⟨_, idle, _⟩, _⟩ := committed
  rw [keeps written value performed] at idle
  have ended : fleet.sessions.liveExists = false := by simpa using idle
  rw [SessionTable.liveExists_eq_false.mp ended session member] at live
  cases live

/-- A session write that commits is the live session's own. -/
theorem sessionWrite_spec {α : Type} {body : Fleet → Except Refused (Fleet × α)} {result : α}
    {sessionId : String} {token : Nat}
    (committed : fleet.sessionWrite sessionId token body = .ok (after, result)) :
    (∃ row ∈ fleet.sessions.rows, row.live = true ∧ row.sessionId = sessionId ∧
      row.fencingToken = token) ∧
    ∃ written, body fleet = .ok (written, result) ∧ after.dirty = written.dirty ∧
      after.drives = written.drives ∧ after.anchors = written.anchors := by
  unfold sessionWrite at committed
  rcases found : fleet.sessions.find sessionId with _ | row
  · simp [found] at committed
  · simp only [found, bumpRevision, bind_eq_ok, require_eq_ok] at committed
    obtain ⟨_, held, _, live, ⟨written, value⟩, performed, bumped, ⟨_, _, same⟩, committed⟩ :=
      committed
    cases same
    obtain ⟨member, id⟩ := SessionTable.find_eq_some.mp found
    rcases updated : written.sessions.update (Session.matching sessionId token)
      (fun row => { row with boundPlannerRevision := written.plannerRevision + 1 }) with _ | sessions
    · simp [updated] at committed
    · simp only [updated, Except.ok.injEq, Prod.mk.injEq] at committed
      obtain ⟨rfl, rfl⟩ := committed
      exact ⟨⟨row, member, live, id, by simpa using held⟩, written, performed, rfl, rfl, rfl⟩

/-- The first transaction of an envelope begins generations of the live session only. -/
theorem enter_owned {rules : FenceRules} {labels : List String} {operationCode : String}
    {sessionId : Option String} {token : Option Nat} {world : MutationWorld}
    {advanced : List (Captured × Nat)} (member : session ∈ fleet.sessions.rows)
    (live : session.live = true)
    (entered : fleet.enter rules labels operationCode sessionId token world = .ok (after, advanced)) :
    sessionId = some session.sessionId ∧ token = some session.fencingToken ∧
      ∀ row ∈ after.dirty, row ∈ fleet.dirty ∨
        row.owner = some (session.sessionId, session.fencingToken) := by
  simp only [enter, bind_eq_ok] at entered
  obtain ⟨owner, pair, captured, _, _, _, _, _, _, _, written⟩ := entered
  rcases sessionId with _ | sessionId <;> rcases token with _ | token <;> cases pair <;>
    simp only [writeAs] at written
  · -- without a session the write is an operator's, and those are excluded
    refine absurd written (operatorWrite_refused member live ?_)
    intro mid value performed
    exact (dirtyBody_spec performed).1
  · obtain ⟨⟨row, rowMember, rowLive, rfl, rfl⟩, mid, performed, dirty, _, _⟩ :=
      sessionWrite_spec written
    rw [SessionTable.eq_of_live rowMember member rowLive live] at performed ⊢
    refine ⟨rfl, rfl, ?_⟩
    rw [dirty]
    exact (dirtyBody_spec performed).2

end Fleet

theorem owns_dirty (rules : FenceRules) {fleet : Fleet} {session : Session}
    (member : session ∈ fleet.sessions.rows) (live : session.live = true) :
    OwnsDirty rules fleet session := by
  intro after begins row begun new
  cases begins with
  | mutation entered =>
      obtain ⟨_, _, rows⟩ := Fleet.enter_owned member live entered
      exact (rows row begun).resolve_left new
  | generation begun =>
      simp only [Fleet.beginGeneration, bind_eq_ok, require_eq_ok] at begun
      obtain ⟨_, idle, _⟩ := begun
      have ended : fleet.sessions.liveExists = false := by simpa using idle
      rw [SessionTable.liveExists_eq_false.mp ended session member] at live
      cases live
  | operator keeps written => exact absurd written (Fleet.operatorWrite_refused member live keeps)

namespace Fleet

/-- The session is live under its token. -/
def Holds (sessionId : String) (token : Nat) (fleet : Fleet) : Prop :=
  ∃ row, fleet.sessions.find sessionId = some row ∧ row.fencingToken = token ∧ row.live = true

/-- A drive of the fleet as an envelope has captured it, at some generation. -/
structure At (rules : FenceRules) (fleet : Fleet) (entry : Captured) (generation : Nat) : Prop where
  found : ∃ drive, fleet.findDrive entry.label = some drive ∧ drive.fence = entry.identity ∧
    drive.facts = { entry.facts with writeGeneration := generation }
  keys : (rules.lockKeys entry.identity).isSome = true

variable {rules : FenceRules} {fleet after : Fleet} {sessionId : String} {token : Nat}

theorem Holds.find {row : Session} (member : row ∈ fleet.sessions.rows) (live : row.live = true) :
    Holds row.sessionId row.fencingToken fleet :=
  ⟨row, SessionTable.find_eq_some.mpr ⟨member, rfl⟩, rfl, live⟩

/-- A write of the session commits when its body does, and the session stays live. -/
theorem sessionWrite_ok {α : Type} (body : Fleet → Except Refused (Fleet × α)) {written : Fleet}
    {result : α} (holds : Holds sessionId token fleet) (performed : body fleet = .ok (written, result))
    (keeps : written.sessions = fleet.sessions) :
    ∃ after, fleet.sessionWrite sessionId token body = .ok (after, result) ∧
      Holds sessionId token after ∧ after.drives = written.drives ∧ after.dirty = written.dirty ∧
        after.anchors = written.anchors := by
  obtain ⟨row, found, held, live⟩ := holds
  have accepted := written.sessions.update_accepted (Session.matching sessionId token)
    (fun row => { row with boundPlannerRevision := written.plannerRevision + 1 })
    (fun _ => rfl) (fun _ => rfl) (fun _ => rfl)
  obtain ⟨sessions, updated⟩ := accepted
  refine ⟨{ written with plannerRevision := written.plannerRevision + 1, sessions := sessions },
    ?_, ?_, rfl, rfl, rfl⟩
  · simp [sessionWrite, found, held, live, performed, bumpRevision, require, updated]
  · obtain ⟨member, same⟩ := SessionTable.find_eq_some.mp found
    refine ⟨{ row with boundPlannerRevision := written.plannerRevision + 1 }, ?_, held, live⟩
    rw [SessionTable.find_eq_some, SessionTable.rows_update updated]
    refine ⟨List.mem_map.mpr ⟨row, by rwa [keeps], ?_⟩, same⟩
    simp [same, held]

theorem requireOwner_ok (holds : Holds sessionId token fleet) :
    fleet.requireOwner (some (sessionId, token)) = .ok () := by
  obtain ⟨row, found, held, live⟩ := holds
  simp [requireOwner, requireLiveSessionToken, found, held, live, require]

theorem At.fenceIdentity {entry : Captured} {generation : Nat} (place : At rules fleet entry generation) :
    fleet.fenceIdentity rules entry.label = .ok entry.identity := by
  obtain ⟨⟨row, found, fence, _⟩, keys⟩ := place
  simp [Fleet.fenceIdentity, drive, found, fence, keys, require]

theorem requireFenceIdentities_ok {captured : List Captured}
    (present : ∀ entry ∈ captured, ∃ generation, At rules fleet entry generation) :
    fleet.requireFenceIdentities rules captured = .ok () := by
  apply thread_checks
  intro entry member
  obtain ⟨generation, place⟩ := present entry member
  simp [place.fenceIdentity, require]

/-- What an observation proves does not depend on the generation. -/
theorem requireIdentity_generation (observation : Observation) (facts : DriveFacts)
    (generation : Nat) :
    requireIdentity observation { facts with writeGeneration := generation } =
      requireIdentity observation facts := rfl

theorem findDrive_setGeneration {label other : String} {generation : Nat} :
    (fleet.setGeneration label generation).findDrive other =
      (fleet.findDrive other).map fun drive =>
        if drive.driveLabel = label then { drive with writeGeneration := generation } else drive := by
  simp only [findDrive, setGeneration, List.find?_map]
  congr 1
  apply congrArg (fun p => fleet.drives.find? p)
  funext drive
  simp only [Function.comp]
  split_ifs <;> rfl

theorem label_of_findDrive {label : String} {drive : FleetDrive}
    (found : fleet.findDrive label = some drive) : drive.driveLabel = label := by
  simpa using List.find?_some found

/-- Advancing one drive leaves the others where they were. -/
theorem At.setGeneration {entry : Captured} {label : String} {generation other : Nat}
    (place : At rules fleet entry generation) (apart : entry.label ≠ label) :
    At rules (fleet.setGeneration label other) entry generation := by
  obtain ⟨⟨drive, found, rest⟩, keys⟩ := place
  refine ⟨⟨drive, ?_, rest⟩, keys⟩
  have elsewhere : drive.driveLabel ≠ label := by
    rw [label_of_findDrive found]
    exact apart
  simp [findDrive_setGeneration, found, elsewhere]

theorem At.advance {entry : Captured} {generation other : Nat} (place : At rules fleet entry generation) :
    At rules (fleet.setGeneration entry.label other) entry other := by
  obtain ⟨⟨drive, found, fence, facts⟩, keys⟩ := place
  refine ⟨⟨{ drive with writeGeneration := other }, ?_, fence, ?_⟩, keys⟩
  · simp [findDrive_setGeneration, found, label_of_findDrive found]
  · simp only [FleetDrive.facts, DriveFacts.mk.injEq] at facts ⊢
    simp [← facts.1, ← facts.2.2.1, ← facts.2.2.2.1, ← facts.2.2.2.2]

/-- A captured drive of a clean generation. -/
structure Clean (rules : FenceRules) (fleet : Fleet) (entry : Captured) : Prop where
  place : At rules fleet entry entry.facts.writeGeneration
  clean : entry.facts.writeGeneration = 0 ∨ fleet.generationIsClean entry.label entry.facts = true

theorem Clean.facts_eq {entry : Captured} (clean : Clean rules fleet entry) :
    ∃ drive, fleet.findDrive entry.label = some drive ∧ drive.facts = entry.facts := by
  obtain ⟨drive, found, _, facts⟩ := clean.place.found
  exact ⟨drive, found, facts⟩

/-- A clean drive is advanced to its next generation. -/
theorem advanceOne_ok {entry : Captured} (clean : Clean rules fleet entry) (operationCode : String)
    (owner : Option (String × Nat)) :
    ∃ after, fleet.advanceOne entry.label operationCode (some entry.facts) owner =
        .ok (after, entry.facts.writeGeneration + 1) ∧
      At rules after entry (entry.facts.writeGeneration + 1) ∧ after.sessions = fleet.sessions ∧
      (∀ other : Captured, other.label ≠ entry.label → Clean rules fleet other →
        Clean rules after other) ∧
      ∀ other generation, other.label ≠ entry.label → At rules fleet other generation →
        At rules after other generation := by
  obtain ⟨row, found, facts⟩ := clean.facts_eq
  let begun : DirtyGeneration :=
    { driveLabel := entry.label, identityEpoch := entry.facts.identityEpoch,
      generation := entry.facts.writeGeneration + 1, operationCode, owner }
  let dirtied : Fleet := { fleet with dirty := fleet.dirty ++ [begun] }
  have same {other : Captured} {generation : Nat} (place : At rules fleet other generation) :
      At rules dirtied other generation := ⟨place.found, place.keys⟩
  refine ⟨dirtied.setGeneration entry.label (entry.facts.writeGeneration + 1), ?_, ?_, rfl, ?_, ?_⟩
  · have unowned := clean.clean
    simp [advanceOne, drive, found, facts, require, unowned, dirtied, begun]
  · exact (same clean.place).advance
  · intro other apart otherClean
    exact ⟨(same otherClean.place).setGeneration apart, otherClean.clean⟩
  · intro other generation apart place
    exact (same place).setGeneration apart

/-- All captured drives advance together. -/
theorem advanceAll_ok {captured : List Captured} (distinct : (captured.map Captured.label).Nodup)
    (clean : ∀ entry ∈ captured, Clean rules fleet entry) (operationCode : String)
    (owner : Option (String × Nat)) :
    ∃ after advanced, fleet.advanceAll operationCode owner captured = .ok (after, advanced) ∧
      after.sessions = fleet.sessions ∧ advanced.map Prod.fst = captured ∧
        ∀ pair ∈ advanced, At rules after pair.1 pair.2 := by
  -- what is still to come is clean, what has come is in place
  let inv (state : Fleet × List (Captured × Nat)) (items : List Captured) : Prop :=
    state.1.sessions = fleet.sessions ∧ state.2.map Prod.fst ++ items = captured ∧
      (∀ entry ∈ items, Clean rules state.1 entry) ∧ ∀ pair ∈ state.2, At rules state.1 pair.1 pair.2
  have progress : ∀ state item items, inv state (item :: items) → ∃ next,
      (fun (state : Fleet × List (Captured × Nat)) entry => do
        let made ← state.1.advanceOne entry.label operationCode (some entry.facts) owner
        return (made.1, state.2 ++ [(entry, made.2)])) state item = .ok next ∧
      inv next items := by
    rintro state item items ⟨sessions, split, ahead, behind⟩
    obtain ⟨after, advanced, place, kept, others, places⟩ :=
      advanceOne_ok (ahead item List.mem_cons_self) operationCode owner
    rw [← split, List.map_append, List.nodup_append] at distinct
    obtain ⟨_, tailNodup, apart⟩ := distinct
    rw [List.map_cons, List.nodup_cons] at tailNodup
    refine ⟨(after, state.2 ++ [(item, item.facts.writeGeneration + 1)]), by simp [advanced],
      kept.trans sessions, by simp [← split], ?_, ?_⟩
    · intro entry member
      apply others entry _ (ahead entry (List.mem_cons_of_mem item member))
      intro same
      exact tailNodup.1 (same ▸ List.mem_map_of_mem member)
    · intro pair member
      rcases List.mem_append.mp member with old | new
      · apply places pair.1 pair.2 _ (behind pair old)
        have label : pair.1.label ∈ (state.2.map Prod.fst).map Captured.label :=
          List.mem_map_of_mem (List.mem_map_of_mem old)
        exact apart _ label _ List.mem_cons_self
      · rw [List.mem_singleton.mp new]
        exact place
  obtain ⟨⟨after, advanced⟩, threaded, sessions, split, _, places⟩ :=
    thread_progress inv progress (fleet, []) ⟨rfl, rfl, clean, by simp⟩
  exact ⟨after, advanced, threaded, sessions, by simpa using split, places⟩

/-- What an undisturbed drive is captured as. -/
theorem capture_ok {world : MutationWorld} {labels : List String} {label : String}
    (undisturbed : Undisturbed rules fleet world labels) (member : label ∈ labels) :
    ∃ entry : Captured, fleet.capture rules label = .ok entry ∧ entry.label = label ∧
      Clean rules fleet entry ∧ requireIdentity (world.observe label) entry.facts = .ok () ∧
        requireIdentity (world.observeAfter label) entry.facts = .ok () := by
  obtain ⟨row, found, keys, clean, before, later⟩ := undisturbed.drives label member
  refine ⟨⟨label, row.facts, row.fence⟩, ?_, rfl, ⟨⟨⟨row, found, rfl, rfl⟩, keys⟩, clean⟩,
    before, later⟩
  simp [capture, fenceIdentity, drive, found, keys, require]

/-- The captured drives of an undisturbed envelope, in the order of their labels. -/
theorem captureAll_ok {world : MutationWorld} {labels : List String}
    (undisturbed : Undisturbed rules fleet world labels) :
    ∃ captured : List Captured,
      thread (fun (seen : List Captured) label => do
        let entry ← fleet.capture rules label
        return seen ++ [entry]) [] (sortedSet labels) = .ok captured ∧
      (captured.map Captured.label).Nodup ∧ ∀ entry ∈ captured, entry.label ∈ labels ∧
        Clean rules fleet entry ∧ requireIdentity (world.observe entry.label) entry.facts = .ok () ∧
          requireIdentity (world.observeAfter entry.label) entry.facts = .ok () := by
  let good (entry : Captured) : Prop := entry.label ∈ labels ∧ Clean rules fleet entry ∧
    requireIdentity (world.observe entry.label) entry.facts = .ok () ∧
      requireIdentity (world.observeAfter entry.label) entry.facts = .ok ()
  let inv (seen : List Captured) (items : List String) : Prop :=
    seen.map Captured.label ++ items = sortedSet labels ∧ ∀ entry ∈ seen, good entry
  have progress : ∀ seen label items, inv seen (label :: items) → ∃ next,
      (fun (seen : List Captured) label => do
        let entry ← fleet.capture rules label
        return seen ++ [entry]) seen label = .ok next ∧ inv next items := by
    rintro seen label items ⟨split, holds⟩
    have member : label ∈ labels := by
      rw [← mem_sortedSet, ← split]
      simp
    obtain ⟨entry, captured, same, clean, before, later⟩ := capture_ok undisturbed member
    refine ⟨seen ++ [entry], by simp [captured], by simp [same, ← split], ?_⟩
    intro other among
    rcases List.mem_append.mp among with old | new
    · exact holds other old
    · rw [List.mem_singleton.mp new]
      exact ⟨same ▸ member, clean, same ▸ before, same ▸ later⟩
  obtain ⟨captured, threaded, split, holds⟩ :=
    thread_progress inv progress [] ⟨rfl, by simp⟩
  refine ⟨captured, threaded, ?_, holds⟩
  rw [List.append_nil] at split
  rw [split]
  exact nodup_sortedSet labels

/-- The drives of an envelope are where its first transaction has left them. -/
def InPlace (rules : FenceRules) (advanced : List (Captured × Nat)) (fleet : Fleet) : Prop :=
  ∀ pair ∈ advanced, At rules fleet pair.1 pair.2

theorem InPlace.of_drives {advanced : List (Captured × Nat)} (place : InPlace rules advanced fleet)
    (same : after.drives = fleet.drives) : InPlace rules advanced after := by
  intro pair member
  obtain ⟨⟨row, found, rest⟩, keys⟩ := place pair member
  refine ⟨⟨row, ?_, rest⟩, keys⟩
  simpa [findDrive, same] using found

/-- The first transaction of an undisturbed envelope commits as the session's write. -/
theorem enter_ok {world : MutationWorld} {labels : List String} (holds : Holds sessionId token fleet)
    (undisturbed : Undisturbed rules fleet world labels) (operationCode : String) :
    ∃ after advanced, fleet.enter rules labels operationCode (some sessionId) (some token) world =
        .ok (after, advanced) ∧ Holds sessionId token after ∧ InPlace rules advanced after ∧
      ∀ pair ∈ advanced, pair.1.label ∈ labels ∧
        requireIdentity (world.observeAfter pair.1.label) pair.1.facts = .ok () := by
  obtain ⟨captured, threaded, distinct, good⟩ := captureAll_ok undisturbed
  have clean : ∀ entry ∈ captured, Clean rules fleet entry := fun entry member =>
    (good entry member).2.1
  have present : ∀ entry ∈ captured, ∃ generation, At rules fleet entry generation :=
    fun entry member => ⟨_, (clean entry member).place⟩
  have identities := requireFenceIdentities_ok present
  have observed : thread (fun _ entry => requireIdentity (world.observe entry.label) entry.facts) ()
      captured = .ok () :=
    thread_checks fun entry member => (good entry member).2.2.1
  obtain ⟨advancedFleet, advanced, dirtied, sessions, split, places⟩ :=
    advanceAll_ok distinct clean operationCode (some (sessionId, token))
  have body : fleet.dirtyBody rules operationCode (some (sessionId, token)) captured =
      .ok (advancedFleet, advanced) := by
    simp [dirtyBody, identities, requireOwner_ok holds, dirtied]
  obtain ⟨after, committed, held, drives, _, _⟩ := sessionWrite_ok
    (fun current => current.dirtyBody rules operationCode (some (sessionId, token)) captured)
    holds body sessions
  refine ⟨after, advanced, ?_, held, InPlace.of_drives places drives, ?_⟩
  · simp only [enter, ownerPair, ok_bind, threaded, undisturbed.fences, require, if_true, identities,
      observed, writeAs]
    exact committed
  · intro pair member
    have among : pair.1 ∈ captured := by
      rw [← split]
      exact List.mem_map_of_mem member
    exact ⟨(good pair.1 among).1, (good pair.1 among).2.2.2⟩

/-- A drive in place gets its anchor. -/
theorem publishAnchorLocked_ok {entry : Captured} {generation : Nat} {observation : Observation}
    (place : At rules fleet entry generation)
    (proven : requireIdentity observation entry.facts = .ok ()) (now : String) :
    fleet.publishAnchorLocked entry.label entry.facts.identityEpoch generation observation now =
      .ok { fleet with anchors := fleet.anchors ++ [observation.anchor entry.label
        entry.facts.identityEpoch generation entry.facts.writeAuthority now] } := by
  obtain ⟨row, found, _, facts⟩ := place.found
  simp only [publishAnchorLocked, drive, found, facts, ok_bind, beq_self_eq_true, Bool.and_self,
    require, if_true, requireIdentity_generation, proven]
  rfl

/-- The anchors of an envelope whose drives are in place are published as the session's write. -/
theorem close_ok {world : MutationWorld} {labels : List String} {advanced : List (Captured × Nat)}
    (holds : Holds sessionId token fleet) (place : InPlace rules advanced fleet)
    (reconciled : ∀ label ∈ labels, world.reconcile label = none)
    (observed : ∀ pair ∈ advanced, pair.1.label ∈ labels ∧
      requireIdentity (world.observeAfter pair.1.label) pair.1.facts = .ok ()) :
    ∃ after, fleet.close rules (some sessionId) (some token) world advanced = .ok (after, ()) ∧
      after.dirty = fleet.dirty := by
  have settled : thread (fun _ (entry : Captured × Nat) => do
      require (world.reconcile entry.1.label).isNone
        (.mutation ((world.reconcile entry.1.label).getD ""))
      requireIdentity (world.observeAfter entry.1.label) entry.1.facts) () advanced = .ok () := by
    apply thread_checks
    intro pair member
    obtain ⟨among, proven⟩ := observed pair member
    simp [reconciled _ among, proven, require]
  have identities : fleet.requireFenceIdentities rules (advanced.map Prod.fst) = .ok () := by
    apply requireFenceIdentities_ok
    intro entry member
    obtain ⟨pair, among, rfl⟩ := List.mem_map.mp member
    exact ⟨pair.2, place pair among⟩
  -- anchors are added to a fleet whose drives, sessions and generations stay as they are
  let inv (state : Fleet) (items : List (Captured × Nat)) : Prop :=
    (∀ pair ∈ items, pair ∈ advanced) ∧ state.drives = fleet.drives ∧
      state.sessions = fleet.sessions ∧ state.dirty = fleet.dirty
  have progress : ∀ state item items, inv state (item :: items) → ∃ next,
      (fun (state : Fleet) (entry : Captured × Nat) =>
        state.publishAnchorLocked entry.1.label entry.1.facts.identityEpoch entry.2
          (world.observeAfter entry.1.label) world.now) state item = .ok next ∧ inv next items := by
    rintro state item items ⟨among, drives, sessions, dirty⟩
    have member := among item List.mem_cons_self
    have published := publishAnchorLocked_ok (place.of_drives drives item member)
      (observed item member).2 world.now
    exact ⟨_, published, fun pair later => among pair (List.mem_cons_of_mem item later), drives,
      sessions, dirty⟩
  obtain ⟨anchored, published, _, drives, sessions, dirty⟩ :=
    thread_progress inv progress fleet ⟨fun _ member => member, rfl, rfl, rfl⟩
  have body : fleet.anchorBody rules (some (sessionId, token)) advanced world.observeAfter world.now =
      .ok (anchored, ()) := by
    simp [anchorBody, identities, requireOwner_ok holds, published]
  obtain ⟨after, committed, _, _, dirtyAfter, _⟩ := sessionWrite_ok
    (fun current =>
      current.anchorBody rules (some (sessionId, token)) advanced world.observeAfter world.now)
    holds body sessions
  refine ⟨after, ?_, dirtyAfter.trans dirty⟩
  simp [close, ownerPair, settled, writeAs, committed]

end Fleet

/-- The catalog writes of a body go through as writes of the live session. -/
theorem writes_ok {rules : FenceRules} {session : Session} {advanced : List (Captured × Nat)}
    (count : Nat) {fleet : Fleet} (holds : Fleet.Holds session.sessionId session.fencingToken fleet)
    (place : Fleet.InPlace rules advanced fleet) :
    ∃ after, (RunCtx.bind session).writes count fleet = (after, none) ∧
      Fleet.Holds session.sessionId session.fencingToken after ∧ Fleet.InPlace rules advanced after ∧
        after.dirty = fleet.dirty := by
  induction count generalizing fleet with
  | zero => exact ⟨fleet, rfl, holds, place, rfl⟩
  | succ count ih =>
      obtain ⟨written, committed, held, drives, dirty, _⟩ := Fleet.sessionWrite_ok
        (fun current => .ok (current, ())) holds rfl rfl
      obtain ⟨after, rest, heldAfter, placed, same⟩ := ih held (place.of_drives drives)
      refine ⟨after, ?_, heldAfter, placed, same.trans dirty⟩
      have first : (RunCtx.bind session).write fleet = .ok (written, ()) := committed
      simp [RunCtx.writes, first, rest]

/-- An undisturbed envelope with the session's identity is admitted. -/
theorem driveMutation_admitted {rules : FenceRules} {fleet : Fleet} {session : Session}
    {world : MutationWorld} {labels : List String} (member : session ∈ fleet.sessions.rows)
    (live : session.live = true) (undisturbed : Undisturbed rules fleet world labels)
    (operationCode : String) (count : Nat) :
    Admitted session fleet (driveMutation rules (RunCtx.bind session) fleet labels operationCode
      (some session.sessionId) (some session.fencingToken) world count) := by
  have holds := Fleet.Holds.find member live
  obtain ⟨dirtied, advanced, entered, held, place, observed⟩ :=
    Fleet.enter_ok holds undisturbed operationCode
  obtain ⟨written, body, heldAfter, placed, sameDirty⟩ := writes_ok count held place
  obtain ⟨anchored, closed, dirty⟩ :=
    Fleet.close_ok heldAfter placed undisturbed.reconciled observed
  have ended : driveMutation rules (RunCtx.bind session) fleet labels operationCode
      (some session.sessionId) (some session.fencingToken) world count =
        ⟨anchored, [none, none], none⟩ := by
    simp [driveMutation, entered, body, closed]
  rw [ended]
  constructor
  · simp
  · intro row begun new
    rw [dirty, sameDirty] at begun
    exact ((Fleet.enter_owned member live entered).2.2 row begun).resolve_left new

/-- An envelope that is not given the live session does not get in. -/
theorem driveMutation_unowned (rules : FenceRules) {fleet : Fleet} {session : Session}
    (member : session ∈ fleet.sessions.rows) (live : session.live = true) (ctx : RunCtx)
    (labels : List String) (operationCode : String) (world : MutationWorld) (count : Nat) :
    ∃ refused, driveMutation rules ctx fleet labels operationCode none none world count =
      ⟨fleet, [some refused], some refused⟩ := by
  unfold driveMutation
  rcases entered : fleet.enter rules labels operationCode none none world with
    refused | ⟨after, advanced⟩
  · exact ⟨refused, rfl⟩
  · have owned := (Fleet.enter_owned member live entered).1
    cases owned

/-- Without a group that reaches an envelope, a replica batch touches nothing. -/
theorem runReplicaGroups_idle (rules : FenceRules) {fleet : Fleet} (ctx : RunCtx) {world : BatchWorld}
    {groups : List (Option String × String)}
    (idle : ∀ group ∈ groups, reachesEnvelope fleet world group = false) :
    runReplicaGroups rules ctx world groups fleet = ⟨fleet, [], none⟩ := by
  induction groups with
  | nil => rfl
  | cons group groups ih =>
      have rest := ih fun other member => idle other (List.mem_cons_of_mem group member)
      simp [runReplicaGroups, idle group List.mem_cons_self, rest]

/-- A group that reaches its envelope while the session is live is refused there. -/
theorem runReplicaGroups_refused (rules : FenceRules) {fleet : Fleet} {session : Session}
    (ctx : RunCtx) {world : BatchWorld} (member : session ∈ fleet.sessions.rows)
    (live : session.live = true) {groups : List (Option String × String)}
    {group : Option String × String} (among : group ∈ groups)
    (reaches : reachesEnvelope fleet world group = true) :
    ∃ refused, some refused ∈ (runReplicaGroups rules ctx world groups fleet).transactions := by
  induction groups with
  | nil => cases among
  | cons head groups ih =>
      by_cases first : reachesEnvelope fleet world head = true
      · obtain ⟨refused, ended⟩ := driveMutation_unowned rules member live ctx
          [head.1.getD "", head.2] "replica" (world.mutation head) (world.writes head)
        refine ⟨refused, ?_⟩
        cases refused <;> simp [runReplicaGroups, first, ended]
      · rcases List.mem_cons.mp among with rfl | later
        · exact absurd reaches first
        · obtain ⟨refused, rest⟩ := ih later
          exact ⟨refused, by simpa [runReplicaGroups, first] using rest⟩

/-- A batch that the drain hands out under a live session is admitted as that session's write, and its
    dirty generations are the session's, exactly when it opens no envelope for a replica group. -/
theorem batch_admitted_iff (rules : FenceRules) (fleet : Fleet) (session : Session) (now : Nat)
    (world : BatchWorld) (batch : Batch) (claimed : Claimed session now fleet)
    (undisturbed : BatchUndisturbed rules fleet world batch) :
    (Admitted session fleet (runBatch rules (RunCtx.bind session) fleet world batch) ∧
        OwnsDirty rules fleet session) ↔
      ∀ group ∈ batch.groups, reachesEnvelope fleet world group = false := by
  constructor
  · intro ⟨admitted, _⟩ group among
    cases batch with
    | fetch label => cases among
    | replica tasks =>
        by_contra reaches
        have reaches : reachesEnvelope fleet world group = true := by simpa using reaches
        obtain ⟨refused, transaction⟩ := runReplicaGroups_refused rules (RunCtx.bind session)
          claimed.member claimed.live among reaches
        cases admitted.accepted _ transaction
  · intro idle
    refine ⟨?_, owns_dirty rules claimed.member claimed.live⟩
    cases batch with
    | fetch label =>
        simp only [runBatch, fetchRun]
        split_ifs with present
        · exact driveMutation_admitted claimed.member claimed.live undisturbed "fill" _
        · exact ⟨by simp, fun row member new => absurd member new⟩
    | replica tasks =>
        have ended := runReplicaGroups_idle rules (RunCtx.bind session) idle
        simp only [Batch.groups] at ended
        simp only [runBatch, ended]
        exact ⟨by simp, fun row member new => absurd member new⟩

/-- A worker in the middle of a fill, on two clean drives. -/
def ownershipSession : Session where
  sessionId := "session"
  planId := "plan"
  approvedProposalId := "proposal"
  resumedFromSessionId := none
  controllerIdentity := "controller"
  workerIdentity := some "worker"
  state := .running
  boundPlannerRevision := 7
  fencingToken := 1
  heartbeatAt := some 10
  expiresAt := some 40
  terminalCode := none

def ownershipRules : FenceRules where
  unicode := Archive.asciiUnicode
  sha256 := id

def ownershipDrive (label : String) : FleetDrive where
  driveLabel := label
  fence :=
    { fsUuid := none, annexUuid := some label, serial := none, filesystemCapacityBytes := some 100,
      identityEpoch := 1
      identityFingerprint := some (ownershipRules.identityFingerprintV1 none (some label) none 100) }
  writeGeneration := 0
  writeAuthority := "dedicated"

def ownershipFleet : Fleet where
  sessions := SessionTable.write? [ownershipSession] |>.get (by decide +kernel)
  plannerRevision := 7
  drives := [ownershipDrive "a", ownershipDrive "b"]
  dirty := []
  anchors := []

/-- Every drive is present, and every observation proves its identity. -/
def ownershipWorld : BatchWorld where
  present := fun _ => true
  mutation := fun _ =>
    let observe (label : String) : Observation :=
      { identityProven := true, freeBytes := some 50, filesystemCapacity := some 100,
        fingerprint := (ownershipDrive label).fence.identityFingerprint, identityProof := "proof", fenceProof := "fence",
        refusalCode := none }
    { fencesFree := true, observe, observeAfter := observe, reconcile := fun _ => none, now := "now" }
  writes := fun _ => 1

theorem ownershipClaimed : Claimed ownershipSession 20 ownershipFleet :=
  ⟨by decide +kernel, rfl, rfl, by decide +kernel⟩

theorem ownershipUndisturbed (group : Option String × String) {labels : List String}
    (known : ∀ label ∈ labels, label = "a" ∨ label = "b") :
    Undisturbed ownershipRules ownershipFleet (ownershipWorld.mutation group) labels := by
  refine ⟨rfl, fun label member => ?_, fun _ _ => rfl⟩
  have proven : Fleet.requireIdentity ((ownershipWorld.mutation group).observe label)
      (ownershipDrive label).facts = .ok () := by
    simp [Fleet.requireIdentity, ownershipWorld, ownershipDrive, FleetDrive.facts, nonempty?, require]
  rcases known label member with rfl | rfl
  · exact ⟨ownershipDrive "a", by decide +kernel, by decide +kernel, .inl rfl, proven, proven⟩
  · exact ⟨ownershipDrive "b", by decide +kernel, by decide +kernel, .inl rfl, proven, proven⟩

/-- A fetch batch of the session is admitted. -/
theorem batch_admitted_fetch :
    Admitted ownershipSession ownershipFleet
        (runBatch ownershipRules (RunCtx.bind ownershipSession) ownershipFleet ownershipWorld
          (.fetch "b")) ∧ OwnsDirty ownershipRules ownershipFleet ownershipSession := by
  have undisturbed : BatchUndisturbed ownershipRules ownershipFleet ownershipWorld (.fetch "b") := by
    apply ownershipUndisturbed
    simp
  apply (batch_admitted_iff ownershipRules ownershipFleet ownershipSession 20 ownershipWorld (.fetch "b")
    ownershipClaimed undisturbed).mpr
  simp [Batch.groups]

/-- The drives of the batch are undisturbed, and still the live session refuses the mutation of its own
    replica task. -/
theorem replica_batch_refused :
    Claimed ownershipSession 20 ownershipFleet ∧
      BatchUndisturbed ownershipRules ownershipFleet ownershipWorld
        (.replica [⟨"requirement", "repo", some "a", "b"⟩]) ∧
      (runBatch ownershipRules (RunCtx.bind ownershipSession) ownershipFleet ownershipWorld
        (.replica [⟨"requirement", "repo", some "a", "b"⟩])).transactions =
          [some (.refusal "FILL_SESSION_ACTIVE")] ∧
      ¬(Admitted ownershipSession ownershipFleet
          (runBatch ownershipRules (RunCtx.bind ownershipSession) ownershipFleet ownershipWorld
            (.replica [⟨"requirement", "repo", some "a", "b"⟩])) ∧
        OwnsDirty ownershipRules ownershipFleet ownershipSession) := by
  have groups : replicaGroups [⟨"requirement", "repo", some "a", "b"⟩] = [(some "a", "b")] := by
    decide +kernel
  have refused : (runBatch ownershipRules (RunCtx.bind ownershipSession) ownershipFleet ownershipWorld
      (.replica [⟨"requirement", "repo", some "a", "b"⟩])).transactions =
        [some (.refusal "FILL_SESSION_ACTIVE")] := by
    decide +kernel
  refine ⟨ownershipClaimed, ?_, refused, fun admitted => ?_⟩
  · intro group member _
    rw [groups, List.mem_singleton] at member
    subst member
    apply ownershipUndisturbed
    simp
  · have accepted := admitted.1.accepted (some (.refusal "FILL_SESSION_ACTIVE"))
    rw [refused] at accepted
    cases accepted List.mem_cons_self

end Modelark.Execution
