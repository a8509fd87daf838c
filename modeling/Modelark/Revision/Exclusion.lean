import Modelark.Execution.Ownership
import Modelark.Execution.Terminal
import Modelark.Revision.Discipline

/-!
# One writer at a time

Sessions and every supported writer on one catalog. While a session is live, only its own writes revise,
and each session's fencing token is above all earlier ones. A session that has ended writes nothing any
more, unless a claim revives it.
-/

namespace Modelark.Revision

open Library Execution

/-- The part of the catalog of sessions and proposals that the writers work on. -/
def planner (cat : Execution.Catalog Tables) : Catalog where
  tables := cat.facts
  plannerRevision := cat.plannerRevision
  sessions := cat.sessions

def adopt (cat : Execution.Catalog Tables) (c : Catalog) : Execution.Catalog Tables :=
  { cat with facts := c.tables, plannerRevision := c.plannerRevision, sessions := c.sessions }

/-- A step of a connection's session or proposal operation, or a writer's transaction. The checks that a
    writer makes before its transaction are part of the argument or repeated inside. -/
inductive Operation where
  | control (conn : Nat) (action : Action Tables)
  | write (writer : Writer)

def transact (sys : System Tables) : Operation → System Tables
  | .control conn action => sys.step (conn, action)
  | .write writer => { sys with catalog := adopt sys.catalog ((planner sys.catalog).step writer) }

/-- The identity of a session context. -/
def sessionPair (sessionId : Option String) (fencingToken : Option Nat) : Option (String × Nat) :=
  sessionId.bind fun sessionId => fencingToken.map fun token => (sessionId, token)

/-- The session and the token under which a writer writes. -/
def Writer.owner : Writer → Option (String × Nat)
  | .enterMutation _ _ _ sessionId fencingToken _ => sessionPair sessionId fencingToken
  | .closeMutation _ sessionId fencingToken _ _ => sessionPair sessionId fencingToken
  | .transportWrite ctx _ => sessionPair ctx.sessionId ctx.fencingToken
  | .publish owner _ _ => owner
  | _ => none

/-- The session and the token of an operation's session write. -/
def Operation.presented (sys : System Tables) : Operation → Option (String × Nat)
  | .control conn (.sessionWriteCommit _) =>
      match sys.pending conn with
      | .sessionWrite sessionId token => some (sessionId, token)
      | _ => none
  | .control _ _ => none
  | .write writer => writer.owner

def Operation.Commits (sys : System Tables) : Operation → Prop
  | .control conn action => (sys.perform conn action).2 = .committed
  | .write writer => ∃ after, writer.perform (planner sys.catalog) = .ok after

/-- A revision while a session is live is a write of that session, with its current token. -/
def RevisesAlone (sys : System Tables) (operation : Operation) : Prop :=
  ∀ row ∈ sys.catalog.sessions.rows, row.live = true →
    (transact sys operation).catalog.plannerRevision ≠ sys.catalog.plannerRevision →
      operation.presented sys = some (row.sessionId, row.fencingToken)

/-- No write of a session commits when a session has a higher token. -/
def ShutsOut (sys : System Tables) (operation : Operation) : Prop :=
  ∀ older ∈ sys.catalog.sessions.rows, ∀ newer ∈ sys.catalog.sessions.rows,
    older.fencingToken < newer.fencingToken →
      operation.presented sys = some (older.sessionId, older.fencingToken) → ¬operation.Commits sys

/-- A claim makes an ended session live. -/
def Operation.Revives (sys : System Tables) : Operation → Prop
  | .control conn action => Execution.Revives sys (conn, action)
  | .write _ => False

/-- A committed transaction of a writer: it revises as a live session or while there is none, and leaves
    the sessions alone but for the binding of its own. -/
structure Turn (c after : Catalog) (owner : Option (String × Nat)) : Prop where
  holder : ∀ sessionId token, owner = some (sessionId, token) →
    ∃ row ∈ c.sessions.rows, row.live = true ∧ row.sessionId = sessionId ∧ row.fencingToken = token
  revision : after.plannerRevision = c.plannerRevision ∨ owner.isSome = true ∨
    c.sessions.liveExists = false
  sessions : after.sessions = c.sessions ∨ ∃ matching bound,
    c.sessions.update matching (fun row => { row with boundPlannerRevision := bound }) =
      some after.sessions

variable {c after : Catalog} {op : Body}

theorem Turn.of_kept (revision : after.plannerRevision = c.plannerRevision)
    (sessions : after.sessions = c.sessions) : Turn c after none where
  holder := nofun
  revision := .inl revision
  sessions := .inl sessions

theorem Turn.of_idle (idle : c.sessions.liveExists = false) (sessions : after.sessions = c.sessions) :
    Turn c after none where
  holder := nofun
  revision := .inr (.inr idle)
  sessions := .inl sessions

theorem graphWrite_turn (written : c.graphWrite op = .ok after) : Turn c after none := by
  simp only [Catalog.graphWrite, bind_eq_ok, require_eq_ok, Bool.not_eq_true'] at written
  obtain ⟨_, idle, ⟨tables, provenNoop⟩, _, committed⟩ := written
  apply Turn.of_idle idle
  cases provenNoop with
  | true =>
      cases committed
      rfl
  | false =>
      simp only [Bool.false_eq_true, if_false, bumpRevision_eq_ok] at committed
      rw [committed.2]

theorem sessionWrite_turn {sessionId : String} {token : Nat}
    (written : c.sessionWrite sessionId token op = .ok after) : Turn c after (some (sessionId, token)) := by
  unfold Catalog.sessionWrite at written
  rcases found : c.sessions.find sessionId with _ | row
  · simp [found] at written
  · simp only [found, bind_eq_ok, require_eq_ok, beq_iff_eq] at written
    obtain ⟨_, holder, _, live, ⟨tables, provenNoop⟩, _, committed⟩ := written
    obtain ⟨member, same⟩ := SessionTable.find_eq_some.mp found
    constructor
    · intro other otherToken presented
      cases presented
      exact ⟨row, member, live, same, holder⟩
    · exact .inr (.inl rfl)
    · cases provenNoop with
      | true =>
          cases committed
          exact .inl rfl
      | false =>
          simp only [Bool.false_eq_true, if_false, bind_eq_ok, bumpRevision_eq_ok] at committed
          obtain ⟨bumped, ⟨_, rfl⟩, rebound⟩ := committed
          split at rebound
          · cases rebound
          · rename_i updated
            cases rebound
            exact .inr ⟨_, _, updated⟩

theorem writeAs_turn {owner : Option (String × Nat)} (written : c.writeAs owner op = .ok after) :
    Turn c after owner := by
  rcases owner with _ | ⟨sessionId, token⟩
  · exact graphWrite_turn written
  · exact sessionWrite_turn written

theorem immediate_turn {body : Catalog → Except Failure Tables}
    (written : c.immediate body = .ok after) : Turn c after none := by
  simp only [Catalog.immediate, bind_eq_ok, bumpRevision_eq_ok, Bool.false_or,
    Bool.not_eq_true'] at written
  obtain ⟨tables, _, idle, rfl⟩ := written
  exact .of_idle idle rfl

/-- A transaction of a drive mutation, whose body leaves the sessions alone. -/
theorem onFleet_turn {α : Type} {owner : Option (String × Nat)}
    {body : Fleet → Except Refused (Fleet × α)}
    (keeps : ∀ written value, body c.fleet = .ok (written, value) → written.sessions = c.sessions)
    (written : c.onFleet (fun fleet => fleet.writeAs owner body) = .ok after) : Turn c after owner := by
  simp only [Catalog.onFleet, bind_eq_ok, lift_eq_ok] at written
  obtain ⟨⟨fleet, value⟩, performed, committed⟩ := written
  cases committed
  rcases owner with _ | ⟨sessionId, token⟩
  · simp only [Fleet.writeAs, Fleet.operatorWrite, Fleet.bumpRevision, bind_eq_ok, require_eq_ok,
      Bool.false_or, Bool.not_eq_true'] at performed
    obtain ⟨⟨written, value⟩, performed, _, ⟨_, idle, same⟩, committed⟩ := performed
    cases same
    cases committed
    have kept := keeps written _ performed
    rw [kept] at idle
    exact .of_idle idle kept
  · simp only [Fleet.writeAs, Fleet.sessionWrite] at performed
    rcases found : c.fleet.sessions.find sessionId with _ | row
    · simp [found] at performed
    · simp only [found, Fleet.bumpRevision, bind_eq_ok, require_eq_ok, beq_iff_eq] at performed
      obtain ⟨_, holder, _, live, ⟨written, value⟩, performed, _, ⟨_, _, same⟩, rebound⟩ := performed
      cases same
      split at rebound
      · cases rebound
      · rename_i updated
        cases rebound
        obtain ⟨member, same⟩ := SessionTable.find_eq_some.mp found
        constructor
        · intro other otherToken presented
          cases presented
          exact ⟨row, member, live, same, holder⟩
        · exact .inr (.inl rfl)
        · right
          rw [keeps written _ performed] at updated
          exact ⟨_, _, updated⟩

theorem anchorBody_sessions {fleet other : Fleet} {rules : FenceRules} {owner : Option (String × Nat)}
    {advanced : List (Captured × Nat)} {candidates : String → Observation} {now : String} {result : Unit}
    (written : fleet.anchorBody rules owner advanced candidates now = .ok (other, result)) :
    other.sessions = fleet.sessions := by
  simp only [Fleet.anchorBody, bind_eq_ok] at written
  obtain ⟨_, _, _, _, anchored, published, same⟩ := written
  cases same
  let kept (state : Fleet) : Prop := state.sessions = fleet.sessions
  apply thread_invariant kept _ published rfl
  intro state entry next _ stepped holds
  simp only [Fleet.publishAnchorLocked, bind_eq_ok, require_eq_ok] at stepped
  obtain ⟨drive, _, _, _, _, _, result⟩ := stepped
  cases result
  exact holds

/-- Both identity arguments of a session are given, or neither. -/
theorem sessionPair_eq {sessionId : Option String} {fencingToken : Option Nat}
    {owner : Option (String × Nat)} (pair : ownerPair sessionId fencingToken = .ok owner) :
    sessionPair sessionId fencingToken = owner := by
  cases sessionId <;> cases fencingToken <;> cases pair <;> rfl

theorem guarded_turn {workerIdle : Bool} (written : guarded workerIdle (·.graphWrite op) c = .ok after) :
    Turn c after none := by
  simp only [guarded, bind_eq_ok, require_eq_ok] at written
  obtain ⟨_, _, performed⟩ := written
  exact graphWrite_turn performed

theorem runExplicitDriveRepair_turn {u : Archive.Unicode} {supported : Check}
    {resolver : Option (Option HeadEvidence)} {identity : RepairIdentity} {report : RepairReport}
    (repaired : runExplicitDriveRepair u supported resolver identity c = .ok (after, report)) :
    Turn c after none := by
  simp only [runExplicitDriveRepair, bind_eq_ok, require_eq_ok] at repaired
  obtain ⟨_, _, _, _, repaired⟩ := repaired
  split at repaired
  · cases repaired
    exact .of_kept rfl rfl
  · cases repaired

theorem healReplica_turn {u : Archive.Unicode} {source target repoId rfilename : String}
    {result : HealResult}
    (healed : healReplicaArchivedFromSource u source target repoId rfilename c = .ok (after, result)) :
    Turn c after none := by
  unfold healReplicaArchivedFromSource at healed
  simp only at healed
  split at healed
  · cases healed
  · split at healed
    · cases healed
    · split at healed
      all_goals first
        | cases healed
        | (simp only [bind_eq_ok, require_eq_ok, pure_eq_ok, Prod.mk.injEq] at healed
           obtain ⟨_, _, rfl, _⟩ := healed)
      all_goals exact .of_kept rfl rfl

/-- Every supported transaction that commits. -/
theorem perform_turn {writer : Writer} (performed : writer.perform c = .ok after) :
    Turn c after writer.owner := by
  cases writer with
  | create | bootstrap | replaceFiles | applyMetadataClassification | abortUnfinished | publishKey
  | addDrive | removeDrive =>
      simp only [Writer.perform, Revision.create, Revision.bootstrap, Revision.replaceFiles,
        Revision.applyMetadataClassification, Revision.abortUnfinished, Revision.publishKey,
        Revision.addDrive, Revision.removeDrive] at performed
      exact graphWrite_turn performed
  | registerDrive | registerNas | registerNewIdentity => exact graphWrite_turn performed
  | setActive planId =>
      simp only [Writer.perform, Revision.setActive, bind_eq_ok, require_eq_ok] at performed
      obtain ⟨_, _, _, _, performed⟩ := performed
      split at performed
      · cases performed
        exact .of_kept rfl rfl
      · exact graphWrite_turn performed
  | setCapacityMode planId mode =>
      simp only [Writer.perform, Revision.setCapacityMode, bind_eq_ok, require_eq_ok] at performed
      obtain ⟨_, _, performed⟩ := performed
      exact graphWrite_turn performed
  | protect repoIds numcopies =>
      simp only [Writer.perform, Revision.protect, bind_eq_ok, require_eq_ok] at performed
      obtain ⟨_, _, performed⟩ := performed
      exact graphWrite_turn performed
  | toggle workerIdle repoId on =>
      simp only [Writer.perform, Revision.toggle] at performed
      split at performed
      · exact graphWrite_turn performed
      · exact guarded_turn performed
  | bulk hash workerIdle repoIds on bound =>
      simp only [Writer.perform, Revision.bulk] at performed
      split at performed
      · exact graphWrite_turn performed
      · split at performed
        · exact guarded_turn performed
        · exact guarded_turn performed
        · cases performed
  | clear | finalize => exact guarded_turn performed
  | discoverOne repoId answer =>
      simp only [Writer.perform, Revision.discoverOne, bind_eq_ok, require_eq_ok] at performed
      obtain ⟨_, _, performed⟩ := performed
      cases answer with
      | gated => exact graphWrite_turn performed
      | absent =>
          cases performed
          exact .of_kept rfl rfl
      | info rows => exact graphWrite_turn performed
  | declareLost unpublished held driveLabel expected confirmation =>
      simp only [Writer.perform, Revision.declareLost, bind_eq_ok, require_eq_ok] at performed
      obtain ⟨_, _, performed⟩ := performed
      exact graphWrite_turn performed
  | bootstrapped | epochAdvanced | refreshed | recovered | serialEnrich | publishCleanAnchor
  | approve =>
      simp only [Writer.perform, Revision.bootstrapped, Revision.epochAdvanced, Revision.refreshed,
        Revision.publishCleanAnchor, Revision.recovered, Revision.serialEnrich, Revision.approve]
        at performed
      exact immediate_turn performed
  | beginGeneration label operationCode epoch =>
      simp only [Writer.perform, Catalog.onFleet, bind_eq_ok, lift_eq_ok, Fleet.beginGeneration,
        require_eq_ok] at performed
      obtain ⟨begun, ⟨_, _, _, _, written⟩, committed⟩ := performed
      have adapter : c.onFleet (fun fleet => fleet.writeAs none
          fun current => current.advanceOne label operationCode none none) = .ok after := by
        simp only [Catalog.onFleet, bind_eq_ok, lift_eq_ok]
        exact ⟨begun, written, committed⟩
      exact onFleet_turn (fun _ _ advanced => (Fleet.advanceOne_spec advanced).1) adapter
  | enterMutation rules labels code sessionId token world =>
      simp only [Writer.perform, Catalog.onFleet, bind_eq_ok, lift_eq_ok, Fleet.enter] at performed
      obtain ⟨entered, ⟨owner, pair, captured, _, _, _, _, _, _, _, written⟩, committed⟩ := performed
      rw [Writer.owner, sessionPair_eq pair]
      have adapter : c.onFleet (fun fleet => fleet.writeAs owner
          fun current => current.dirtyBody rules code owner captured) = .ok after := by
        simp only [Catalog.onFleet, bind_eq_ok, lift_eq_ok]
        exact ⟨entered, written, committed⟩
      exact onFleet_turn (fun _ _ dirtied => (Fleet.dirtyBody_spec dirtied).1) adapter
  | closeMutation rules sessionId token world advanced =>
      simp only [Writer.perform, Catalog.onFleet, bind_eq_ok, lift_eq_ok, Fleet.close] at performed
      obtain ⟨closed, ⟨owner, pair, _, _, written⟩, committed⟩ := performed
      rw [Writer.owner, sessionPair_eq pair]
      have adapter : c.onFleet (fun fleet => fleet.writeAs owner fun current =>
          current.anchorBody rules owner advanced world.observeAfter world.now) = .ok after := by
        simp only [Catalog.onFleet, bind_eq_ok, lift_eq_ok]
        exact ⟨closed, written, committed⟩
      exact onFleet_turn (fun _ _ anchored => anchorBody_sessions anchored) adapter
  | repairHashes u supported head scope =>
      simp only [Writer.perform, Revision.repairHashes, bind_eq_ok, require_eq_ok] at performed
      obtain ⟨_, _, _, _, report, _, _, _, performed⟩ := performed
      split at performed
      · cases performed
        exact .of_kept rfl rfl
      · exact immediate_turn performed
  | runExplicitDriveRepair u supported resolver identity =>
      simp only [Writer.perform] at performed
      rcases repaired : Revision.runExplicitDriveRepair u supported resolver identity c with
        refused | ⟨committed, report⟩
      · simp [repaired, Except.map] at performed
      · simp only [repaired, Except.map, Except.ok.injEq] at performed
        subst performed
        exact runExplicitDriveRepair_turn repaired
  | healReplica u source target repoId rfilename =>
      simp only [Writer.perform] at performed
      rcases healed : healReplicaArchivedFromSource u source target repoId rfilename c with
        refused | ⟨committed, result⟩
      · simp [healed, Except.map] at performed
      · simp only [healed, Except.map, Except.ok.injEq] at performed
        subst performed
        exact healReplica_turn healed
  | transportWrite => exact writeAs_turn performed
  | archiveModel =>
      cases performed
      exact .of_kept rfl rfl
  | publish => exact writeAs_turn performed

/-- Sessions stand in the order of their starts: each token is above all earlier ones. -/
structure Numbered (cat : Execution.Catalog Tables) : Prop where
  rising : (cat.sessions.rows.map Session.fencingToken).Pairwise (· < ·)
  issued : ∀ row ∈ cat.sessions.rows, row.fencingToken ≤ cat.nextFencingToken

/-- A session with a higher token has ended all others. -/
def LatestOnly (table : SessionTable) : Prop :=
  ∀ older ∈ table.rows, ∀ newer ∈ table.rows,
    older.fencingToken < newer.fencingToken → older.live = false

section Rows

variable {table next : SessionTable} {matching : Session → Bool} {change : Session → Session}

theorem tokens_update (updated : table.update matching change = some next)
    (tokens : ∀ row, (change row).fencingToken = row.fencingToken) :
    next.rows.map Session.fencingToken = table.rows.map Session.fencingToken := by
  rw [SessionTable.rows_update updated, List.map_map]
  apply List.map_congr_left
  intro row _
  simp only [Function.comp]
  split_ifs <;> simp [tokens]

theorem numbered_of_tokens {cat other : Execution.Catalog Tables} (numbered : Numbered cat)
    (same : other.sessions.rows.map Session.fencingToken = cat.sessions.rows.map Session.fencingToken)
    (issued : cat.nextFencingToken = other.nextFencingToken) : Numbered other := by
  constructor
  · rw [same]
    exact numbered.rising
  · intro row member
    have listed : row.fencingToken ∈ cat.sessions.rows.map Session.fencingToken := by
      rw [← same]
      exact List.mem_map_of_mem member
    obtain ⟨before, member', token⟩ := List.mem_map.mp listed
    rw [← token, ← issued]
    exact numbered.issued before member'

/-- A change that makes no row live leaves only the latest session live. -/
theorem latestOnly_update (updated : table.update matching change = some next)
    (tokens : ∀ row, (change row).fencingToken = row.fencingToken)
    (live : ∀ row ∈ table.rows, matching row = true → (change row).live = true → row.live = true)
    (latest : LatestOnly table) : LatestOnly next := by
  have image (row : Session) (member : row ∈ next.rows) : ∃ before ∈ table.rows,
      row.fencingToken = before.fencingToken ∧ (row.live = true → before.live = true) := by
    rw [SessionTable.rows_update updated] at member
    obtain ⟨before, member', rfl⟩ := List.mem_map.mp member
    refine ⟨before, member', ?_⟩
    split_ifs with selected
    · exact ⟨tokens before, live before member' selected⟩
    · exact ⟨rfl, id⟩
  intro older member newer member' below
  obtain ⟨first, firstMember, firstToken, firstLive⟩ := image older member
  obtain ⟨second, secondMember, secondToken, _⟩ := image newer member'
  rw [firstToken, secondToken] at below
  have ended := latest first firstMember second secondMember below
  by_contra alive
  have alive : older.live = true := by simpa using alive
  rw [firstLive alive] at ended
  cases ended

theorem latestOnly_insert {row : Session} (inserted : table.insert row = some next)
    (idle : table.liveExists = false) (top : ∀ other ∈ table.rows, other.fencingToken ≤ row.fencingToken) :
    LatestOnly next := by
  intro older member newer member' below
  rw [SessionTable.rows_insert inserted, List.mem_append, List.mem_singleton] at member member'
  rcases member with old | rfl
  · exact SessionTable.liveExists_eq_false.mp idle older old
  · exfalso
    rcases member' with old | rfl
    · have := top newer old
      omega
    · omega

end Rows

variable {sys : System Tables} {operation : Operation}

theorem step_eq_or (c : Catalog) (writer : Writer) : c.step writer = c ∨ writer.perform c = .ok (c.step writer) := by
  unfold Catalog.step
  cases writer.perform c with
  | error refused => exact .inl rfl
  | ok after => exact .inr rfl

theorem numbered_commit {conn : Nat} {action : Action Tables} {cat : Execution.Catalog Tables}
    (commits : Execution.Commits sys (conn, action) cat) (numbered : Numbered sys.catalog) :
    Numbered cat := by
  cases commits with
  | nothing => exact numbered
  | sessions updated _ tokens => exact numbered_of_tokens numbered (tokens_update updated tokens) rfl
  | sessionWrite _ _ _ _ _ updated =>
      exact numbered_of_tokens numbered (tokens_update updated fun _ => rfl) rfl
  | graphWrite => exact ⟨numbered.rising, numbered.issued⟩
  | approve _ _ _ sessions tokens | proposals _ _ sessions tokens =>
      exact numbered_of_tokens numbered (by rw [sessions]) tokens.symm
  | @start _ row table _ _ _ _ _ fresh tokens inserted sessions =>
      have below : ∀ other ∈ sys.catalog.sessions.rows, other.fencingToken < row.fencingToken :=
        fun other member => lt_of_le_of_lt (numbered.issued other member) fresh
      constructor
      · rw [sessions, SessionTable.rows_insert inserted, List.map_append, List.pairwise_append]
        refine ⟨numbered.rising, by simp, ?_⟩
        intro token member last only
        obtain ⟨other, member', rfl⟩ := List.mem_map.mp member
        rw [List.map_singleton, List.mem_singleton] at only
        rw [only]
        exact below other member'
      · intro other member
        rw [sessions, SessionTable.rows_insert inserted, List.mem_append, List.mem_singleton] at member
        rw [tokens]
        rcases member with old | rfl
        · exact (below other old).le
        · exact le_refl _

theorem numbered_transact (numbered : Numbered sys.catalog) :
    Numbered (transact sys operation).catalog := by
  cases operation with
  | control conn action =>
      have moves := System.step_moves sys (conn, action)
      simp only [transact]
      generalize sys.step (conn, action) = next at moves
      cases moves with
      | blocked => exact numbered
      | onward => exact numbered
      | finished commits => exact numbered_commit commits numbered
  | write writer =>
      rcases step_eq_or (planner sys.catalog) writer with same | performed
      · simp only [transact, same]
        exact numbered
      · have same : (transact sys (.write writer)).catalog.sessions.rows.map Session.fencingToken =
            sys.catalog.sessions.rows.map Session.fencingToken := by
          rcases (perform_turn performed).sessions with same | ⟨matching, bound, updated⟩
          · simp only [transact, adopt, same]
            rfl
          · exact tokens_update updated fun _ => rfl
        exact numbered_of_tokens numbered same rfl

theorem latestOnly_transact (numbered : Numbered sys.catalog) (still : ¬operation.Revives sys)
    (latest : LatestOnly sys.catalog.sessions) :
    LatestOnly (transact sys operation).catalog.sessions := by
  cases operation with
  | control conn action =>
      have moves := System.step_moves sys (conn, action)
      simp only [transact]
      generalize sys.step (conn, action) = next at moves
      cases moves with
      | blocked => exact latest
      | onward => exact latest
      | finished commits =>
          simp only [System.setPending]
          cases commits with
          | nothing => exact latest
          | sessions updated rewrite tokens =>
              exact latestOnly_update updated tokens (rewrite.resolve_left still).live latest
          | sessionWrite _ _ _ _ _ updated =>
              exact latestOnly_update updated (fun _ => rfl) (fun _ _ _ live => live) latest
          | graphWrite => exact latest
          | approve _ _ _ sessions _ | proposals _ _ sessions _ =>
              rw [sessions]
              exact latest
          | start _ _ _ _ idle fresh _ inserted sessions =>
              rw [sessions]
              apply latestOnly_insert inserted idle
              intro other member
              exact (lt_of_le_of_lt (numbered.issued other member) fresh).le
  | write writer =>
      rcases step_eq_or (planner sys.catalog) writer with same | performed
      · simp only [transact, same]
        exact latest
      · rcases (perform_turn performed).sessions with same | ⟨matching, bound, updated⟩
        · simp only [transact, adopt, same]
          exact latest
        · exact latestOnly_update updated (fun _ => rfl) (fun _ _ _ live => live) latest

theorem revisesAlone (sys : System Tables) (operation : Operation) : RevisesAlone sys operation := by
  intro row member live revised
  -- no session is live, or the writer has found its own row live
  have busy : ¬sys.catalog.sessions.liveExists = false := by
    intro idle
    rw [SessionTable.liveExists_eq_false.mp idle row member] at live
    cases live
  cases operation with
  | control conn action =>
      have moves := System.step_moves sys (conn, action)
      simp only [transact] at revised
      generalize sys.step (conn, action) = next at moves revised
      cases moves with
      | blocked => exact absurd rfl revised
      | onward => exact absurd rfl revised
      | finished commits =>
          simp only [System.setPending] at revised
          cases commits with
          | nothing => exact absurd rfl revised
          | sessions => exact absurd rfl revised
          | @sessionWrite sessionId token holder f table change pending found same alive updated =>
              obtain ⟨member', id⟩ := SessionTable.find_eq_some.mp found
              obtain rfl := SessionTable.eq_of_live member member' live alive
              simp only at change pending
              simp [Operation.presented, change, pending, id, same]
          | graphWrite _ _ idle => exact absurd idle busy
          | approve _ _ idle => exact absurd idle busy
          | proposals _ same => exact absurd same revised
          | start _ _ _ same => exact absurd same revised
  | write writer =>
      rcases step_eq_or (planner sys.catalog) writer with same | performed
      · simp only [transact, same] at revised
        exact absurd rfl revised
      · have turn := perform_turn performed
        rcases turn.revision with same | owned | idle
        · exact absurd same revised
        · obtain ⟨⟨sessionId, token⟩, owner⟩ := Option.isSome_iff_exists.mp owned
          obtain ⟨holder, member', alive, id, same⟩ := turn.holder sessionId token owner
          obtain rfl := SessionTable.eq_of_live member member' live alive
          rw [Operation.presented, owner, id, same]
        · exact absurd idle busy

/-- A write that a session presents commits only while the session is live. -/
theorem live_of_commits {sessionId : String} {token : Nat}
    (presented : operation.presented sys = some (sessionId, token)) (commits : operation.Commits sys) :
    ∃ row ∈ sys.catalog.sessions.rows, row.sessionId = sessionId ∧ row.live = true := by
  cases operation with
  | control conn action =>
      cases action with
      | sessionWriteCommit op =>
          simp only [Operation.presented] at presented
          split at presented
          · rename_i pending
            cases presented
            exact live_of_sessionWriteCommit pending commits
          · cases presented
      | _ => cases presented
  | write writer =>
      obtain ⟨after, performed⟩ := commits
      obtain ⟨row, member, live, id, _⟩ := (perform_turn performed).holder sessionId token presented
      exact ⟨row, member, id, live⟩

theorem shutsOut (latest : LatestOnly sys.catalog.sessions) : ShutsOut sys operation := by
  intro older member newer member' below presented commits
  obtain ⟨row, rowMember, id, live⟩ := live_of_commits presented commits
  obtain rfl := SessionTable.eq_of_id rowMember member id
  rw [latest row member newer member' below] at live
  cases live

/-- In every interleaving from a catalog without sessions at most one session is live, revisions while it
    is live are its own, and tokens rise from session to session; where no claim revives an ended
    session, the holder of an older token writes nothing any more. -/
theorem one_writer (start : System Tables) (fresh : start.catalog.sessions.rows = [])
    (operations : List Operation) :
    (∀ before, before <+: operations →
      ((run transact start before).catalog.sessions.rows.filter Session.live).length ≤ 1 ∧
        ((run transact start before).catalog.sessions.rows.map Session.fencingToken).Pairwise (· < ·)) ∧
    Permitted transact RevisesAlone start operations ∧
    (Permitted transact (fun sys operation => ¬operation.Revives sys) start operations →
      Permitted transact ShutsOut start operations) := by
  have numbered (operations : List Operation) : Numbered (run transact start operations).catalog := by
    apply run_invariant_always (fun sys : System Tables => Numbered sys.catalog)
    · intro sys operation
      exact numbered_transact
    · constructor <;> simp [fresh]
  refine ⟨fun before _ => ?_, fun before operation _ _ => revisesAlone _ operation, ?_⟩
  · exact ⟨(run transact start before).catalog.sessions.oneLive, (numbered before).rising⟩
  · intro still before operation later split
    rw [split, permitted_append] at still
    apply shutsOut
    let inv (sys : System Tables) : Prop := Numbered sys.catalog ∧ LatestOnly sys.catalog.sessions
    have preserved (sys : System Tables) (operation : Operation) (still : ¬operation.Revives sys)
        (holds : inv sys) : inv (transact sys operation) :=
      ⟨numbered_transact holds.1, latestOnly_transact holds.1 still holds.2⟩
    have kept := run_invariant preserved still.1 ⟨numbered [], by
      intro older member
      simp [fresh] at member⟩
    exact kept.2

/-- A run without the updates of claims revives no session. -/
theorem unrevived_of_claimless {start : System Tables} {operations : List Operation}
    (claimless : ∀ conn, Operation.control conn .claimUpdate ∉ operations) :
    Permitted transact (fun sys operation => ¬operation.Revives sys) start operations := by
  intro before operation later split revives
  have member : operation ∈ operations := by simp [split]
  cases operation with
  | control conn action =>
      cases action with
      | claimUpdate => exact claimless conn member
      | _ => cases revives
  | write => cases revives

/-- A catalog with one approved proposal, before its first session. -/
def approvedSystem : System Tables where
  catalog :=
    { facts := mirroredCatalog.tables, plannerRevision := 1, nextFencingToken := 0,
      activeApprovedProposalId := some "p1",
      proposals := [⟨"p1", "ark", .approved, 0, true⟩],
      sessions := .empty }
  pending := fun _ => .idle
  controller := none

def startOf (conn : Nat) (sessionId : String) : List Operation :=
  [.startSelect none, .startLiveCheck, .startPredecessor none, .startObserve, .startRevision,
    .startCommit sessionId "controller" 3600 true].map (Operation.control conn)

/-- Two sessions in turn: the operator's generation is refused while the first is live, and the first
    one's worker is refused once the second has started. -/
def twoSessions : List Operation :=
  startOf 0 "s1" ++
    [.control 1 (.sessionWriteRead "s1" 1), .write (.beginGeneration "a" "begin" none),
      .control 0 (.terminalizeRead "s1" 1 .stopped none), .control 0 .terminalizeUpdate] ++
    startOf 0 "s2" ++ [.control 1 (.sessionWriteCommit (.change id))]

theorem one_writer_twoSessions :
    (run transact approvedSystem twoSessions).catalog.sessions.rows.map
        (fun row => (row.sessionId, row.fencingToken, row.live)) = [("s1", 1, false), ("s2", 2, true)] ∧
      (run transact approvedSystem twoSessions).catalog.plannerRevision = 1 ∧
      Permitted transact ShutsOut approvedSystem twoSessions := by
  refine ⟨by decide +kernel, by decide +kernel, ?_⟩
  apply (one_writer approvedSystem rfl twoSessions).2.2
  apply unrevived_of_claimless
  intro conn member
  simp [twoSessions, startOf] at member

end Modelark.Revision
