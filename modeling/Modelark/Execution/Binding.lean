import Modelark.Execution.Moves

/-!
# The revision a session is bound to

A start binds the revision that its projection was computed at, and a live session stays bound to the
current revision, in the runs in which no graph write commits inside a start's reads and no claim
revives an ended session.
-/

namespace Modelark.Execution

open Library

variable {φ : Type*}

/-- A start between the first read of its projection and its transaction. -/
def Pending.midStart : Pending φ → Bool
  | .startProjecting _ _ observed => !observed.isEmpty
  | .startBound .. => true
  | _ => false

/-- A graph write changes the facts while another connection is in the middle of a start. -/
def Interferes (sys : System φ) : Nat × Action φ → Prop
  | (conn, .graphWriteCommit (.change _)) =>
      sys.pending conn = .graphWrite ∧ sys.catalog.sessions.liveExists = false ∧
        ∃ other, (sys.pending other).midStart = true
  | _ => False

/-- No connection is in the middle of an operation, and no session is live. -/
structure Quiet (sys : System φ) : Prop where
  idle : ∀ conn, sys.pending conn = .idle
  free : sys.controller = none
  ended : sys.catalog.sessions.liveExists = false

/-- A start that commits here binds the current revision, and every read that its projection was
    computed from saw the current facts and revision. -/
def BindsCurrent (sys : System φ) : Nat × Action φ → Prop
  | (conn, .startCommit sessionId controller expires fencesCurrent) =>
      ∀ proposal predecessor observed bound,
        sys.pending conn = .startBound proposal predecessor observed bound →
        (sys.startCommit conn sessionId controller expires fencesCurrent).2 = .committed →
          bound = sys.catalog.plannerRevision ∧
            (∀ seen ∈ observed, seen = (sys.catalog.facts, sys.catalog.plannerRevision)) ∧
            ∃ row ∈ (sys.step (conn, .startCommit sessionId controller expires
                fencesCurrent)).catalog.sessions.rows,
              row.sessionId = sessionId ∧ row.boundPlannerRevision = bound
  | _ => True

/-- Every live session is bound to the current revision. -/
def LiveBound (cat : Catalog φ) : Prop :=
  ∀ row ∈ cat.sessions.rows, row.live = true → row.boundPlannerRevision = cat.plannerRevision

/-- The facts have changed with the revision only, and starts and sessions are bound to it. -/
structure Coherent (sys : System φ) : Prop where
  locked : ∀ conn, (sys.pending conn).holdsController = true → sys.controller = some conn
  exclusive : ∀ conn, (sys.pending conn).exclusive = true → sys.catalog.sessions.liveExists = false
  observed : ∀ conn, ∀ seen ∈ (sys.pending conn).observed,
    seen = (sys.catalog.facts, sys.catalog.plannerRevision)
  bound : ∀ conn, ∀ revision ∈ (sys.pending conn).boundRevision,
    revision = sys.catalog.plannerRevision
  sessions : LiveBound sys.catalog

theorem Quiet.coherent {sys : System φ} (quiet : Quiet sys) : Coherent sys := by
  constructor
  · intro conn holds
    simp [quiet.idle conn, Pending.holdsController] at holds
  · intro conn _
    exact quiet.ended
  · intro conn seen member
    simp [quiet.idle conn, Pending.observed] at member
  · intro conn revision member
    simp [quiet.idle conn, Pending.boundRevision] at member
  · intro row member live
    rw [SessionTable.liveExists_eq_false.mp quiet.ended row member] at live
    cases live

namespace Pending

theorem holdsController_of_exclusive {pending : Pending φ} (exclusive : pending.exclusive = true) :
    pending.holdsController = true := by
  cases pending <;> simp_all [Pending.exclusive, Pending.holdsController]

theorem exclusive_of_observed {pending : Pending φ} {seen : φ × Nat}
    (member : seen ∈ pending.observed) : pending.exclusive = true ∧ pending.midStart = true := by
  cases pending with
  | startProjecting _ _ observed =>
      refine ⟨rfl, ?_⟩
      cases observed with
      | nil => cases member
      | cons => rfl
  | startBound => exact ⟨rfl, rfl⟩
  | _ => cases member

theorem exclusive_of_bound {pending : Pending φ} {revision : Nat}
    (member : revision ∈ pending.boundRevision) :
    pending.exclusive = true ∧ pending.midStart = true := by
  cases pending with
  | startBound => exact ⟨rfl, rfl⟩
  | _ => cases member

end Pending

namespace SessionTable

variable {table after : SessionTable} {matching : Session → Bool} {change : Session → Session}

/-- Every live row that a rewrite leaves was live before, under the same binding. -/
theorem live_update (updated : table.update matching change = some after)
    (rewrite : Rewrite table matching change) {row : Session} (member : row ∈ after.rows)
    (live : row.live = true) : ∃ before ∈ table.rows, before.live = true ∧
      row.boundPlannerRevision = before.boundPlannerRevision := by
  rw [rows_update updated] at member
  obtain ⟨before, member', rfl⟩ := List.mem_map.mp member
  refine ⟨before, member', ?_⟩
  split_ifs at live ⊢ with selected
  · exact ⟨rewrite.live before member' selected live, rewrite.bound before⟩
  · exact ⟨live, rfl⟩

end SessionTable

/-- A committed change leaves every live session bound to the revision it leaves. -/
theorem liveBound_commits {sys : System φ} {action : Nat × Action φ} {cat : Catalog φ}
    (commits : Commits sys action cat) (still : ¬Revives sys action) (coherent : Coherent sys) :
    LiveBound cat := by
  have idle (ended : sys.catalog.sessions.liveExists = false) {row : Session}
      (member : row ∈ sys.catalog.sessions.rows) (live : row.live = true) : False := by
    rw [SessionTable.liveExists_eq_false.mp ended row member] at live
    cases live
  cases commits with
  | nothing => exact coherent.sessions
  | sessions updated rewrite _ =>
      intro row member live
      obtain ⟨before, member', live', same⟩ :=
        SessionTable.live_update updated (rewrite.resolve_left still) member live
      rw [same]
      exact coherent.sessions before member' live'
  | @sessionWrite sessionId token holder f table _ _ found held alive updated =>
      intro row member live
      obtain ⟨memberHolder, same⟩ := SessionTable.find_eq_some.mp found
      simp only [SessionTable.rows_update updated] at member
      obtain ⟨before, member', rfl⟩ := List.mem_map.mp member
      split_ifs at live ⊢ with matched
      · rfl
      · -- a live row other than the writer's would be a second live session
        have one := SessionTable.eq_of_live member' memberHolder live alive
        exact absurd (by simp [one, same, held]) matched
  | graphWrite _ _ ended =>
      intro row member live
      exact (idle ended member live).elim
  | approve _ _ ended sessions _ =>
      intro row member live
      rw [sessions] at member
      exact (idle ended member live).elim
  | proposals _ revision sessions _ =>
      intro row member live
      rw [sessions] at member
      rw [revision]
      exact coherent.sessions row member live
  | start locked bound _ revision _ _ _ inserted sessions =>
      intro row member live
      rw [sessions, SessionTable.rows_insert inserted] at member
      rw [revision]
      rcases List.mem_append.mp member with old | new
      · exact coherent.sessions row old live
      · rw [List.mem_singleton.mp new]
        exact coherent.bound action.1 _ bound

/-- A committed change of another connection leaves a start without a live session, and what its
    projection has read current. -/
theorem window_commits {sys : System φ} {action : Nat × Action φ} {cat : Catalog φ}
    (commits : Commits sys action cat) (still : ¬Revives sys action)
    (apart : ¬Interferes sys action) (coherent : Coherent sys) {conn : Nat}
    (other : conn ≠ action.1) (exclusive : (sys.pending conn).exclusive = true) :
    cat.sessions.liveExists = false ∧ ((sys.pending conn).midStart = true →
      cat.facts = sys.catalog.facts ∧ cat.plannerRevision = sys.catalog.plannerRevision) := by
  have ended := coherent.exclusive conn exclusive
  have holder := coherent.locked conn (Pending.holdsController_of_exclusive exclusive)
  have unlocked : (sys.pending action.1).holdsController ≠ true := by
    intro holds
    have same := (coherent.locked action.1 holds).symm.trans holder
    exact other (Option.some.inj same).symm
  cases commits with
  | nothing => exact ⟨ended, fun _ => ⟨rfl, rfl⟩⟩
  | sessions updated rewrite _ =>
      refine ⟨SessionTable.liveExists_eq_false.mpr ?_, fun _ => ⟨rfl, rfl⟩⟩
      intro row member
      by_contra live
      obtain ⟨before, member', live', _⟩ := SessionTable.live_update updated
        (rewrite.resolve_left still) member (by simpa using live)
      rw [SessionTable.liveExists_eq_false.mp ended before member'] at live'
      cases live'
  | sessionWrite _ _ found _ live _ =>
      obtain ⟨member, _⟩ := SessionTable.find_eq_some.mp found
      rw [SessionTable.liveExists_eq_false.mp ended _ member] at live
      cases live
  | graphWrite change operation idle =>
      refine ⟨ended, fun middle => ?_⟩
      obtain ⟨writer, write⟩ := action
      cases change
      exact (apart ⟨operation, idle, conn, middle⟩).elim
  | approve locked => exact absurd locked unlocked
  | proposals facts revision sessions _ => exact ⟨by rw [sessions]; exact ended, fun _ => ⟨facts, revision⟩⟩
  | start locked => exact absurd (Pending.holdsController_of_exclusive locked) unlocked

namespace System

variable {sys : System φ} {conn : Nat} {next : Pending φ}

@[simp] theorem pending_setPending_self : (sys.setPending conn next).pending conn = next := by
  simp [setPending]

theorem pending_setPending {other : Nat} (apart : other ≠ conn) :
    (sys.setPending conn next).pending other = sys.pending other := by
  simp [setPending, apart]

@[simp] theorem catalog_setPending : (sys.setPending conn next).catalog = sys.catalog := rfl

/-- The lock stays with whoever is inside it. -/
theorem locked_setPending
    (locked : ∀ other, (sys.pending other).holdsController = true → sys.controller = some other)
    (taken : next.holdsController = true → sys.controller = none ∨ sys.controller = some conn)
    (other : Nat) (holds : ((sys.setPending conn next).pending other).holdsController = true) :
    (sys.setPending conn next).controller = some other := by
  by_cases same : other = conn
  · rw [same] at holds ⊢
    rw [pending_setPending_self] at holds
    simp [setPending, holds]
  · rw [pending_setPending same] at holds
    have holder := locked other holds
    have free : next.holdsController = false := by
      by_contra takes
      rcases taken (by simpa using takes) with none | mine
      · rw [none] at holder
        cases holder
      · exact same (Option.some.inj (holder.symm.trans mine))
    simp [setPending, free, holder, same]

end System

theorem coherent_step {sys : System φ} {action : Nat × Action φ} (still : ¬Revives sys action)
    (apart : ¬Interferes sys action) (coherent : Coherent sys) : Coherent (sys.step action) := by
  have moves := System.step_moves sys action
  generalize sys.step action = after at moves
  cases moves with
  | blocked => exact coherent
  | @onward next continues =>
      constructor
      · apply System.locked_setPending coherent.locked
        intro holds
        rcases continues.controller holds with free | held
        · exact free
        · exact .inr (coherent.locked action.1 held)
      · intro conn exclusive
        by_cases same : conn = action.1
        · rw [same, System.pending_setPending_self] at exclusive
          rcases continues.exclusive exclusive with ended | before
          · exact ended
          · exact coherent.exclusive action.1 before
        · rw [System.pending_setPending same] at exclusive
          exact coherent.exclusive conn exclusive
      · intro conn seen member
        by_cases same : conn = action.1
        · rw [same, System.pending_setPending_self] at member
          rcases continues.observed seen member with before | now
          · exact coherent.observed action.1 seen before
          · exact now
        · rw [System.pending_setPending same] at member
          exact coherent.observed conn seen member
      · intro conn revision member
        by_cases same : conn = action.1
        · rw [same, System.pending_setPending_self] at member
          exact continues.bound revision member
        · rw [System.pending_setPending same] at member
          exact coherent.bound conn revision member
      · exact coherent.sessions
  | @finished cat commits =>
      have elsewhere {conn : Nat} (same : conn ≠ action.1) :
          (({ sys with catalog := cat }.setPending action.1 .idle).pending conn) =
            sys.pending conn :=
        System.pending_setPending same
      constructor
      · apply System.locked_setPending coherent.locked
        intro holds
        cases holds
      · intro conn exclusive
        by_cases same : conn = action.1
        · rw [same, System.pending_setPending_self] at exclusive
          cases exclusive
        · rw [elsewhere same] at exclusive
          exact (window_commits commits still apart coherent same exclusive).1
      · intro conn seen member
        by_cases same : conn = action.1
        · rw [same, System.pending_setPending_self] at member
          cases member
        · rw [elsewhere same] at member
          obtain ⟨exclusive, middle⟩ := Pending.exclusive_of_observed member
          obtain ⟨facts, revision⟩ :=
            (window_commits commits still apart coherent same exclusive).2 middle
          rw [coherent.observed conn seen member]
          exact Prod.ext facts.symm revision.symm
      · intro conn revision member
        by_cases same : conn = action.1
        · rw [same, System.pending_setPending_self] at member
          cases member
        · rw [elsewhere same] at member
          obtain ⟨exclusive, middle⟩ := Pending.exclusive_of_bound member
          rw [coherent.bound conn revision member]
          exact ((window_commits commits still apart coherent same exclusive).2 middle).2.symm
      · exact liveBound_commits commits still coherent

theorem System.commitSessions_committed {sys : System φ} {conn : Nat} {cat : Catalog φ}
    {table : Option SessionTable} (committed : (sys.commitSessions conn cat table).2 = .committed) :
    ∃ after, table = some after ∧
      (sys.commitSessions conn cat table).1.catalog = { cat with sessions := after } := by
  cases table with
  | none => cases committed
  | some after => exact ⟨after, rfl, rfl⟩

/-- The row that a committed start inserts. -/
theorem row_of_startCommit {sys : System φ} {conn : Nat} {sessionId controller : String}
    {expires : Nat} {fencesCurrent : Bool} {proposal : Proposal} {predecessor : Option Session}
    {observed : List (φ × Nat)} {bound : Nat}
    (pending : sys.pending conn = .startBound proposal predecessor observed bound)
    (committed : (sys.startCommit conn sessionId controller expires fencesCurrent).2 = .committed) :
    ∃ row ∈ (sys.startCommit conn sessionId controller expires fencesCurrent).1.catalog.sessions.rows,
      row.sessionId = sessionId ∧ row.boundPlannerRevision = bound := by
  unfold System.startCommit at committed ⊢
  simp only [pending] at committed ⊢
  rcases selected : sys.catalog.selectedApproval (some proposal.proposalId) with _ | current
  · simp only [selected] at committed
    cases committed
  · simp only [selected] at committed ⊢
    split_ifs at committed ⊢ <;> try cases committed
    obtain ⟨after, inserted, catalog⟩ := System.commitSessions_committed committed
    simp only [catalog, SessionTable.rows_insert inserted, List.mem_append, List.mem_singleton]
    exact ⟨_, .inr rfl, rfl, rfl⟩

/-- Starts bind what they have read, and live sessions stay bound. -/
def Binds (start : System φ) (actions : List (Nat × Action φ)) : Prop :=
  (∀ before action later, actions = before ++ action :: later →
    BindsCurrent (run System.step start before) action) ∧
  ∀ before later, actions = before ++ later → LiveBound (run System.step start before).catalog

theorem Coherent.bindsCurrent {sys : System φ} (coherent : Coherent sys)
    (action : Nat × Action φ) : BindsCurrent sys action := by
  obtain ⟨conn, action⟩ := action
  cases action with
  | startCommit sessionId controller expires fencesCurrent =>
      intro proposal predecessor observed bound pending committed
      refine ⟨?_, ?_, row_of_startCommit pending committed⟩
      · apply coherent.bound conn
        simp [pending, Pending.boundRevision]
      · intro seen member
        apply coherent.observed conn
        simpa [pending, Pending.observed] using member
  | _ => trivial

/-- A run from a quiet catalog binds its sessions while no graph write commits inside a start's reads
    and no claim revives an ended session. -/
theorem binds_of_permitted (start : System φ) (actions : List (Nat × Action φ)) (quiet : Quiet start)
    (permitted : Permitted System.step
      (fun sys action => ¬Revives sys action ∧ ¬Interferes sys action) start actions) :
    Binds start actions := by
  have coherent (before later : List (Nat × Action φ)) (split : actions = before ++ later) :
      Coherent (run System.step start before) := by
    have preserved (sys : System φ) (action : Nat × Action φ)
        (allowed : ¬Revives sys action ∧ ¬Interferes sys action) :
        Coherent sys → Coherent (sys.step action) :=
      coherent_step allowed.1 allowed.2
    rw [split, permitted_append] at permitted
    exact run_invariant preserved permitted.1 quiet.coherent
  constructor
  · intro before action later split
    exact (coherent before _ split).bindsCurrent action
  · intro before later split
    exact (coherent before later split).sessions

/-- A start, its claim and one session write. -/
theorem binds_of_permitted_session : Quiet approvedCatalog ∧
    Binds approvedCatalog (startSteps "s1" ++ [(1, .claimRead "s1" 1 "worker" none), (1, .claimUpdate),
      (1, .sessionWriteRead "s1" 1), (1, .sessionWriteCommit (.change (· + 1)))]) := by
  have quiet : Quiet approvedCatalog := ⟨fun _ => rfl, rfl, rfl⟩
  refine ⟨quiet, binds_of_permitted _ _ quiet ?_⟩
  simp only [startSteps, List.cons_append, List.nil_append, permitted_cons]
  refine ⟨⟨id, id⟩, ⟨id, id⟩, ⟨id, id⟩, ⟨id, id⟩, ⟨id, id⟩, ⟨id, id⟩, ⟨id, id⟩, ⟨?_, id⟩,
    ⟨id, id⟩, ⟨id, id⟩, Permitted.nil⟩
  rintro ⟨_, _, _, _, _, _, ended, _⟩
  exact absurd ended (by decide +kernel)

/-- Connection 1 changes the facts between the projection of connection 0 and its insert: the session
    is bound to the revision before the change. -/
theorem start_binds_stale : Quiet approvedCatalog ∧ ¬Binds approvedCatalog
    [(0, .startSelect none), (0, .startLiveCheck), (0, .startPredecessor none), (0, .startObserve),
      (0, .startRevision), (1, .graphWriteCheck), (1, .graphWriteCommit (.change (· + 1))),
      (0, .startCommit "s1" "controller" 3600 true)] := by
  refine ⟨⟨fun _ => rfl, rfl, rfl⟩, fun binds => ?_⟩
  have bound := binds.2 _ [] (List.append_nil _).symm
  let stale : Session :=
    { sessionId := "s1", planId := "ark", approvedProposalId := "p1", resumedFromSessionId := none,
      controllerIdentity := "controller", workerIdentity := none, state := .starting,
      boundPlannerRevision := 1, fencingToken := 1, heartbeatAt := none, expiresAt := some 3600,
      terminalCode := none }
  have current := bound stale (by decide +kernel) rfl
  exact absurd current (by decide +kernel)

end Modelark.Execution
