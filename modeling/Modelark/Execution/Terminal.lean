import Modelark.Execution.Moves

/-!
# Terminal sessions

A session that has ended stays ended in exactly the runs in which no claim revives it.
-/

namespace Modelark.Execution

open Library

variable {φ : Type*}

/-- The step is the write of a session write or a heartbeat with this session and its token. -/
def Presents (sys : System φ) (row : Session) : Nat × Action φ → Prop
  | (conn, .sessionWriteCommit _) =>
      sys.pending conn = .sessionWrite row.sessionId row.fencingToken
  | (conn, .heartbeatUpdate _) =>
      ∃ worker expires, sys.pending conn = .heartbeat row.sessionId row.fencingToken worker expires
  | _ => False

/-- Wherever a run finds a session ended, it is not live in any later state, and no later write of a
    session write or a heartbeat with its token succeeds. -/
def StaysTerminal (start : System φ) (actions : List (Nat × Action φ)) : Prop :=
  ∀ before later, actions = before ++ later →
    ∀ row ∈ (run System.step start before).catalog.sessions.rows, row.live = false →
      (∀ middle rest, later = middle ++ rest →
        ∀ after ∈ (run System.step start (before ++ middle)).catalog.sessions.rows,
          after.sessionId = row.sessionId → after.live = false) ∧
      (∀ middle action rest, later = middle ++ action :: rest →
        Presents (run System.step start (before ++ middle)) row action →
          ((run System.step start (before ++ middle)).perform action.1 action.2).2 ≠ .committed)

/-- The session has ended. -/
def Ended (sessionId : String) (token : Nat) (sys : System φ) : Prop :=
  ∃ row ∈ sys.catalog.sessions.rows,
    row.matching sessionId token = true ∧ row.live = false

namespace SessionTable

variable {table after : SessionTable} {matching : Session → Bool} {change : Session → Session}
  {sessionId : String} {token : Nat}

/-- A rewrite keeps an ended session ended. -/
theorem ended_update (updated : table.update matching change = some after)
    (rewrite : Rewrite table matching change)
    (ended : ∃ row ∈ table.rows, row.matching sessionId token = true ∧ row.live = false) :
    ∃ row ∈ after.rows, row.matching sessionId token = true ∧ row.live = false := by
  obtain ⟨row, member, matched, dead⟩ := ended
  rw [rows_update updated]
  refine ⟨_, List.mem_map.mpr ⟨row, member, rfl⟩, ?_⟩
  split_ifs with selected
  · constructor
    · simpa [rewrite.sessionId, rewrite.fencingToken] using matched
    · by_contra live
      have alive := rewrite.live row member selected (by simpa using live)
      rw [alive] at dead
      cases dead
  · exact ⟨matched, dead⟩

end SessionTable

theorem ended_catalog {sys : System φ} {action : Nat × Action φ} {cat : Catalog φ}
    {sessionId : String} {token : Nat} (commits : Commits sys action cat)
    (still : ¬Revives sys action)
    (ended : ∃ row ∈ sys.catalog.sessions.rows,
      row.matching sessionId token = true ∧ row.live = false) :
    ∃ row ∈ cat.sessions.rows, row.matching sessionId token = true ∧ row.live = false := by
  cases commits with
  | nothing => exact ended
  | sessions updated rewrite _ =>
      exact SessionTable.ended_update updated (rewrite.resolve_left still) ended
  | @sessionWrite written token' holder f table _ _ found held live updated =>
      obtain ⟨row, member, matched, dead⟩ := ended
      rw [SessionTable.rows_update updated]
      refine ⟨_, List.mem_map.mpr ⟨row, member, rfl⟩, ?_⟩
      split_ifs
      · exact ⟨by simpa using matched, dead⟩
      · exact ⟨matched, dead⟩
  | graphWrite => exact ended
  | approve _ _ _ sessions _ => rwa [sessions]
  | proposals _ _ sessions _ => rwa [sessions]
  | start _ _ _ _ _ _ _ inserted sessions =>
      obtain ⟨row, member, rest⟩ := ended
      rw [sessions, SessionTable.rows_insert inserted]
      exact ⟨row, List.mem_append_left _ member, rest⟩

theorem ended_step {sys : System φ} {action : Nat × Action φ} {sessionId : String} {token : Nat}
    (still : ¬Revives sys action) (ended : Ended sessionId token sys) :
    Ended sessionId token (sys.step action) := by
  have moves := System.step_moves sys action
  generalize sys.step action = next at moves
  cases moves with
  | blocked => exact ended
  | onward => exact ended
  | finished commits => exact ended_catalog commits still ended

/-- An ended session is the only row of its identifier, so no row of it is live. -/
theorem Ended.not_live {sys : System φ} {row : Session}
    (ended : Ended row.sessionId row.fencingToken sys) {after : Session}
    (member : after ∈ sys.catalog.sessions.rows) (same : after.sessionId = row.sessionId) :
    after.live = false := by
  obtain ⟨other, member', matched, dead⟩ := ended
  have matched := (Session.matching_iff.mp matched).1
  rw [SessionTable.eq_of_id member member' (same.trans matched.symm)]
  exact dead

theorem live_of_sessionWriteCommit {sys : System φ} {conn : Nat} {sessionId : String} {token : Nat}
    {op : GraphOp φ} (pending : sys.pending conn = .sessionWrite sessionId token)
    (committed : (sys.sessionWriteCommit conn op).2 = .committed) :
    ∃ row ∈ sys.catalog.sessions.rows, row.sessionId = sessionId ∧ row.live = true := by
  unfold System.sessionWriteCommit at committed
  simp only [pending] at committed
  rcases found : sys.catalog.sessions.find sessionId with _ | row <;> rw [found] at committed
  · cases committed
  · simp only at committed
    split_ifs at committed with lost
    · cases committed
    · obtain ⟨member, same⟩ := SessionTable.find_eq_some.mp found
      simp only [not_or, not_not] at lost
      exact ⟨row, member, same, lost.2⟩

theorem live_of_heartbeatUpdate {sys : System φ} {conn now : Nat} {sessionId worker : String}
    {token expires : Nat} (pending : sys.pending conn = .heartbeat sessionId token worker expires)
    (committed : (sys.heartbeatUpdate conn now).2 = .committed) :
    ∃ row ∈ sys.catalog.sessions.rows, row.sessionId = sessionId ∧ row.live = true := by
  unfold System.heartbeatUpdate at committed
  rw [pending] at committed
  simp only at committed
  split_ifs at committed with missed
  · cases committed
  · obtain ⟨row, member, selected⟩ := List.countP_pos_iff.mp (Nat.pos_of_ne_zero missed)
    simp only [decide_eq_true_eq, Session.matching_iff] at selected
    obtain ⟨⟨same, _⟩, _, state⟩ := selected
    refine ⟨row, member, same, ?_⟩
    rcases state with state | state <;> simp [Session.live, state, SessionState.live]

/-- No session write and no heartbeat succeeds for an ended session. -/
theorem Ended.refused {sys : System φ} {row : Session} {action : Nat × Action φ}
    (ended : Ended row.sessionId row.fencingToken sys) (presents : Presents sys row action) :
    (sys.perform action.1 action.2).2 ≠ .committed := by
  intro committed
  have alive : ∃ after ∈ sys.catalog.sessions.rows,
      after.sessionId = row.sessionId ∧ after.live = true := by
    obtain ⟨conn, action⟩ := action
    cases action with
    | sessionWriteCommit op => exact live_of_sessionWriteCommit presents committed
    | heartbeatUpdate now =>
        obtain ⟨worker, expires, pending⟩ := presents
        exact live_of_heartbeatUpdate pending committed
    | _ => cases presents
  obtain ⟨after, member, same, live⟩ := alive
  rw [ended.not_live member same] at live
  cases live

/-- The update of a reviving claim is accepted by the table. -/
theorem update_of_revives {table : SessionTable} (sessionId controller : String) (token : Nat)
    {worker : String} (named : nonblank worker = true) (idle : table.liveExists = false) :
    ∃ after, table.update (Session.matching sessionId token) (Session.claimed worker controller) =
      some after := by
  rw [SessionTable.liveExists_eq_false] at idle
  unfold SessionTable.update SessionTable.write?
  set rewritten := table.rows.map fun row =>
    if row.matching sessionId token then row.claimed worker controller else row with shape
  have ids : rewritten.map Session.sessionId = table.rows.map Session.sessionId := by
    rw [shape, List.map_map]
    apply List.map_congr_left
    intro row _
    simp only [Function.comp]
    split_ifs <;> rfl
  have unique : (rewritten.map Session.sessionId).Nodup := by
    rw [ids]
    exact table.uniqueIds
  have oneLive : (rewritten.filter Session.live).length ≤ 1 := by
    -- only the claimed row can be live, and identifiers are distinct
    have claimedOnly : ∀ row ∈ rewritten.filter Session.live, row.sessionId = sessionId := by
      intro row member
      obtain ⟨member, live⟩ := List.mem_filter.mp member
      obtain ⟨old, memberOld, rfl⟩ := List.mem_map.mp member
      split_ifs at live ⊢ with matched
      · exact (Session.matching_iff.mp matched).1
      · rw [idle old memberOld] at live
        cases live
    have nodup : ((rewritten.filter Session.live).map Session.sessionId).Nodup :=
      unique.sublist (List.filter_sublist.map _)
    have within : ((rewritten.filter Session.live).map Session.sessionId) ⊆ [sessionId] := by
      intro id member
      obtain ⟨row, chosen, rfl⟩ := List.mem_map.mp member
      exact List.mem_singleton.mpr (claimedOnly row chosen)
    simpa using nodup.length_le_of_subset within
  have checked : rewritten.all Session.wellFormed = true := by
    rw [List.all_eq_true]
    intro row member
    obtain ⟨old, memberOld, rfl⟩ := List.mem_map.mp member
    have before := List.all_eq_true.mp table.checked old memberOld
    split_ifs
    · simp only [Session.wellFormed, Session.claimed, Bool.and_eq_true] at before ⊢
      exact ⟨before.1, by simpa using named⟩
    · exact before
  exact ⟨_, dif_pos ⟨unique, oneLive, checked⟩⟩

/-- A reviving claim leaves a session live that had ended. -/
theorem live_of_revives {sys : System φ} {action : Nat × Action φ} (revives : Revives sys action) :
    ∃ row ∈ sys.catalog.sessions.rows, row.live = false ∧
      ∃ after ∈ (sys.step action).catalog.sessions.rows,
        after.sessionId = row.sessionId ∧ after.live = true := by
  obtain ⟨conn, action⟩ := action
  cases action with
  | claimUpdate =>
      obtain ⟨sessionId, token, worker, controller, pending, named, idle, row, member, matched⟩ :=
        revives
      have dead := SessionTable.liveExists_eq_false.mp idle row member
      obtain ⟨table, updated⟩ := update_of_revives sessionId controller token named idle
      refine ⟨row, member, dead, row.claimed worker controller, ?_, rfl, rfl⟩
      have after : (sys.step (conn, .claimUpdate)).catalog.sessions = table := by
        simp [System.step, System.perform, System.claimUpdate, pending, updated,
          System.commitSessions, System.commit, System.setPending]
      rw [after, SessionTable.rows_update updated]
      exact List.mem_map.mpr ⟨row, member, by simp [matched]⟩
  | _ => cases revives

/-- A run keeps ended sessions ended, and shut out, exactly when none of its claims revives one. -/
theorem staysTerminal_iff (start : System φ) (actions : List (Nat × Action φ)) :
    StaysTerminal start actions ↔
      Permitted System.step (fun sys action => ¬Revives sys action) start actions := by
  constructor
  · intro stays before action later split revives
    obtain ⟨row, member, dead, after, member', same, live⟩ := live_of_revives revives
    have ended := (stays before (action :: later) split row member dead).1 [action] later rfl after
      (by rwa [run_snoc]) same
    rw [ended] at live
    cases live
  · intro permitted before later split row member dead
    rw [split, permitted_append] at permitted
    have ended (middle rest : List (Nat × Action φ)) (parts : later = middle ++ rest) :
        Ended row.sessionId row.fencingToken (run System.step start (before ++ middle)) := by
      have allowed := permitted.2
      rw [parts, permitted_append] at allowed
      rw [run_append]
      have preserved (sys : System φ) (action : Nat × Action φ) (still : ¬Revives sys action) :
          Ended row.sessionId row.fencingToken sys →
            Ended row.sessionId row.fencingToken (sys.step action) :=
        ended_step still
      exact run_invariant preserved allowed.1 ⟨row, member, by simp, dead⟩
    constructor
    · intro middle rest parts after member' same
      exact (ended middle rest parts).not_live member' same
    · intro middle action rest parts presents
      exact (ended middle _ parts).refused presents

/-- The worker of connection 1 reads its session, the operator of connection 2 stops the session, and
    the worker's update makes it run again. -/
theorem revived_by_claim : ¬StaysTerminal approvedCatalog
    (startSteps "s1" ++ [(1, .claimRead "s1" 1 "worker" none),
      (2, .terminalizeRead "s1" 1 .stopped none), (2, .terminalizeUpdate), (1, .claimUpdate)]) := by
  intro stays
  let stopping : List (Nat × Action Nat) := startSteps "s1" ++ [(1, .claimRead "s1" 1 "worker" none),
    (2, .terminalizeRead "s1" 1 .stopped none), (2, .terminalizeUpdate)]
  let stopped : Session :=
    { sessionId := "s1", planId := "ark", approvedProposalId := "p1", resumedFromSessionId := none,
      controllerIdentity := "controller", workerIdentity := none, state := .stopped,
      boundPlannerRevision := 1, fencingToken := 1, heartbeatAt := none, expiresAt := none,
      terminalCode := none }
  let running : Session :=
    { stopped with workerIdentity := some "worker", state := .running }
  have ended : stopped ∈ (run System.step approvedCatalog stopping).catalog.sessions.rows := by
    decide +kernel
  have revived : running ∈
      (run System.step approvedCatalog (stopping ++ [(1, .claimUpdate)])).catalog.sessions.rows := by
    decide +kernel
  have dead := (stays stopping [(1, .claimUpdate)] rfl stopped ended rfl).1 [(1, .claimUpdate)] [] rfl
    running revived rfl
  cases dead

end Modelark.Execution
