import Modelark.Execution.Connections

/-!
# What a step can do

One inversion of the step function: a step leaves the catalog as it was, or commits one of a few kinds
of change. The invariants of whole runs follow from these kinds alone.
-/

namespace Modelark.Execution

open Library

namespace Pending

variable {φ : Type*}

/-- A start that has found no live session under its lock. -/
def exclusive : Pending φ → Bool
  | .startExclusive _ | .startProjecting .. | .startBound .. => true
  | _ => false

/-- What the reads of a start's projection have seen so far. -/
def observed : Pending φ → List (φ × Nat)
  | .startProjecting _ _ observed | .startBound _ _ observed _ => observed
  | _ => []

def boundRevision : Pending φ → Option Nat
  | .startBound _ _ _ revision => some revision
  | _ => none

end Pending

/-- The update of a claim meets its row while no session is live, so it makes a terminal one run. -/
def Revives {φ : Type*} (sys : System φ) : Nat × Action φ → Prop
  | (conn, .claimUpdate) =>
      ∃ sessionId token worker controller,
        sys.pending conn = .claim sessionId token worker controller ∧ nonblank worker = true ∧
          sys.catalog.sessions.liveExists = false ∧
            ∃ row ∈ sys.catalog.sessions.rows, row.matching sessionId token = true
  | _ => False

/-- A change of the session rows that makes no terminal one live. -/
structure Rewrite (table : SessionTable) (matching : Session → Bool) (change : Session → Session) :
    Prop where
  sessionId : ∀ row, (change row).sessionId = row.sessionId
  fencingToken : ∀ row, (change row).fencingToken = row.fencingToken
  bound : ∀ row, (change row).boundPlannerRevision = row.boundPlannerRevision
  live : ∀ row ∈ table.rows, matching row = true → (change row).live = true → row.live = true

/-- The kinds of committed change. -/
inductive Commits {φ : Type*} (sys : System φ) (action : Nat × Action φ) : Catalog φ → Prop where
  | nothing : Commits sys action sys.catalog
  | sessions {matching change table}
      (updated : sys.catalog.sessions.update matching change = some table)
      (rewrite : Revives sys action ∨ Rewrite sys.catalog.sessions matching change)
      (tokens : ∀ row, (change row).fencingToken = row.fencingToken) :
      Commits sys action { sys.catalog with sessions := table }
  | sessionWrite {sessionId token row f table}
      (change : action.2 = .sessionWriteCommit (.change f))
      (operation : sys.pending action.1 = .sessionWrite sessionId token)
      (found : sys.catalog.sessions.find sessionId = some row) (holder : row.fencingToken = token)
      (live : row.live = true)
      (updated : sys.catalog.sessions.update (Session.matching sessionId token)
        (fun row => { row with boundPlannerRevision := sys.catalog.plannerRevision + 1 }) =
          some table) :
      Commits sys action { sys.catalog.bump f with sessions := table }
  | graphWrite {f} (change : action.2 = .graphWriteCommit (.change f))
      (operation : sys.pending action.1 = .graphWrite)
      (idle : sys.catalog.sessions.liveExists = false) :
      Commits sys action (sys.catalog.bump f)
  | approve {cat} (locked : (sys.pending action.1).holdsController = true)
      (revision : cat.plannerRevision = sys.catalog.plannerRevision + 1)
      (idle : sys.catalog.sessions.liveExists = false)
      (sessions : cat.sessions = sys.catalog.sessions)
      (tokens : cat.nextFencingToken = sys.catalog.nextFencingToken) : Commits sys action cat
  | proposals {cat} (facts : cat.facts = sys.catalog.facts)
      (revision : cat.plannerRevision = sys.catalog.plannerRevision)
      (sessions : cat.sessions = sys.catalog.sessions)
      (tokens : cat.nextFencingToken = sys.catalog.nextFencingToken) : Commits sys action cat
  | start {cat row table}
      (locked : (sys.pending action.1).exclusive = true)
      (bound : (sys.pending action.1).boundRevision = some row.boundPlannerRevision)
      (facts : cat.facts = sys.catalog.facts)
      (revision : cat.plannerRevision = sys.catalog.plannerRevision)
      (idle : sys.catalog.sessions.liveExists = false)
      (fresh : sys.catalog.nextFencingToken < row.fencingToken)
      (tokens : cat.nextFencingToken = row.fencingToken)
      (inserted : sys.catalog.sessions.insert row = some table) (sessions : cat.sessions = table) :
      Commits sys action cat

/-- What a connection carries on, compared with what it carried before. -/
structure Continues {φ : Type*} (sys : System φ) (conn : Nat) (next : Pending φ) : Prop where
  controller : next.holdsController = true →
    (sys.controller = none ∨ sys.controller = some conn) ∨ (sys.pending conn).holdsController = true
  exclusive : next.exclusive = true →
    sys.catalog.sessions.liveExists = false ∨ (sys.pending conn).exclusive = true
  observed : ∀ seen ∈ next.observed, seen ∈ (sys.pending conn).observed ∨
    seen = (sys.catalog.facts, sys.catalog.plannerRevision)
  bound : ∀ revision ∈ next.boundRevision, revision = sys.catalog.plannerRevision

inductive Moves {φ : Type*} (sys : System φ) (action : Nat × Action φ) : System φ → Prop where
  | blocked : Moves sys action sys
  | onward {next} (continues : Continues sys action.1 next) :
      Moves sys action (sys.setPending action.1 next)
  | finished {cat} (commits : Commits sys action cat) :
      Moves sys action ({ sys with catalog := cat }.setPending action.1 .idle)

namespace System

variable {φ : Type*} {sys : System φ} {conn : Nat} {action : Action φ}

theorem moves_refuse (code : String) : Moves sys (conn, action) (sys.refuse conn code).1 :=
  .finished .nothing

theorem moves_block : Moves sys (conn, action) sys.block.1 :=
  .blocked

/-- An operation that holds no lock and has no projection may go on from anywhere. -/
theorem moves_proceed {next : Pending φ} (unlocked : next.holdsController = false)
    (plain : next.exclusive = false) (unseen : next.observed = [])
    (unbound : next.boundRevision = none) :
    Moves sys (conn, action) (sys.proceed conn next).1 := by
  apply Moves.onward
  constructor <;> simp [unlocked, plain, unseen, unbound]

theorem moves_commit {cat : Catalog φ} (commits : Commits sys (conn, action) cat) :
    Moves sys (conn, action) (sys.commit conn cat).1 :=
  .finished commits

theorem moves_commitSessions {cat : Catalog φ} {updated : Option SessionTable}
    (commits : ∀ table, updated = some table →
      Commits sys (conn, action) { cat with sessions := table }) :
    Moves sys (conn, action) (sys.commitSessions conn cat updated).1 := by
  cases updated with
  | none => exact moves_refuse _
  | some table => exact .finished (commits table rfl)

theorem moves_withController {held : System φ × Outcome}
    (moves : (sys.controller = none ∨ sys.controller = some conn) →
      Moves sys (conn, action) held.1) :
    Moves sys (conn, action) (sys.withController conn held).1 := by
  unfold withController
  split_ifs with free
  · exact moves free
  · exact moves_block

theorem moves_whenFillIdle {next : Pending φ}
    (continues : sys.catalog.sessions.liveExists = false → Continues sys conn next) :
    Moves sys (conn, action) (sys.whenFillIdle conn next).1 := by
  unfold whenFillIdle
  split_ifs with live
  · exact moves_refuse _
  · exact .onward (continues (by simpa using live))

theorem claimRead_moves (sessionId : String) (token : Nat) (worker : String)
    (controller : Option String) :
    Moves sys (conn, action) (sys.claimRead conn sessionId token worker controller).1 := by
  unfold claimRead
  split
  · exact moves_refuse _
  · split_ifs <;> first | exact moves_refuse _ | exact moves_proceed rfl rfl rfl rfl

/-- The update of a claim rewrites a live row, or it revives. -/
theorem claimUpdate_rewrites {sessionId worker controller : String} {token : Nat}
    {table : SessionTable} (pending : sys.pending conn = .claim sessionId token worker controller)
    (updated : sys.catalog.sessions.update (Session.matching sessionId token)
      (Session.claimed worker controller) = some table) :
    Revives sys (conn, .claimUpdate) ∨ Rewrite sys.catalog.sessions
      (Session.matching sessionId token) (Session.claimed worker controller) := by
  by_cases terminal : ∃ row ∈ sys.catalog.sessions.rows, row.live = false ∧
    row.matching sessionId token = true
  · left
    obtain ⟨row, member, dead, matched⟩ := terminal
    have rows := SessionTable.rows_update updated
    have image : row.claimed worker controller ∈ table.rows := by
      rw [rows]
      exact List.mem_map.mpr ⟨row, member, by simp [matched]⟩
    refine ⟨_, _, worker, controller, pending, ?_, ?_, row, member, matched⟩
    · have checked := List.all_eq_true.mp table.checked _ image
      simp only [Session.wellFormed, Session.claimed, Bool.and_eq_true] at checked
      simpa using checked.2
    · rw [SessionTable.liveExists_eq_false]
      intro other member'
      by_contra live
      have live : other.live = true := by simpa using live
      -- the image of a live row is live, so it is the image of the terminal one
      obtain ⟨after, member'', live', same⟩ : ∃ after ∈ table.rows, after.live = true ∧
          after.sessionId = other.sessionId := by
        rw [rows]
        refine ⟨_, List.mem_map.mpr ⟨other, member', rfl⟩, ?_⟩
        split_ifs
        · exact ⟨rfl, rfl⟩
        · exact ⟨live, rfl⟩
      have one := SessionTable.eq_of_live image member'' rfl live'
      have equal : row = other := SessionTable.eq_of_id member member' (by rw [← same, ← one]; rfl)
      rw [equal, live] at dead
      cases dead
  · right
    constructor
    · intro row; rfl
    · intro row; rfl
    · intro row; rfl
    · intro row member matched _
      by_contra dead
      exact terminal ⟨row, member, by simpa using dead, matched⟩

theorem claimUpdate_moves : Moves sys (conn, .claimUpdate) (sys.claimUpdate conn).1 := by
  unfold claimUpdate
  split
  · rename_i pending
    apply moves_commitSessions
    intro table updated
    exact .sessions updated (claimUpdate_rewrites pending updated) fun _ => rfl
  · exact moves_block

theorem heartbeatRead_moves (sessionId : String) (token : Nat) (worker : Option String)
    (expires : Nat) :
    Moves sys (conn, action) (sys.heartbeatRead conn sessionId token worker expires).1 := by
  unfold heartbeatRead
  split
  · exact moves_refuse _
  · split_ifs
    · exact moves_refuse _
    · exact moves_refuse _
    · split
      · split_ifs
        · exact moves_proceed rfl rfl rfl rfl
        · exact moves_refuse _
      · exact moves_refuse _
      · exact moves_proceed rfl rfl rfl rfl
      · exact moves_refuse _

theorem heartbeatUpdate_moves (now : Nat) :
    Moves sys (conn, action) (sys.heartbeatUpdate conn now).1 := by
  unfold heartbeatUpdate
  split
  · simp only
    split_ifs
    · exact moves_refuse _
    · apply moves_commitSessions
      intro table updated
      refine .sessions updated (.inr ⟨fun _ => rfl, fun _ => rfl, fun _ => rfl, ?_⟩) fun _ => rfl
      intro row member selected live
      exact live
  · exact moves_block

theorem terminalizeRead_moves (sessionId : String) (token : Nat) (state : SessionState)
    (code : Option String) :
    Moves sys (conn, action) (sys.terminalizeRead conn sessionId token state code).1 := by
  unfold terminalizeRead
  split
  · exact moves_refuse _
  · split_ifs <;> first | exact moves_refuse _ | exact moves_proceed rfl rfl rfl rfl

theorem terminalizeUpdate_moves : Moves sys (conn, action) (sys.terminalizeUpdate conn).1 := by
  unfold terminalizeUpdate
  split
  · simp only
    split_ifs
    · exact moves_refuse _
    · apply moves_commitSessions
      intro table updated
      refine .sessions updated (.inr ⟨fun _ => rfl, fun _ => rfl, fun _ => rfl, ?_⟩) fun _ => rfl
      intro row member selected _
      simp only [decide_eq_true_eq] at selected
      exact selected.2
  · exact moves_block

theorem sessionWriteRead_moves (sessionId : String) (token : Nat) :
    Moves sys (conn, action) (sys.sessionWriteRead conn sessionId token).1 := by
  unfold sessionWriteRead
  split
  · exact moves_refuse _
  · split_ifs <;> first | exact moves_refuse _ | exact moves_proceed rfl rfl rfl rfl

theorem sessionWriteCommit_moves (op : GraphOp φ) :
    Moves sys (conn, .sessionWriteCommit op) (sys.sessionWriteCommit conn op).1 := by
  unfold sessionWriteCommit
  split
  · rename_i pending
    split
    · exact moves_refuse _
    · rename_i row found
      split_ifs with lost
      · exact moves_refuse _
      · simp only [not_or, not_not, ne_eq] at lost
        cases op with
        | raises => exact moves_refuse _
        | provenNoop => exact moves_commit .nothing
        | change f =>
            apply moves_commitSessions
            intro table updated
            exact .sessionWrite rfl pending found lost.1 lost.2 updated
  · exact moves_block

theorem recoverRead_moves (sessionId : String) (now : Nat) (childFenceHeld : Bool) :
    Moves sys (conn, action) (sys.recoverRead conn sessionId now childFenceHeld).1 := by
  unfold recoverRead
  split
  · exact moves_refuse _
  · split_ifs <;> first | exact moves_refuse _ | exact moves_proceed rfl rfl rfl rfl

theorem recoverLock_moves (childFenceHeld : Bool) :
    Moves sys (conn, action) (sys.recoverLock conn childFenceHeld).1 := by
  unfold recoverLock
  split
  · apply moves_withController
    intro free
    split_ifs
    · exact moves_refuse _
    · apply Moves.onward
      constructor
      · intro _; exact .inl free
      · intro impossible; cases impossible
      · intro seen impossible; cases impossible
      · intro revision impossible; cases impossible
  · exact moves_block

theorem recoverCommit_moves (now : Nat) (authorityUnchanged : Bool) :
    Moves sys (conn, action) (sys.recoverCommit conn now authorityUnchanged).1 := by
  unfold recoverCommit
  split
  · split
    · exact moves_refuse _
    · split
      · exact moves_refuse _
      · simp only
        split_ifs <;> try exact moves_refuse _
        apply moves_commitSessions
        intro table updated
        refine .sessions updated (.inr ⟨fun _ => rfl, fun _ => rfl, fun _ => rfl, ?_⟩) fun _ => rfl
        intro row member selected _
        simp only [decide_eq_true_eq] at selected
        exact selected.2.1
  · exact moves_block

theorem graphWriteCommit_moves (op : GraphOp φ) :
    Moves sys (conn, .graphWriteCommit op) (sys.graphWriteCommit conn op).1 := by
  unfold graphWriteCommit
  split
  · rename_i pending
    split_ifs with live
    · exact moves_refuse _
    · cases op with
      | raises => exact moves_refuse _
      | provenNoop => exact moves_commit .nothing
      | change f => exact moves_commit (.graphWrite rfl pending (by simpa using live))
  · exact moves_block

theorem publishDraftCommit_moves : Moves sys (conn, action) (sys.publishDraftCommit conn).1 := by
  unfold publishDraftCommit
  split
  · split_ifs <;> first | exact moves_refuse _ | exact moves_commit (.proposals rfl rfl rfl rfl)
  · exact moves_block

theorem discardDraftCommit_moves : Moves sys (conn, action) (sys.discardDraftCommit conn).1 := by
  unfold discardDraftCommit
  split
  · split_ifs
    · exact moves_refuse _
    · split
      · exact moves_refuse _
      · split_ifs
        · exact moves_refuse _
        · exact moves_commit (.proposals rfl rfl rfl rfl)
  · exact moves_block

theorem approveLock_moves : Moves sys (conn, action) (sys.approveLock conn).1 := by
  unfold approveLock
  split
  · apply moves_withController
    intro free
    apply Moves.onward
    constructor
    · intro _; exact .inl free
    · intro impossible; cases impossible
    · intro seen impossible; cases impossible
    · intro revision impossible; cases impossible
  · exact moves_block

theorem approveCommit_moves (revalidated workerIdle : Bool) (mutation : φ → φ) :
    Moves sys (conn, action) (sys.approveCommit conn revalidated workerIdle mutation).1 := by
  unfold approveCommit
  split
  · rename_i pending
    split
    · exact moves_refuse _
    · split
      · exact moves_refuse _
      · simp only
        split_ifs with _ _ _ _ _ live <;> try exact moves_refuse _
        refine moves_commit (.approve ?_ rfl (by simpa using live) rfl rfl)
        simp [pending, Pending.holdsController]
  · exact moves_block

theorem startSelect_moves (requested : Option String) :
    Moves sys (conn, action) (sys.startSelect conn requested).1 := by
  unfold startSelect
  apply moves_withController
  intro free
  split
  · exact moves_refuse _
  · apply Moves.onward
    constructor
    · intro _; exact .inl free
    · intro impossible; cases impossible
    · intro seen impossible; cases impossible
    · intro revision impossible; cases impossible

theorem startLiveCheck_moves : Moves sys (conn, action) (sys.startLiveCheck conn).1 := by
  unfold startLiveCheck
  split
  · rename_i pending
    apply moves_whenFillIdle
    intro idle
    constructor
    · intro _; exact .inr (by simp [pending, Pending.holdsController])
    · intro _; exact .inl idle
    · intro seen impossible; cases impossible
    · intro revision impossible; cases impossible
  · exact moves_block

/-- A step inside the hold of a start. -/
theorem moves_start {next : Pending φ} (exclusive : (sys.pending conn).exclusive = true)
    (observed : ∀ seen ∈ next.observed, seen ∈ (sys.pending conn).observed ∨
      seen = (sys.catalog.facts, sys.catalog.plannerRevision))
    (bound : ∀ revision ∈ next.boundRevision, revision = sys.catalog.plannerRevision) :
    Moves sys (conn, action) (sys.proceed conn next).1 := by
  apply Moves.onward
  refine ⟨fun _ => .inr ?_, fun _ => .inr exclusive, observed, bound⟩
  revert exclusive
  cases sys.pending conn <;> simp [Pending.exclusive, Pending.holdsController]

theorem startPredecessor_moves (predecessorId : Option String) :
    Moves sys (conn, action) (sys.startPredecessor conn predecessorId).1 := by
  unfold startPredecessor
  split
  · rename_i proposal pending
    have onward (predecessor : Option Session) :
        Moves sys (conn, action)
          (sys.proceed conn (.startProjecting proposal predecessor [])).1 := by
      apply moves_start
      · simp [pending, Pending.exclusive]
      · intro seen impossible; cases impossible
      · intro revision impossible; cases impossible
    split
    · exact onward none
    · split
      · exact moves_refuse _
      · split_ifs <;> first | exact moves_refuse _ | exact onward _
  · exact moves_block

theorem startObserve_moves : Moves sys (conn, action) (sys.startObserve conn).1 := by
  unfold startObserve
  split
  · rename_i proposal predecessor observed pending
    apply moves_start
    · simp [pending, Pending.exclusive]
    · intro seen member
      simpa [pending, Pending.observed] using member
    · intro revision impossible; cases impossible
  · exact moves_block

theorem startRevision_moves : Moves sys (conn, action) (sys.startRevision conn).1 := by
  unfold startRevision
  split
  · rename_i proposal predecessor observed pending
    apply moves_start
    · simp [pending, Pending.exclusive]
    · intro seen member
      left
      simpa [pending, Pending.observed] using member
    · intro revision member
      simpa [Pending.boundRevision, eq_comm] using member
  · exact moves_block

theorem startCommit_moves (sessionId controller : String) (expires : Nat) (fencesCurrent : Bool) :
    Moves sys (conn, action)
      (sys.startCommit conn sessionId controller expires fencesCurrent).1 := by
  unfold startCommit
  split
  · rename_i proposal predecessor observed boundRevision pending
    split
    · exact moves_refuse _
    · simp only
      split_ifs with _ _ live <;> try exact moves_refuse _
      apply moves_commitSessions
      intro table inserted
      refine .start ?_ ?_ rfl rfl (by simpa using live) (lt_max_of_lt_left (Nat.lt_succ_self _)) rfl
        inserted rfl
      · simp [pending, Pending.exclusive]
      · simp [pending, Pending.boundRevision]
  · exact moves_block

theorem step_moves (sys : System φ) (action : Nat × Action φ) : Moves sys action (sys.step action) := by
  obtain ⟨conn, action⟩ := action
  have idleCheck (next : Pending φ) (plain : next.holdsController = false ∧ next.exclusive = false ∧
      next.observed = [] ∧ next.boundRevision = none) :
      Moves sys (conn, action) (sys.whenFillIdle conn next).1 := by
    apply moves_whenFillIdle
    intro _
    constructor <;> simp [plain]
  cases action with
  | abandon => exact moves_refuse _
  | claimRead => exact claimRead_moves _ _ _ _
  | claimUpdate => exact claimUpdate_moves
  | heartbeatRead => exact heartbeatRead_moves _ _ _ _
  | heartbeatUpdate => exact heartbeatUpdate_moves _
  | terminalizeRead => exact terminalizeRead_moves _ _ _ _
  | terminalizeUpdate => exact terminalizeUpdate_moves
  | sessionWriteRead => exact sessionWriteRead_moves _ _
  | sessionWriteCommit => exact sessionWriteCommit_moves _
  | recoverRead => exact recoverRead_moves _ _ _
  | recoverLock => exact recoverLock_moves _
  | recoverCommit => exact recoverCommit_moves _ _
  | graphWriteCheck => exact idleCheck _ ⟨rfl, rfl, rfl, rfl⟩
  | graphWriteCommit => exact graphWriteCommit_moves _
  | publishDraftCheck => exact idleCheck _ ⟨rfl, rfl, rfl, rfl⟩
  | publishDraftCommit => exact publishDraftCommit_moves
  | discardDraftCheck => exact idleCheck _ ⟨rfl, rfl, rfl, rfl⟩
  | discardDraftCommit => exact discardDraftCommit_moves
  | approveCheck => exact idleCheck _ ⟨rfl, rfl, rfl, rfl⟩
  | approveLock => exact approveLock_moves
  | approveCommit => exact approveCommit_moves _ _ _
  | startSelect => exact startSelect_moves _
  | startLiveCheck => exact startLiveCheck_moves
  | startPredecessor => exact startPredecessor_moves _
  | startObserve => exact startObserve_moves
  | startRevision => exact startRevision_moves
  | startCommit => exact startCommit_moves _ _ _ _

end System

end Modelark.Execution
