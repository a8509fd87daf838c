import Modelark.Execution.Catalog
import Modelark.Library.Runs

/-!
# Connections and their transactions

Any number of connections work on one catalog. An operation reads first and writes later: every read
and every write is one atomic step, and the steps of other connections may come in between. Start,
recovery and approval hold the controller lock from their locked reads to their write.
-/

namespace Modelark.Execution

open Library

/-- What a connection carries from one step of its operation to the next. -/
inductive Pending (φ : Type*) where
  | idle
  | claim (sessionId : String) (token : Nat) (worker controller : String)
  | heartbeat (sessionId : String) (token : Nat) (worker : String) (expires : Nat)
  | terminalize (sessionId : String) (token : Nat) (wasLive : Bool) (state : SessionState)
      (code : Option String)
  | sessionWrite (sessionId : String) (token : Nat)
  | recover (sessionId : String) (token : Nat) (proposalId : String) (locked : Bool)
  | graphWrite
  | publishDraft (draft : Proposal)
  | discardDraft (proposalId : String)
  | approve (proposalId : String) (locked : Bool)
  | startSelected (proposal : Proposal)
  | startExclusive (proposal : Proposal)
  /-- `observed` are the facts and the revision at each read of the projection so far. -/
  | startProjecting (proposal : Proposal) (predecessor : Option Session) (observed : List (φ × Nat))
  | startBound (proposal : Proposal) (predecessor : Option Session) (observed : List (φ × Nat))
      (boundRevision : Nat)

/-- The operation is inside its hold of the controller lock. -/
def Pending.holdsController {φ : Type*} : Pending φ → Bool
  | .recover _ _ _ locked | .approve _ locked => locked
  | .startSelected _ | .startExclusive _ | .startProjecting .. | .startBound .. => true
  | _ => false

structure System (φ : Type*) where
  catalog : Catalog φ
  pending : Nat → Pending φ
  /-- The connection that holds the controller lock. -/
  controller : Option Nat

inductive Outcome where
  /-- The operation goes on to its next step. -/
  | proceeds
  | committed
  | refused (code : String)
  /-- The connection waits for the controller lock, or its operation has no such step now. -/
  | blocked
  deriving Repr, DecidableEq

/-- One atomic step of an operation. The arguments are what the code takes from its caller, the
    clock, the random source, the physical fences and checks of facts outside this model. -/
inductive Action (φ : Type*) where
  /-- A refusal outside this model, an exception or a crash ends the operation. -/
  | abandon
  | claimRead (sessionId : String) (token : Nat) (worker : String) (controller : Option String)
  | claimUpdate
  | heartbeatRead (sessionId : String) (token : Nat) (worker : Option String) (expires : Nat)
  | heartbeatUpdate (now : Nat)
  | terminalizeRead (sessionId : String) (token : Nat) (state : SessionState) (code : Option String)
  | terminalizeUpdate
  | sessionWriteRead (sessionId : String) (token : Nat)
  | sessionWriteCommit (op : GraphOp φ)
  | recoverRead (sessionId : String) (now : Nat) (childFenceHeld : Bool)
  | recoverLock (childFenceHeld : Bool)
  | recoverCommit (now : Nat) (authorityUnchanged : Bool)
  | graphWriteCheck
  | graphWriteCommit (op : GraphOp φ)
  | publishDraftCheck (draft : Proposal)
  | publishDraftCommit
  | discardDraftCheck (proposalId : String)
  | discardDraftCommit
  | approveCheck (proposalId : String)
  | approveLock
  | approveCommit (revalidated workerIdle : Bool) (mutation : φ → φ)
  | startSelect (requested : Option String)
  | startLiveCheck
  | startPredecessor (predecessorId : Option String)
  | startObserve
  | startRevision
  | startCommit (sessionId controller : String) (expires : Nat) (fencesCurrent : Bool)

namespace System

variable {φ : Type*} (sys : System φ) (conn : Nat)

def setPending (next : Pending φ) : System φ :=
  { sys with
    pending := Function.update sys.pending conn next
    controller :=
      if next.holdsController then some conn
      else if sys.controller = some conn then none else sys.controller }

/-- A step that lets the operation go on. -/
def proceed (next : Pending φ) : System φ × Outcome :=
  (sys.setPending conn next, .proceeds)

/-- A refusal ends the operation and leaves the catalog as it was. -/
def refuse (code : String) : System φ × Outcome :=
  (sys.setPending conn .idle, .refused code)

def commit (cat : Catalog φ) : System φ × Outcome :=
  ({ sys with catalog := cat }.setPending conn .idle, .committed)

def block : System φ × Outcome := (sys, .blocked)

/-- A statement on the session table; where it violates a constraint, it fails. -/
def commitSessions (cat : Catalog φ) (table : Option SessionTable) : System φ × Outcome :=
  match table with
  | some table => sys.commit conn { cat with sessions := table }
  | none => sys.refuse conn "INTEGRITY_ERROR"

/-- `hold_controller`: the connection waits while another one holds it. -/
def withController (held : System φ × Outcome) : System φ × Outcome :=
  if sys.controller = none ∨ sys.controller = some conn then held else sys.block

/-- `_require_fill_idle`, before a write transaction. -/
def whenFillIdle (next : Pending φ) : System φ × Outcome :=
  if sys.catalog.sessions.liveExists then sys.refuse conn "FILL_SESSION_ACTIVE"
  else sys.proceed conn next

def claimRead (sessionId : String) (token : Nat) (worker : String) (controller : Option String) :
    System φ × Outcome :=
  match sys.catalog.sessions.find sessionId with
  | none => sys.refuse conn "SESSION_NOT_FOUND"
  | some row =>
      if row.fencingToken ≠ token then sys.refuse conn "SESSION_TOKEN_MISMATCH"
      else if row.state ≠ .starting ∧ row.state ≠ .running then
        sys.refuse conn "SESSION_STATE_INVALID"
      else
        -- an empty controller counts as none
        let given := controller.getD ""
        sys.proceed conn
          (.claim sessionId token worker (if given.isEmpty then row.controllerIdentity else given))

/-- The update of a claim names the row by its session and its token only. -/
def claimUpdate : System φ × Outcome :=
  match sys.pending conn with
  | .claim sessionId token worker controller =>
      sys.commitSessions conn sys.catalog (sys.catalog.sessions.update
        (Session.matching sessionId token) (Session.claimed worker controller))
  | _ => sys.block

def heartbeatRead (sessionId : String) (token : Nat) (worker : Option String) (expires : Nat) :
    System φ × Outcome :=
  match sys.catalog.sessions.find sessionId with
  | none => sys.refuse conn "SESSION_NOT_FOUND"
  | some row =>
      if row.fencingToken ≠ token then sys.refuse conn "SESSION_TOKEN_MISMATCH"
      else if row.state ≠ .running ∧ row.state ≠ .stopping then
        sys.refuse conn "SESSION_STATE_INVALID"
      else match worker, row.workerIdentity with
        | some given, some expected =>
            if expected = given then sys.proceed conn (.heartbeat sessionId token given expires)
            else sys.refuse conn "SESSION_WORKER_MISMATCH"
        | some _, none => sys.refuse conn "SESSION_WORKER_MISMATCH"
        | none, some expected => sys.proceed conn (.heartbeat sessionId token expected expires)
        | none, none => sys.refuse conn "SESSION_STATE_INVALID"

def heartbeatUpdate (now : Nat) : System φ × Outcome :=
  match sys.pending conn with
  | .heartbeat sessionId token worker expires =>
      let matching (row : Session) : Bool :=
        row.matching sessionId token ∧ row.workerIdentity = some worker ∧
          (row.state = .running ∨ row.state = .stopping)
      if sys.catalog.sessions.rowcount matching = 0 then sys.refuse conn "SESSION_TOKEN_MISMATCH"
      else sys.commitSessions conn sys.catalog (sys.catalog.sessions.update matching
        fun row => { row with heartbeatAt := some now, expiresAt := some expires })
  | _ => sys.block

def terminalizeRead (sessionId : String) (token : Nat) (state : SessionState)
    (code : Option String) : System φ × Outcome :=
  match sys.catalog.sessions.find sessionId with
  | none => sys.refuse conn "SESSION_NOT_FOUND"
  | some row =>
      if row.fencingToken ≠ token then sys.refuse conn "SESSION_TOKEN_MISMATCH"
      else if ¬row.live ∧ state.live then sys.refuse conn "SESSION_TERMINAL_IMMUTABLE"
      else sys.proceed conn (.terminalize sessionId token row.live state code)

def terminalizeUpdate : System φ × Outcome :=
  match sys.pending conn with
  | .terminalize sessionId token wasLive state code =>
      let matching (row : Session) : Bool := row.matching sessionId token ∧ row.live
      if sys.catalog.sessions.rowcount matching = 0 ∧ wasLive then
        sys.refuse conn "SESSION_TOKEN_MISMATCH"
      else sys.commitSessions conn sys.catalog (sys.catalog.sessions.update matching
        fun row => { row with
          state := state, terminalCode := code, heartbeatAt := none, expiresAt := none })
  | _ => sys.block

def sessionWriteRead (sessionId : String) (token : Nat) : System φ × Outcome :=
  match sys.catalog.sessions.find sessionId with
  | none => sys.refuse conn "SESSION_NOT_FOUND"
  | some row =>
      if row.fencingToken ≠ token then sys.refuse conn "SESSION_TOKEN_MISMATCH"
      else if ¬row.live then sys.refuse conn "SESSION_STATE_INVALID"
      else sys.proceed conn (.sessionWrite sessionId token)

/-- The transaction of a session write: the token again, the body, the bump, the binding. -/
def sessionWriteCommit (op : GraphOp φ) : System φ × Outcome :=
  match sys.pending conn with
  | .sessionWrite sessionId token =>
      match sys.catalog.sessions.find sessionId with
      | none => sys.refuse conn "SESSION_TOKEN_MISMATCH"
      | some row =>
          if row.fencingToken ≠ token ∨ ¬row.live then sys.refuse conn "SESSION_TOKEN_MISMATCH"
          else match op with
            | .raises => sys.refuse conn "OPERATION_FAILED"
            | .provenNoop => sys.commit conn sys.catalog
            | .change f =>
                let bumped := sys.catalog.bump f
                sys.commitSessions conn bumped (bumped.sessions.update
                  (Session.matching sessionId token)
                  fun row => { row with boundPlannerRevision := bumped.plannerRevision })
  | _ => sys.block

def recoverRead (sessionId : String) (now : Nat) (childFenceHeld : Bool) : System φ × Outcome :=
  match sys.catalog.sessions.find sessionId with
  | none => sys.refuse conn "SESSION_NOT_FOUND"
  | some row =>
      if childFenceHeld then sys.refuse conn "CHILD_FENCE_HELD"
      else if ¬row.expired now then sys.refuse conn "SESSION_NOT_EXPIRED"
      else sys.proceed conn
        (.recover sessionId row.fencingToken row.approvedProposalId false)

def recoverLock (childFenceHeld : Bool) : System φ × Outcome :=
  match sys.pending conn with
  | .recover sessionId token proposalId _ => sys.withController conn <|
      if childFenceHeld then sys.refuse conn "CHILD_FENCE_HELD"
      else sys.proceed conn (.recover sessionId token proposalId true)
  | _ => sys.block

def recoverCommit (now : Nat) (authorityUnchanged : Bool) : System φ × Outcome :=
  match sys.pending conn with
  | .recover sessionId token proposalId true =>
      if ¬authorityUnchanged then sys.refuse conn "SESSION_AUTHORITY_CHANGED"
      else match sys.catalog.sessions.find sessionId with
        | none => sys.refuse conn "SESSION_NOT_FOUND"
        | some row =>
            if row.approvedProposalId ≠ proposalId then
              sys.refuse conn "SESSION_AUTHORITY_CHANGED"
            else if row.fencingToken ≠ token then sys.refuse conn "SESSION_TOKEN_MISMATCH"
            else if ¬row.expired now then sys.refuse conn "SESSION_NOT_EXPIRED"
            else if ¬row.live then sys.refuse conn "SESSION_STATE_INVALID"
            else
              let matching (other : Session) : Bool :=
                other.matching sessionId token ∧ other.live ∧ other.expiresAt = row.expiresAt
              if sys.catalog.sessions.rowcount matching = 0 then
                sys.refuse conn "SESSION_TOKEN_MISMATCH"
              else sys.commitSessions conn sys.catalog (sys.catalog.sessions.update matching
                fun row => { row with
                  state := .failed, terminalCode := some "EXPIRED_RECOVERED" })
  | _ => sys.block

/-- The transaction of `graph_write`: the session check again, the body, the bump. -/
def graphWriteCommit (op : GraphOp φ) : System φ × Outcome :=
  match sys.pending conn with
  | .graphWrite =>
      if sys.catalog.sessions.liveExists then sys.refuse conn "FILL_SESSION_ACTIVE"
      else match op with
        | .raises => sys.refuse conn "OPERATION_FAILED"
        | .provenNoop => sys.commit conn sys.catalog
        | .change f => sys.commit conn (sys.catalog.bump f)
  | _ => sys.block

def publishDraftCommit : System φ × Outcome :=
  match sys.pending conn with
  | .publishDraft draft =>
      if sys.catalog.sessions.liveExists then sys.refuse conn "FILL_SESSION_ACTIVE"
      else if sys.catalog.plannerRevision ≠ draft.basedOnRevision then
        sys.refuse conn "PREVIEW_STALE"
      else if 1 < sys.catalog.currentDraftIds.length then
        sys.refuse conn "MULTIPLE_CURRENT_DRAFTS"
      else if sys.catalog.currentDraftIds ≠ [] then sys.refuse conn "PROPOSAL_REVIEW_PENDING"
      else if (sys.catalog.loadProposal draft.proposalId).isSome then
        sys.refuse conn "INTEGRITY_ERROR"
      else sys.commit conn { sys.catalog with
        proposals := sys.catalog.proposals ++ [{ draft with lifecycle := .draft }] }
  | _ => sys.block

def discardDraftCommit : System φ × Outcome :=
  match sys.pending conn with
  | .discardDraft proposalId =>
      if sys.catalog.sessions.liveExists then sys.refuse conn "FILL_SESSION_ACTIVE"
      else match sys.catalog.loadProposal proposalId with
        | none => sys.refuse conn "PROPOSAL_NOT_FOUND"
        | some draft =>
            if draft.lifecycle ≠ .draft then sys.refuse conn "PROPOSAL_NOT_DRAFT"
            else sys.commit conn (sys.catalog.setLifecycle
              (fun row => row.proposalId = proposalId ∧ row.lifecycle = .draft) .superseded)
  | _ => sys.block

def approveLock : System φ × Outcome :=
  match sys.pending conn with
  | .approve proposalId _ => sys.withController conn (sys.proceed conn (.approve proposalId true))
  | _ => sys.block

/-- `_approve_tx` under `guarded_mutation`; the bump at its end checks for a live session. -/
def approveCommit (revalidated workerIdle : Bool) (mutation : φ → φ) : System φ × Outcome :=
  match sys.pending conn with
  | .approve proposalId true =>
      if ¬workerIdle then sys.refuse conn "FILL_SESSION_ACTIVE"
      else match sys.catalog.loadProposal proposalId with
        | none => sys.refuse conn "PROPOSAL_NOT_FOUND"
        | some draft =>
            if draft.lifecycle ≠ .draft then sys.refuse conn "PROPOSAL_NOT_DRAFT"
            else if ¬draft.feasible then sys.refuse conn "PROPOSAL_NOT_FEASIBLE"
            else if sys.catalog.plannerRevision ≠ draft.basedOnRevision then
              sys.refuse conn "PREVIEW_STALE"
            else if 1 < sys.catalog.currentDraftIds.length then
              sys.refuse conn "MULTIPLE_CURRENT_DRAFTS"
            else if ¬revalidated then sys.refuse conn "APPROVED_INPUT_CHANGED"
            else if sys.catalog.sessions.liveExists then sys.refuse conn "FILL_SESSION_ACTIVE"
            else
              let superseded :=
                sys.catalog.setLifecycle (fun row => row.lifecycle = .approved) .superseded
              let approved :=
                superseded.setLifecycle (fun row => row.proposalId = proposalId) .approved
              sys.commit conn
                { approved.bump mutation with activeApprovedProposalId := some proposalId }
  | _ => sys.block

/-- Under the controller lock, the approval is selected again. -/
def startSelect (requested : Option String) : System φ × Outcome :=
  sys.withController conn <|
    match sys.catalog.selectedApproval requested with
    | none => sys.refuse conn "APPROVAL_MISSING"
    | some proposal => sys.proceed conn (.startSelected proposal)

def startLiveCheck : System φ × Outcome :=
  match sys.pending conn with
  | .startSelected proposal => sys.whenFillIdle conn (.startExclusive proposal)
  | _ => sys.block

def startPredecessor (predecessorId : Option String) : System φ × Outcome :=
  match sys.pending conn with
  | .startExclusive proposal =>
      match predecessorId with
      | none => sys.proceed conn (.startProjecting proposal none [])
      | some predecessorId =>
          match sys.catalog.sessions.find predecessorId with
          | none => sys.refuse conn "SESSION_NOT_RESUMABLE"
          | some row =>
              if ¬row.state.resumable then sys.refuse conn "SESSION_NOT_RESUMABLE"
              else if row.approvedProposalId ≠ proposal.proposalId then
                sys.refuse conn "RESUME_APPROVAL_MISMATCH"
              else sys.proceed conn (.startProjecting proposal (some row) [])
  | _ => sys.block

/-- A read of `_catalog_projection_bundle`. -/
def startObserve : System φ × Outcome :=
  match sys.pending conn with
  | .startProjecting proposal predecessor observed =>
      sys.proceed conn (.startProjecting proposal predecessor
        (observed ++ [(sys.catalog.facts, sys.catalog.plannerRevision)]))
  | _ => sys.block

/-- The read of the revision to bind, after the projection and before the transaction. -/
def startRevision : System φ × Outcome :=
  match sys.pending conn with
  | .startProjecting proposal predecessor observed =>
      sys.proceed conn
        (.startBound proposal predecessor observed sys.catalog.plannerRevision)
  | _ => sys.block

def startCommit (sessionId controller : String) (expires : Nat) (fencesCurrent : Bool) :
    System φ × Outcome :=
  match sys.pending conn with
  | .startBound proposal predecessor _ boundRevision =>
      match sys.catalog.selectedApproval (some proposal.proposalId) with
      | none => sys.refuse conn "APPROVAL_MISSING"
      | some current =>
          if current ≠ proposal then sys.refuse conn "APPROVED_INPUT_CHANGED"
          else if ¬fencesCurrent then sys.refuse conn "DRIVE_IDENTITY_CHANGED"
          else if sys.catalog.sessions.liveExists then sys.refuse conn "FILL_SESSION_ACTIVE"
          else if sys.catalog.currentDraftIds ≠ [] then sys.refuse conn "PROPOSAL_REVIEW_PENDING"
          else
            -- a token of the predecessor or above it is never given again
            let after := (predecessor.map Session.fencingToken).getD 0
            let token := max (sys.catalog.nextFencingToken + 1) (after + 1)
            sys.commitSessions conn { sys.catalog with nextFencingToken := token }
              (sys.catalog.sessions.insert
                { sessionId, planId := proposal.planId, approvedProposalId := proposal.proposalId,
                  resumedFromSessionId := predecessor.map Session.sessionId,
                  controllerIdentity := controller, workerIdentity := none, state := .starting,
                  boundPlannerRevision := boundRevision, fencingToken := token,
                  heartbeatAt := none, expiresAt := some expires, terminalCode := none })
  | _ => sys.block

/-- One step of one connection. -/
def perform : Action φ → System φ × Outcome
  | .abandon => sys.refuse conn "ABANDONED"
  | .claimRead sessionId token worker controller =>
      sys.claimRead conn sessionId token worker controller
  | .claimUpdate => sys.claimUpdate conn
  | .heartbeatRead sessionId token worker expires =>
      sys.heartbeatRead conn sessionId token worker expires
  | .heartbeatUpdate now => sys.heartbeatUpdate conn now
  | .terminalizeRead sessionId token state code => sys.terminalizeRead conn sessionId token state code
  | .terminalizeUpdate => sys.terminalizeUpdate conn
  | .sessionWriteRead sessionId token => sys.sessionWriteRead conn sessionId token
  | .sessionWriteCommit op => sys.sessionWriteCommit conn op
  | .recoverRead sessionId now childFenceHeld => sys.recoverRead conn sessionId now childFenceHeld
  | .recoverLock childFenceHeld => sys.recoverLock conn childFenceHeld
  | .recoverCommit now authorityUnchanged => sys.recoverCommit conn now authorityUnchanged
  | .graphWriteCheck => sys.whenFillIdle conn .graphWrite
  | .graphWriteCommit op => sys.graphWriteCommit conn op
  | .publishDraftCheck draft => sys.whenFillIdle conn (.publishDraft draft)
  | .publishDraftCommit => sys.publishDraftCommit conn
  | .discardDraftCheck proposalId => sys.whenFillIdle conn (.discardDraft proposalId)
  | .discardDraftCommit => sys.discardDraftCommit conn
  | .approveCheck proposalId => sys.whenFillIdle conn (.approve proposalId false)
  | .approveLock => sys.approveLock conn
  | .approveCommit revalidated workerIdle mutation =>
      sys.approveCommit conn revalidated workerIdle mutation
  | .startSelect requested => sys.startSelect conn requested
  | .startLiveCheck => sys.startLiveCheck conn
  | .startPredecessor predecessorId => sys.startPredecessor conn predecessorId
  | .startObserve => sys.startObserve conn
  | .startRevision => sys.startRevision conn
  | .startCommit sessionId controller expires fencesCurrent =>
      sys.startCommit conn sessionId controller expires fencesCurrent

/-- The system after a step. -/
def step (action : Nat × Action φ) : System φ :=
  (sys.perform action.1 action.2).1

end System

/-- A catalog with one approved proposal and no session. -/
def approvedCatalog : System Nat where
  catalog :=
    { facts := 0, plannerRevision := 1, nextFencingToken := 0,
      activeApprovedProposalId := some "p1",
      proposals := [⟨"p1", "ark", .approved, 0, true⟩],
      sessions := .empty }
  pending := fun _ => .idle
  controller := none

/-- One start, by connection 0. -/
def startSteps (sessionId : String) : List (Nat × Action Nat) :=
  [(0, .startSelect none), (0, .startLiveCheck), (0, .startPredecessor none), (0, .startObserve),
    (0, .startRevision), (0, .startCommit sessionId "controller" 3600 true)]

example : (run System.step approvedCatalog (startSteps "s1")).catalog.sessions.rows.map
    (fun row => (row.sessionId, row.state, row.boundPlannerRevision, row.fencingToken)) =
      [("s1", .starting, 1, 1)] := by
  decide +kernel

end Modelark.Execution
