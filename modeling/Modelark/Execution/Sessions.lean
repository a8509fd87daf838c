import Modelark.Library.Dict

/-!
# The session table

Rows of `execution_sessions` under the constraints that the catalog enforces on every statement: at
most one live session, distinct identifiers, and a named worker while a session runs.
-/

namespace Modelark.Execution

open Library

inductive SessionState where
  | starting
  | running
  | stopping
  | paused
  | blocked
  | stopped
  | done
  | failed
  deriving Repr, DecidableEq

/-- `LIVE_STATES`. -/
def SessionState.live : SessionState → Bool
  | .starting | .running | .stopping => true
  | _ => false

/-- `RESUMABLE_STATES`. -/
def SessionState.resumable : SessionState → Bool
  | .paused | .blocked | .stopped | .failed => true
  | _ => false

structure Session where
  sessionId : String
  planId : String
  approvedProposalId : String
  resumedFromSessionId : Option String
  controllerIdentity : String
  workerIdentity : Option String
  state : SessionState
  boundPlannerRevision : Nat
  fencingToken : Nat
  heartbeatAt : Option Nat
  expiresAt : Option Nat
  terminalCode : Option String
  deriving Repr, DecidableEq

namespace Session

def live (row : Session) : Bool := row.state.live

/-- `session_id=? AND fencing_token=?`. -/
def matching (sessionId : String) (token : Nat) (row : Session) : Bool :=
  row.sessionId = sessionId ∧ row.fencingToken = token

/-- What `claim_worker` sets. -/
def claimed (worker controller : String) (row : Session) : Session :=
  { row with state := .running, workerIdentity := some worker, controllerIdentity := controller }

/-- `_expired`. -/
def expired (row : Session) (now : Nat) : Bool :=
  row.expiresAt.any (· ≤ now)

@[simp] theorem matching_iff {sessionId : String} {token : Nat} {row : Session} :
    row.matching sessionId token = true ↔ row.sessionId = sessionId ∧ row.fencingToken = token := by
  simp [matching]

end Session

/-- `length(trim(text)) > 0`. -/
def nonblank (text : String) : Bool :=
  text.toList.any (· != ' ')

/-- The checks of the catalog on one row. -/
def Session.wellFormed (row : Session) : Bool :=
  nonblank row.sessionId && 1 ≤ row.fencingToken &&
    match row.state with
    | .running | .stopping => row.workerIdentity.any nonblank
    | _ => true

structure SessionTable where
  rows : List Session
  uniqueIds : (rows.map Session.sessionId).Nodup
  /-- `idx_execution_sessions_one_live`. -/
  oneLive : (rows.filter Session.live).length ≤ 1
  checked : rows.all Session.wellFormed = true
  deriving DecidableEq

namespace SessionTable

/-- The table of a catalog that has had no session. -/
def empty : SessionTable := ⟨[], by simp, by simp, by simp⟩

/-- The table a statement writes, unless it violates a constraint: then the statement fails. -/
def write? (rows : List Session) : Option SessionTable :=
  if ok : (rows.map Session.sessionId).Nodup ∧ (rows.filter Session.live).length ≤ 1 ∧
      rows.all Session.wellFormed = true then
    some ⟨rows, ok.1, ok.2.1, ok.2.2⟩
  else none

theorem rows_of_write {rows : List Session} {table : SessionTable} (written : write? rows = some table) :
    table.rows = rows := by
  unfold write? at written
  split_ifs at written
  rw [← Option.some.inj written]

variable (table : SessionTable)

/-- The row of a session. -/
def find (sessionId : String) : Option Session :=
  table.rows.find? (·.sessionId == sessionId)

/-- `UPDATE … SET change WHERE p`. -/
def update (p : Session → Bool) (change : Session → Session) : Option SessionTable :=
  write? (table.rows.map fun row => if p row then change row else row)

/-- The number of rows an update matches. -/
def rowcount (p : Session → Bool) : Nat :=
  table.rows.countP p

def insert (row : Session) : Option SessionTable :=
  write? (table.rows ++ [row])

/-- `live_session_exists`. -/
def liveExists : Bool :=
  table.rows.any Session.live

variable {table}

theorem rows_update {p : Session → Bool} {change : Session → Session} {after : SessionTable}
    (updated : table.update p change = some after) :
    after.rows = table.rows.map fun row => if p row then change row else row :=
  rows_of_write updated

theorem rows_insert {row : Session} {after : SessionTable} (inserted : table.insert row = some after) :
    after.rows = table.rows ++ [row] :=
  rows_of_write inserted

theorem liveExists_eq_false : table.liveExists = false ↔ ∀ row ∈ table.rows, row.live = false := by
  simp [liveExists]

theorem eq_of_id {row other : Session} (member : row ∈ table.rows) (member' : other ∈ table.rows)
    (same : row.sessionId = other.sessionId) : row = other :=
  List.inj_on_of_nodup_map table.uniqueIds member member' same

/-- A change that keeps the identifiers, the liveness and the checks of all rows is accepted. -/
theorem update_accepted (matching : Session → Bool) (change : Session → Session)
    (id : ∀ row, (change row).sessionId = row.sessionId)
    (live : ∀ row, (change row).live = row.live)
    (checked : ∀ row, (change row).wellFormed = row.wellFormed) :
    ∃ after, table.update matching change = some after := by
  unfold update write?
  set rewritten := table.rows.map fun row => if matching row then change row else row with shape
  have unique : (rewritten.map Session.sessionId).Nodup := by
    have same : rewritten.map Session.sessionId = table.rows.map Session.sessionId := by
      rw [shape, List.map_map]
      apply List.map_congr_left
      intro row _
      simp only [Function.comp]
      split_ifs <;> simp [id]
    rw [same]
    exact table.uniqueIds
  have oneLive : (rewritten.filter Session.live).length ≤ 1 := by
    have same : rewritten.countP Session.live = table.rows.countP Session.live := by
      rw [shape, List.countP_map]
      apply List.countP_congr
      intro row _
      simp only [Function.comp]
      split_ifs <;> simp [live]
    rw [← List.countP_eq_length_filter, same, List.countP_eq_length_filter]
    exact table.oneLive
  have allChecked : rewritten.all Session.wellFormed = true := by
    rw [List.all_eq_true]
    intro row member
    obtain ⟨before, inTable, rfl⟩ := List.mem_map.mp member
    have wellFormed := List.all_eq_true.mp table.checked before inTable
    split_ifs
    · rw [checked]
      exact wellFormed
    · exact wellFormed
  exact ⟨_, dif_pos ⟨unique, oneLive, allChecked⟩⟩

theorem find_eq_some {sessionId : String} {row : Session} :
    table.find sessionId = some row ↔ row ∈ table.rows ∧ row.sessionId = sessionId :=
  find?_key_eq_some table.uniqueIds

theorem eq_of_live {row other : Session} (member : row ∈ table.rows) (member' : other ∈ table.rows)
    (live : row.live = true) (live' : other.live = true) : row = other := by
  have first : row ∈ table.rows.filter Session.live := List.mem_filter.mpr ⟨member, live⟩
  have second : other ∈ table.rows.filter Session.live := List.mem_filter.mpr ⟨member', live'⟩
  have few := table.oneLive
  match shape : table.rows.filter Session.live with
  | [] => rw [shape] at first; cases first
  | [only] =>
      rw [shape] at first second
      rw [List.mem_singleton.mp first, List.mem_singleton.mp second]
  | _ :: _ :: _ => rw [shape] at few; simp at few

end SessionTable

end Modelark.Execution
