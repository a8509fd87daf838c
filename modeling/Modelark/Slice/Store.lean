import Modelark.Library.Fallible
import Modelark.Library.Table
import Modelark.Slice.Plans

/-!
# The transaction store

The private database of transfers: their states, their stop bookkeeping, the claims of their
destinations and their journals. Every call is one transaction of the database, and a call that is
refused leaves it as it was.
-/

namespace Modelark.Slice

open Library Proposal

inductive TransferState where
  | ready
  | approved
  | starting
  | transferring
  | verifying
  | stopped
  | waitingSource
  | blockedSource
  | waitingDestination
  | complete
  | failed
  | invalidated
  deriving Repr, DecidableEq

namespace TransferState

def value : TransferState → String
  | ready => "ready"
  | approved => "approved"
  | starting => "starting"
  | transferring => "transferring"
  | verifying => "verifying"
  | stopped => "stopped"
  | waitingSource => "waiting_source"
  | blockedSource => "blocked_source"
  | waitingDestination => "waiting_destination"
  | complete => "complete"
  | failed => "failed"
  | invalidated => "invalidated"

/-- `RESUMABLE_STATES`. -/
def resumable : List TransferState :=
  [approved, starting, transferring, verifying, stopped, waitingSource, blockedSource,
    waitingDestination]

/-- `RUNNING_STATES`. -/
def running : List TransferState :=
  [starting, transferring, verifying, stopped, waitingSource, blockedSource, waitingDestination]

/-- `TERMINAL_STATES`. -/
def terminal : List TransferState :=
  [complete, failed, invalidated]

/-- `_OUTCOMES`. -/
def outcomes : List TransferState :=
  [stopped, waitingSource, blockedSource, waitingDestination, failed, invalidated]

/-- `TRANSITIONS`. -/
def transitions : TransferState → List TransferState
  | starting | waitingSource | blockedSource | waitingDestination => transferring :: outcomes
  | transferring => transferring :: verifying :: outcomes
  | verifying => verifying :: outcomes
  | stopped => [stopped]
  | ready | approved | complete | failed | invalidated => []

end TransferState

open TransferState

/-- `refusal_state`. -/
def refusalState (code : String) : TransferState :=
  if code = "STOPPED" then stopped
  else if code = "WAITING_SOURCE" then waitingSource
  else if code = "WAITING_DESTINATION" then waitingDestination
  else if code = "SOURCE_BLOCKED" then blockedSource
  else if code = "DESTINATION_CAPACITY_WAIT" then waitingDestination
  else if "DESTINATION_".toList.isPrefixOf code.toList then invalidated
  else failed

structure TransactionRow where
  id : String
  plan : TransferPlan
  sealHash : String
  state : TransferState
  stop : Bool
  reason : String
  journalSeq : Nat
  journalDigest : String
  stopSerial : Nat
  acknowledgedStopSerial : Nat
  consumedAttempt : Option String

structure OwnerRow where
  device : String
  tx : String
  attempt : Option String
  deriving DecidableEq

structure JournalRow where
  tx : String
  seq : Nat
  event : String
  payload : String
  digest : String
  deriving DecidableEq

def JournalRow.key (row : JournalRow) : String × Nat := (row.tx, row.seq)

/-- `owners`: one row for each device and for each transaction. -/
structure Owners where
  rows : List OwnerRow
  devices : (rows.map OwnerRow.device).Nodup
  transactions : (rows.map OwnerRow.tx).Nodup

namespace Owners

def find (owners : Owners) (device : String) : Option OwnerRow :=
  owners.rows.find? fun row => row.device = device

/-- `INSERT OR IGNORE`. -/
def insertOrIgnore (owners : Owners) (device tx : String) : Owners :=
  if fresh : ∀ row ∈ owners.rows, row.device ≠ device ∧ row.tx ≠ tx then
    { rows := owners.rows ++ [⟨device, tx, none⟩]
      devices := by
        rw [List.map_append, List.map_singleton]
        refine List.nodup_append'.mpr ⟨owners.devices, List.nodup_singleton _, ?_⟩
        intro other taken same
        obtain ⟨row, member, rfl⟩ := List.mem_map.mp taken
        exact (fresh row member).1 (List.mem_singleton.mp same)
      transactions := by
        rw [List.map_append, List.map_singleton]
        refine List.nodup_append'.mpr ⟨owners.transactions, List.nodup_singleton _, ?_⟩
        intro other taken same
        obtain ⟨row, member, rfl⟩ := List.mem_map.mp taken
        exact (fresh row member).2 (List.mem_singleton.mp same) }
  else owners

/-- `UPDATE owners SET attempt=? WHERE device=? AND tx=?`. -/
def publish (owners : Owners) (device tx token : String) : Owners where
  rows := owners.rows.map fun row =>
    if row.device = device ∧ row.tx = tx then { row with attempt := some token } else row
  devices := by
    have same : ∀ row : OwnerRow, (if row.device = device ∧ row.tx = tx then
        { row with attempt := some token } else row).device = row.device := by
      intro row
      split_ifs <;> rfl
    simpa [Function.comp_def, same] using owners.devices
  transactions := by
    have same : ∀ row : OwnerRow, (if row.device = device ∧ row.tx = tx then
        { row with attempt := some token } else row).tx = row.tx := by
      intro row
      split_ifs <;> rfl
    simpa [Function.comp_def, same] using owners.transactions

/-- `DELETE FROM owners WHERE device=? AND tx=?`. -/
def release (owners : Owners) (device tx : String) : Owners where
  rows := owners.rows.filter fun row => ¬(row.device = device ∧ row.tx = tx)
  devices := owners.devices.sublist (List.filter_sublist.map _)
  transactions := owners.transactions.sublist (List.filter_sublist.map _)

end Owners

structure Store where
  transactions : Table TransactionRow.id
  owners : Owners
  journal : Table JournalRow.key

namespace Store

variable (store : Store)

def row (tx : String) : Option TransactionRow :=
  store.transactions.find tx

/-- `UPDATE transactions SET … WHERE id=?`. -/
def modify (tx : String) (change : TransactionRow → TransactionRow)
    (keeps : ∀ row, (change row).id = row.id) : Store :=
  { store with transactions := store.transactions.update (fun row => row.id = tx) change keeps }

def empty : Store where
  transactions := Table.empty
  owners := ⟨[], List.nodup_nil, List.nodup_nil⟩
  journal := Table.empty

end Store

/-- The row that a statement selects and unpacks. -/
def fetched {ρ : Type} : Option ρ → Except Failure ρ
  | some row => .ok row
  | none => .error .raised

/-- What a Start saw of its transaction. -/
structure Reservation where
  state : TransferState
  stopSerial : Nat
  acknowledgedStopSerial : Nat
  deriving Repr, DecidableEq

/-- Only a Start issued after this exact stop was acknowledged may resume. -/
def Reservation.resumes (reservation : Reservation) (row : TransactionRow) : Bool :=
  reservation.state = row.state && row.state = stopped &&
    reservation.stopSerial = reservation.acknowledgedStopSerial &&
    reservation.acknowledgedStopSerial = row.stopSerial &&
    row.stopSerial = row.acknowledgedStopSerial

/-- An execution attempt: its owner and its token. -/
structure Attempt where
  owner : String
  token : String
  deriving Repr, DecidableEq

/-- What a call returns. -/
inductive Outcome where
  | none
  | status (state : TransferState) (reason : String)
  | reservation (reservation : Reservation)
  | head (seq : Nat) (digest : String)
  deriving Repr, DecidableEq

section Calls

variable (sha : Digester) (casefold : String → String) (store : Store)

/-- `create`, after the checks of the plan and its approval. -/
def create (tx : String) (plan : TransferPlan) : Except Failure Store :=
  match store.transactions.insert? ⟨tx, plan, plan.sealHash, ready, false, "", 0, "", 0, 0, none⟩ with
  | some transactions => .ok { store with transactions }
  | none => .error .raised

def approve (tx expectedSeal : String) : Except Failure Store := do
  require (store.transactions.has tx) (refuse "TRANSACTION_MISSING" tx)
  let row ← fetched (store.row tx)
  require (row.plan.sealHash = row.sealHash) (refuse "STATE_CORRUPT" "plan seal differs")
  require (row.sealHash = expectedSeal) (refuse "PREVIEW_STALE" "")
  require ([ready, approved].contains row.state) (refuse "APPROVAL_STATE" row.state.value)
  return store.modify tx (fun row => if row.state = ready then { row with state := approved } else row)
    (fun row => by split_ifs <;> rfl)

/-- The claim of another transaction does not stand in the way. -/
def compatible (plan : TransferPlan) (owner : OwnerRow) : Except Failure Unit :=
  match store.row owner.tx with
  | none => .ok ()
  | some other => do
      require (other.plan.sealHash = other.sealHash)
        (refuse "STATE_CORRUPT" "existing claim has a corrupt plan")
      let overlap ← claimsOverlap casefold plan other.plan
      require (!overlap) (refuse "DESTINATION_BUSY" owner.tx)

/-- `inspect` of `reserve`: a complete transaction, or the owner of its device and a reservation. -/
def inspect (tx device : String) : Except Failure (Option (Option OwnerRow × Reservation)) := do
  let row ← fetched (store.row tx)
  require (row.plan.sealHash = row.sealHash ∧ row.plan.deviceId sha = device)
    (refuse "STATE_CORRUPT" "reservation differs from sealed plan")
  if row.state = complete then
    return none
  else do
    thread (fun _ owner => compatible casefold store row.plan owner) ()
      (store.owners.rows.filter fun owner => owner.tx ≠ tx)
    let owner := store.owners.find device
    require (owner.all fun owner => owner.tx = tx)
      (refuse "DESTINATION_BUSY" ((owner.map OwnerRow.tx).getD ""))
    require (resumable.contains row.state)
      (refuse (if row.state = ready then "APPROVAL_MISSING" else "NOT_RESUMABLE") row.state.value)
    return some (owner, ⟨row.state, row.stopSerial, row.acknowledgedStopSerial⟩)

/-- The reader of `reserve`, whose reservation the caller keeps. -/
def reserveRead (tx device : String) : Except Failure Outcome := do
  match ← inspect sha casefold store tx device with
  | none => return .status complete ""
  | some (_, reservation) => return .reservation reservation

/-- The writer of `reserve`. -/
def reserveWrite (tx device : String) : Except Failure Store := do
  match ← inspect sha casefold store tx device with
  | none => return store
  | some (owner, _) =>
      let claimed := { store with owners := store.owners.insertOrIgnore device tx }
      if owner.isNone then
        return claimed.modify tx (fun row => { row with state := starting, reason := "" }) fun _ => rfl
      else return claimed

/-- The owner of a device is this transaction. -/
def ownedBy (device tx : String) : Bool :=
  (store.owners.find device).any fun owner => owner.tx = tx

def guardPreclaim (tx device : String) (reservation : Reservation) : Except Failure Unit := do
  let row ← fetched (store.row tx)
  require (ownedBy store device tx) (refuse "EXECUTION_FENCE_LOST" "")
  require (!row.stop || reservation.resumes row) (refuse "STOPPED" "")
  require (resumable.contains row.state) (refuse "NOT_RESUMABLE" row.state.value)

def refusePreclaim (tx device : String) (reservation : Reservation) (refusal : TransferRefusal)
    (interrupted : Bool) : Except Failure (Store × Outcome) := do
  require (ownedBy store device tx) (refuse "EXECUTION_FENCE_LOST" "")
  let row ← fetched (store.row tx)
  require (resumable.contains row.state) (refuse "NOT_RESUMABLE" row.state.value)
  let pending := row.stop && !reservation.resumes row
  let serial := if interrupted && !pending then row.stopSerial + 1 else row.stopSerial
  if pending || interrupted || refusal.code = "STOPPED" then
    return (store.modify tx (fun row =>
      { row with
        state := stopped
        reason := "STOPPED"
        stop := true
        stopSerial := serial
        acknowledgedStopSerial := serial }) fun _ => rfl, .status stopped "STOPPED")
  else
    let state := refusalState refusal.code
    return (store.modify tx (fun row => { row with state := state, reason := refusal.text, stop := false })
      fun _ => rfl, .status state refusal.text)

def claim (tx device : String) (attempt : Attempt) (reservation : Reservation) :
    Except Failure (Store × Outcome) := do
  let row ← fetched (store.row tx)
  if row.state = complete then
    return (store, .status complete "")
  else do
    require (resumable.contains row.state) (refuse "NOT_RESUMABLE" row.state.value)
    require (ownedBy store device tx && attempt.owner = tx) (refuse "EXECUTION_FENCE_LOST" "")
    require (row.plan.sealHash = row.sealHash ∧ row.plan.deviceId sha = device)
      (refuse "STATE_CORRUPT" "claim differs from sealed intent")
    require (!row.plan.sessionOnly || row.consumedAttempt.isNone)
      (refuse "FAT32_NEW_ROOT_REQUIRED" "this intent has spent its only attempt")
    let published := { store with owners := store.owners.publish device tx attempt.token }
    if row.stop && !reservation.resumes row then
      return (published.modify tx (fun row =>
        { row with
          state := stopped
          reason := "STOPPED"
          acknowledgedStopSerial := row.stopSerial }) fun _ => rfl, .status stopped "STOPPED")
    else
      let consumed := if row.plan.sessionOnly then some attempt.token else row.consumedAttempt
      return (published.modify tx (fun row =>
        { row with
          consumedAttempt := consumed
          state := starting
          reason := ""
          stop := false }) fun _ => rfl, .status starting "")

/-- `_require_attempt`: the row of an attempt that is published for its device. -/
def requireAttempt (attempt : Attempt) (device : String) (allowStop : Bool) :
    Except Failure TransactionRow := do
  match store.row attempt.owner with
  | none => .error (refuse "EXECUTION_FENCE_LOST" "")
  | some row =>
      let published := (store.owners.find device).any fun owner =>
        owner.tx = attempt.owner && owner.attempt = some attempt.token
      require (published && running.contains row.state)
        (refuse (if terminal.contains row.state then "NOT_RESUMABLE" else "EXECUTION_FENCE_LOST")
          (if published then "execution state does not permit this operation"
            else "execution attempt differs"))
      require (!row.stop || allowStop) (refuse "STOPPED" "")
      return row

def transition (attempt : Attempt) (device : String) (state : TransferState) (reason : String) :
    Except Failure (Store × Outcome) := do
  require (running.contains state || [failed, invalidated].contains state)
    (refuse "STATE_TRANSITION_INVALID" state.value)
  let row ← requireAttempt store attempt device true
  let stops := row.stop && !([failed, invalidated].contains state)
  let next := if stops then stopped else state
  let text := if stops then "STOPPED" else reason
  require (row.state.transitions.contains next)
    (refuse "STATE_TRANSITION_INVALID" (row.state.value ++ " -> " ++ next.value))
  return (store.modify attempt.owner (fun row =>
    { row with
      state := next
      reason := text
      acknowledgedStopSerial := if next = stopped then row.stopSerial else row.acknowledgedStopSerial })
    fun _ => rfl, .status next text)

/-- A stop of an unknown transaction changes no row. -/
def requestStop (tx : String) : Store :=
  store.modify tx (fun row => { row with stop := true, stopSerial := row.stopSerial + 1 }) fun _ => rfl

def eventDigest (tx : String) (seq : Nat) (previous event payload : String) : String :=
  sha.hash (Json.arr [.str tx, .int seq, .str previous, .str event, .str payload]).dumps

def append (tx event payload : String) (expectedHead : Option (Nat × String)) (attempt : Attempt)
    (device : String) : Except Failure (Store × Outcome) := do
  let row ← requireAttempt store attempt device false
  require ([transferring, verifying].contains row.state)
    (refuse "STATE_TRANSITION_INVALID" ("journal append in " ++ row.state.value))
  require (attempt.owner = tx) (refuse "EXECUTION_FENCE_LOST" "")
  require (expectedHead.all fun head => head = (row.journalSeq, row.journalDigest))
    (refuse "JOURNAL_CORRUPT" "journal changed outside its fenced writer")
  let seq := row.journalSeq + 1
  let digest := eventDigest sha tx seq row.journalDigest event payload
  let journal ← fetched (store.journal.insert? ⟨tx, seq, event, payload, digest⟩)
  return ({ store with journal }.modify tx (fun row =>
    { row with journalSeq := seq, journalDigest := digest }) fun _ => rfl, .head seq digest)

/-- The journal of a transaction in order, checked against its digests and its head. -/
def events (tx : String) : Except Failure (List (String × String)) := do
  let rows := sortBy JournalRow.seq (store.journal.rows.filter fun row => row.tx = tx)
  let (_, previous) ← thread (fun (state : Nat × String) (row : JournalRow) => do
    require (row.seq = state.1 + 1 ∧
        row.digest = eventDigest sha tx row.seq state.2 row.event row.payload)
      (refuse "JOURNAL_CORRUPT" "")
    return (row.seq, row.digest)) (0, "") rows
  require ((store.row tx).any fun row => row.journalSeq = rows.length ∧ row.journalDigest = previous)
    (refuse "JOURNAL_CORRUPT" "journal tail differs from durable head")
  return rows.map fun row => (row.event, row.payload)

/-- The payload of the last receipt. -/
def receipt (tx : String) : Except Failure (Option String) := do
  let events ← events sha store tx
  return (events.reverse.find? (·.1 == "receipt")).map Prod.snd

/-- The receipt is read first; the journal keeps what it has. -/
def completeAttempt (attempt : Attempt) (device : String) : Except Failure Store := do
  let found ← receipt sha store attempt.owner
  require found.isSome (refuse "RECEIPT_MISSING" "")
  let row ← requireAttempt store attempt device false
  require (row.state = verifying) (refuse "STATE_TRANSITION_INVALID" ("completion in " ++ row.state.value))
  let completed := store.modify attempt.owner (fun row => { row with state := complete, reason := "" })
    fun _ => rfl
  return { completed with owners := completed.owners.release device attempt.owner }

end Calls

end Modelark.Slice
