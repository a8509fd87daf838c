import Modelark.Library.Runs
import Modelark.Slice.Store

/-!
# Calls of any processes

The store under the calls of any number of processes. A Start keeps the reservation that it read, and an
attempt has a token that was never used before.
-/

namespace Modelark.Slice

open Library Proposal TransferState

inductive Call where
  | create (tx : String) (plan : TransferPlan)
  | approve (tx expectedSeal : String)
  | reserveRead (tx device : String)
  | reserveWrite (tx device : String)
  | guardPreclaim (tx device : String) (reservation : Reservation)
  | refusePreclaim (tx device : String) (reservation : Reservation) (refusal : TransferRefusal)
      (interrupted : Bool)
  | claim (tx device : String) (attempt : Attempt) (reservation : Reservation)
  | transition (attempt : Attempt) (device : String) (state : TransferState) (reason : String)
  | requestStop (tx : String)
  | append (tx event payload : String) (expectedHead : Option (Nat × String)) (attempt : Attempt)
      (device : String)
  | complete (attempt : Attempt) (device : String)

section Perform

variable (sha : Digester) (casefold : String → String)

def perform (store : Store) : Call → Except Failure (Store × Outcome)
  | .create tx plan => (create store tx plan).map (·, .none)
  | .approve tx expectedSeal => (approve store tx expectedSeal).map (·, .none)
  | .reserveRead tx device => (reserveRead sha casefold store tx device).map (store, ·)
  | .reserveWrite tx device => (reserveWrite sha casefold store tx device).map (·, .none)
  | .guardPreclaim tx device reservation =>
      (guardPreclaim store tx device reservation).map fun _ => (store, .none)
  | .refusePreclaim tx device reservation refusal interrupted =>
      refusePreclaim store tx device reservation refusal interrupted
  | .claim tx device attempt reservation => claim sha store tx device attempt reservation
  | .transition attempt device state reason => transition store attempt device state reason
  | .requestStop tx => .ok (requestStop store tx, .none)
  | .append tx event payload expectedHead attempt device =>
      append sha store tx event payload expectedHead attempt device
  | .complete attempt device => (completeAttempt sha store attempt device).map (·, .none)

/-- The store, the reservations that callers hold and the tokens that were used. -/
structure World where
  store : Store
  reservations : List (String × Reservation)
  tokens : List String

def World.start : World := ⟨Store.empty, [], []⟩

/-- The reservation that a caller keeps. -/
def captured (call : Call) (outcome : Outcome) : List (String × Reservation) :=
  match call, outcome with
  | .reserveRead tx _, .reservation reservation => [(tx, reservation)]
  | _, _ => []

def usedToken : Call → List String
  | .claim _ _ attempt _ => [attempt.token]
  | _ => []

/-- One call; a refused one changes nothing. -/
def World.step (world : World) (call : Call) : World :=
  match perform sha casefold world.store call with
  | .ok (store, outcome) =>
      ⟨store, captured call outcome ++ world.reservations, usedToken call ++ world.tokens⟩
  | .error _ => { world with tokens := usedToken call ++ world.tokens }

def Succeeds (world : World) (call : Call) : Prop :=
  ∃ next outcome, perform sha casefold world.store call = .ok (next, outcome)

end Perform

/-- The reservation that a call presents. -/
def presented : Call → Option (String × Reservation)
  | .guardPreclaim tx _ reservation | .refusePreclaim tx _ reservation _ _
  | .claim tx _ _ reservation => some (tx, reservation)
  | _ => none

/-- Reservations are presented by those who read them, and the token of a claim is new. -/
structure Allowed (world : World) (call : Call) : Prop where
  reserved : ∀ pair, presented call = some pair → pair ∈ world.reservations
  fresh : ∀ token ∈ usedToken call, token ∉ world.tokens

instance (world : World) (call : Call) : Decidable (Allowed world call) :=
  decidable_of_iff ((∀ pair ∈ (presented call).toList, pair ∈ world.reservations) ∧
      ∀ token ∈ usedToken call, token ∉ world.tokens)
    ⟨fun both => ⟨fun pair same => both.1 pair (by simp [same]), both.2⟩,
      fun allowed => ⟨fun pair same => allowed.reserved pair (by simpa using same), allowed.fresh⟩⟩

section Rows

variable {store : Store}

theorem row_modify {tx : String} {change : TransactionRow → TransactionRow}
    {keeps : ∀ row, (change row).id = row.id} {other : String} :
    (store.modify tx change keeps).row other =
      if other = tx then (store.row other).map change else store.row other :=
  store.transactions.find_update tx keeps other

@[simp] theorem owners_modify {tx : String} {change : TransactionRow → TransactionRow}
    {keeps : ∀ row, (change row).id = row.id} : (store.modify tx change keeps).owners = store.owners := rfl

@[simp] theorem row_owners {owners : Owners} {tx : String} :
    ({ store with owners } : Store).row tx = store.row tx := rfl

@[simp] theorem row_journal {journal : Table JournalRow.key} {tx : String} :
    ({ store with journal } : Store).row tx = store.row tx := rfl

@[simp] theorem fetched_eq_ok {ρ : Type} {found : Option ρ} {row : ρ} :
    fetched found = .ok row ↔ found = some row := by
  cases found <;> simp [fetched]

end Rows

/-- How a call changes the row of a transaction, with what it has checked. -/
inductive Change (tx : String) : Call → TransactionRow → TransactionRow → Prop where
  | kept (call : Call) (row : TransactionRow) : Change tx call row row
  | approved {row : TransactionRow} {expectedSeal : String} (ready : row.state = ready) :
      Change tx (.approve tx expectedSeal) row { row with state := approved }
  | reserved {row : TransactionRow} {device : String} (resumes : row.state ∈ resumable) :
      Change tx (.reserveWrite tx device) row { row with state := starting, reason := "" }
  | stopRefused {row : TransactionRow} {device : String} {reservation : Reservation}
      {refusal : TransferRefusal} {interrupted : Bool} {serial : Nat} (resumes : row.state ∈ resumable)
      (later : row.stopSerial ≤ serial) :
      Change tx (.refusePreclaim tx device reservation refusal interrupted) row
        { row with
          state := stopped
          reason := "STOPPED"
          stop := true
          stopSerial := serial
          acknowledgedStopSerial := serial }
  | refused {row : TransactionRow} {device : String} {reservation : Reservation}
      {refusal : TransferRefusal} (resumes : row.state ∈ resumable)
      (consumes : row.stop = true → reservation.resumes row = true) :
      Change tx (.refusePreclaim tx device reservation refusal false) row
        { row with state := refusalState refusal.code, reason := refusal.text, stop := false }
  | stopClaimed {row : TransactionRow} {device : String} {attempt : Attempt} {reservation : Reservation}
      (resumes : row.state ∈ resumable) (stop : row.stop = true) (pending : reservation.resumes row = false) :
      Change tx (.claim tx device attempt reservation) row
        { row with
          state := stopped
          reason := "STOPPED"
          acknowledgedStopSerial := row.stopSerial }
  | claimed {row : TransactionRow} {device : String} {attempt : Attempt} {reservation : Reservation}
      (resumes : row.state ∈ resumable)
      (consumes : row.stop = true → reservation.resumes row = true)
      (unspent : row.plan.sessionOnly = true → row.consumedAttempt = none) :
      Change tx (.claim tx device attempt reservation) row
        { row with
          consumedAttempt := if row.plan.sessionOnly then some attempt.token else row.consumedAttempt
          state := starting
          reason := ""
          stop := false }
  | moved {row : TransactionRow} {device token : String} {state next : TransferState}
      {reason text : String} (runs : row.state ∈ running) (allowed : next ∈ row.state.transitions)
      (halts : row.stop = true → next ∈ [stopped, failed, invalidated]) :
      Change tx (.transition ⟨tx, token⟩ device state reason) row
        { row with
          state := next
          reason := text
          acknowledgedStopSerial :=
            if next = stopped then row.stopSerial else row.acknowledgedStopSerial }
  | stopRequested {row : TransactionRow} :
      Change tx (.requestStop tx) row { row with stop := true, stopSerial := row.stopSerial + 1 }
  | appended {row : TransactionRow} {event payload device token : String}
      {expectedHead : Option (Nat × String)} {seq : Nat} {digest : String}
      (free : row.stop = false) (writes : row.state ∈ [transferring, verifying]) :
      Change tx (.append tx event payload expectedHead ⟨tx, token⟩ device) row
        { row with journalSeq := seq, journalDigest := digest }
  | completed {row : TransactionRow} {device token : String} (free : row.stop = false)
      (verified : row.state = verifying) :
      Change tx (.complete ⟨tx, token⟩ device) row { row with state := complete, reason := "" }

/-- How a call carries the row of a transaction over, if it has one. -/
inductive Carried (tx : String) (call : Call) : Option TransactionRow → Option TransactionRow → Prop where
  | absent : Carried tx call none none
  | created (plan : TransferPlan) (creates : call = .create tx plan) :
      Carried tx call none (some ⟨tx, plan, plan.sealHash, ready, false, "", 0, "", 0, 0, none⟩)
  | changed {before after : TransactionRow} (change : Change tx call before after) :
      Carried tx call (some before) (some after)

section Changes

variable {sha : Digester} {casefold : String → String} {store next : Store} {outcome : Outcome}
  {tx : String}

theorem Carried.kept (call : Call) (row : Option TransactionRow) : Carried tx call row row := by
  cases row with
  | none => exact .absent
  | some row => exact .changed (.kept call row)

theorem carried_modify (store : Store) {call : Call} {other : String} {change : TransactionRow → TransactionRow}
    {keeps : ∀ row, (change row).id = row.id}
    (changes : ∀ before, store.row other = some before → tx = other →
      Change tx call before (change before)) :
    Carried tx call (store.row tx) ((store.modify other change keeps).row tx) := by
  rw [row_modify]
  split_ifs with same
  · cases found : store.row tx with
    | none => exact .absent
    | some before => exact .changed (changes before (same ▸ found) same)
  · exact Carried.kept call _

/-- The row of an attempt that may write, and what was checked of it. -/
theorem requireAttempt_eq_ok {attempt : Attempt} {device : String} {allowStop : Bool}
    {row : TransactionRow} : requireAttempt store attempt device allowStop = .ok row ↔
      store.row attempt.owner = some row ∧
        (∃ owner, store.owners.find device = some owner ∧ owner.tx = attempt.owner ∧
          owner.attempt = some attempt.token) ∧
        row.state ∈ running ∧ (row.stop = true → allowStop = true) := by
  unfold requireAttempt
  cases found : store.row attempt.owner with
  | none => simp
  | some other =>
      simp only [bind_eq_ok, require_eq_ok, Bool.and_eq_true, Option.any_eq_true, decide_eq_true_eq,
        List.contains_iff_mem, Bool.or_eq_true, Bool.not_eq_true']
      constructor
      · rintro ⟨_, ⟨published, runs⟩, _, free, same⟩
        cases same
        refine ⟨rfl, published, runs, fun stop => ?_⟩
        simpa [stop] using free
      · rintro ⟨same, published, runs, free⟩
        cases same
        refine ⟨(), ⟨published, runs⟩, (), ?_, rfl⟩
        cases stop : row.stop with
        | false => exact .inl rfl
        | true => exact .inr (free stop)

/-- What a reservation was read of, and what was checked for it. -/
structure Inspected (sha : Digester) (casefold : String → String) (store : Store) (tx device : String)
    (row : TransactionRow) (owner : Option OwnerRow) (reservation : Reservation) : Prop where
  found : store.row tx = some row
  placed : row.plan.deviceId sha = device
  clear : ∀ other ∈ store.owners.rows, other.tx ≠ tx →
    compatible casefold store row.plan other = .ok ()
  listed : owner = store.owners.find device
  own : ∀ other, owner = some other → other.tx = tx
  resumes : row.state ∈ resumable
  taken : reservation = ⟨row.state, row.stopSerial, row.acknowledgedStopSerial⟩

theorem inspect_eq_ok {tx device : String} {owner : Option OwnerRow} {reservation : Reservation}
    (seen : inspect sha casefold store tx device = .ok (some (owner, reservation))) :
    ∃ row, Inspected sha casefold store tx device row owner reservation := by
  simp only [inspect, bind_eq_ok, require_eq_ok, fetched_eq_ok] at seen
  obtain ⟨row, found, _, intact, rest⟩ := seen
  by_cases ended : row.state = complete
  · rw [if_pos ended] at rest
    cases rest
  · simp only [if_neg ended, bind_eq_ok, require_eq_ok] at rest
    obtain ⟨_, clear, _, own, _, resumes, made⟩ := rest
    cases made
    refine ⟨row, found, (of_decide_eq_true intact).2, ?_, rfl, ?_, by simpa using resumes, rfl⟩
    · intro other member apart
      exact of_thread_checks clear other (List.mem_filter.mpr ⟨member, decide_eq_true apart⟩)
    · intro other here
      simpa [here] using own

/-- A reservation claims its device; the first one starts its transaction. -/
theorem reserveWrite_eq_ok {tx device : String}
    (done : reserveWrite sha casefold store tx device = .ok next) :
    next = store ∨ ∃ row owner reservation,
      Inspected sha casefold store tx device row owner reservation ∧
        next = if owner.isNone then
            { store with owners := store.owners.insertOrIgnore device tx }.modify tx
              (fun row => { row with state := starting, reason := "" }) fun _ => rfl
          else { store with owners := store.owners.insertOrIgnore device tx } := by
  simp only [reserveWrite, bind_eq_ok] at done
  obtain ⟨inspected, seen, made⟩ := done
  cases inspected with
  | none =>
      cases made
      exact .inl rfl
  | some pair =>
      obtain ⟨row, inspected⟩ := inspect_eq_ok seen
      refine .inr ⟨row, pair.1, pair.2, inspected, ?_⟩
      dsimp only at made
      split_ifs at made with free
      · cases made
        rw [if_pos free]
      · cases made
        rw [if_neg free]

/-- What is checked before a claim publishes its attempt. -/
structure Claims (store : Store) (tx device : String) (attempt : Attempt) (row : TransactionRow) :
    Prop where
  resumes : row.state ∈ resumable
  owned : ownedBy store device tx = true
  own : attempt.owner = tx
  unspent : row.plan.sessionOnly = true → row.consumedAttempt = none

/-- A claim finds its transaction complete, observes a stop, or starts. -/
theorem claim_eq_ok {tx device : String} {attempt : Attempt} {reservation : Reservation}
    (done : claim sha store tx device attempt reservation = .ok (next, outcome)) :
    ∃ row, store.row tx = some row ∧
      (row.state = complete ∧ next = store ∧ outcome = .status complete "" ∨
        Claims store tx device attempt row ∧
          (row.stop = true ∧ reservation.resumes row = false ∧
              next = { store with owners := store.owners.publish device tx attempt.token }.modify tx
                (fun row =>
                  { row with
                    state := stopped
                    reason := "STOPPED"
                    acknowledgedStopSerial := row.stopSerial }) (fun _ => rfl) ∧
              outcome = .status stopped "STOPPED" ∨
            (row.stop = true → reservation.resumes row = true) ∧
              next = { store with owners := store.owners.publish device tx attempt.token }.modify tx
                (fun current =>
                  { current with
                    consumedAttempt :=
                      if row.plan.sessionOnly then some attempt.token else row.consumedAttempt
                    state := starting
                    reason := ""
                    stop := false }) (fun _ => rfl) ∧
              outcome = .status starting "")) := by
  simp only [claim, bind_eq_ok, fetched_eq_ok] at done
  obtain ⟨row, here, made⟩ := done
  refine ⟨row, here, ?_⟩
  by_cases ended : row.state = complete
  · rw [if_pos ended] at made
    cases made
    exact .inl ⟨ended, rfl, rfl⟩
  · simp only [if_neg ended, bind_eq_ok, require_eq_ok, List.contains_iff_mem] at made
    obtain ⟨_, resumes, _, owned, _, _, _, unspent, made⟩ := made
    simp only [Bool.and_eq_true, decide_eq_true_eq] at owned
    refine .inr ⟨⟨resumes, owned.1, owned.2, fun only => by simpa [only] using unspent⟩, ?_⟩
    by_cases stops : (row.stop && !reservation.resumes row) = true
    · rw [if_pos stops] at made
      cases made
      simp only [Bool.and_eq_true, Bool.not_eq_true'] at stops
      exact .inl ⟨stops.1, stops.2, rfl, rfl⟩
    · rw [if_neg stops] at made
      cases made
      exact .inr ⟨fun stop => by simpa [stop] using stops, rfl, rfl⟩

theorem carried_create {other : String} {plan : TransferPlan}
    (done : create store other plan = .ok next) :
    Carried tx (.create other plan) (store.row tx) (next.row tx) := by
  unfold create at done
  split at done
  · rename_i transactions inserted
    cases done
    have rows := Table.rows_insert? inserted
    cases found : store.row tx with
    | some before =>
        obtain ⟨member, named⟩ := store.transactions.find_eq_some.mp found
        have kept : transactions.find tx = some before := by
          apply (Table.find_eq_some _).mpr
          rw [rows]
          exact ⟨List.mem_append_left _ member, named⟩
        rw [show ({ store with transactions } : Store).row tx = some before from kept]
        exact .changed (.kept _ before)
    | none =>
        cases made : ({ store with transactions } : Store).row tx with
        | none => exact .absent
        | some row =>
            obtain ⟨member, named⟩ := (Table.find_eq_some _).mp made
            rw [rows, List.mem_append, List.mem_singleton] at member
            rcases member with old | rfl
            · have kept : store.row tx = some row := store.transactions.find_eq_some.mpr ⟨old, named⟩
              cases found.symm.trans kept
            · obtain rfl : other = tx := named
              exact .created plan rfl
  · cases done

theorem carried_approve {other expectedSeal : String}
    (done : approve store other expectedSeal = .ok next) :
    Carried tx (.approve other expectedSeal) (store.row tx) (next.row tx) := by
  simp only [approve, bind_eq_ok] at done
  obtain ⟨_, _, row, _, _, _, _, _, _, _, made⟩ := done
  cases made
  apply carried_modify store
  rintro before _ rfl
  split_ifs with ready
  · exact .approved ready
  · exact .kept _ _

theorem carried_reserveWrite {other device : String}
    (done : reserveWrite sha casefold store other device = .ok next) :
    Carried tx (.reserveWrite other device) (store.row tx) (next.row tx) := by
  rcases reserveWrite_eq_ok done with rfl | ⟨row, owner, reservation, inspected, rfl⟩
  · exact .kept _ _
  · split_ifs with free
    · apply carried_modify { store with owners := _ }
      rintro before found rfl
      obtain rfl : before = row := Option.some.inj (found.symm.trans inspected.found)
      exact .reserved inspected.resumes
    · exact .kept _ _

theorem carried_refusePreclaim {other device : String} {reservation : Reservation}
    {refusal : TransferRefusal} {interrupted : Bool}
    (done : refusePreclaim store other device reservation refusal interrupted = .ok (next, outcome)) :
    Carried tx (.refusePreclaim other device reservation refusal interrupted) (store.row tx)
      (next.row tx) := by
  simp only [refusePreclaim, bind_eq_ok, require_eq_ok, fetched_eq_ok, List.contains_iff_mem] at done
  obtain ⟨_, _, row, here, _, resumes, made⟩ := done
  by_cases stops : (row.stop && !reservation.resumes row || interrupted || refusal.code = "STOPPED") = true
  · rw [if_pos stops] at made
    cases made
    apply carried_modify store
    rintro before found rfl
    obtain rfl : before = row := Option.some.inj (found.symm.trans here)
    apply Change.stopRefused resumes
    split_ifs <;> omega
  · rw [if_neg stops] at made
    cases made
    apply carried_modify store
    rintro before found rfl
    obtain rfl : before = row := Option.some.inj (found.symm.trans here)
    cases interrupted with
    | true => simp at stops
    | false =>
        apply Change.refused resumes
        intro stop
        simp only [stop, Bool.true_and, Bool.or_eq_true, not_or] at stops
        simpa using stops.1

theorem carried_claim {other device : String} {attempt : Attempt} {reservation : Reservation}
    (done : claim sha store other device attempt reservation = .ok (next, outcome)) :
    Carried tx (.claim other device attempt reservation) (store.row tx) (next.row tx) := by
  obtain ⟨row, here, ⟨_, rfl, _⟩ | ⟨claims, ⟨stop, pending, rfl, _⟩ | ⟨consumes, rfl, _⟩⟩⟩ := claim_eq_ok done
  · exact .kept _ _
  · apply carried_modify { store with owners := _ }
    rintro before found rfl
    obtain rfl : before = row := Option.some.inj (found.symm.trans here)
    exact .stopClaimed claims.resumes stop pending
  · apply carried_modify { store with owners := _ }
    rintro before found rfl
    obtain rfl : before = row := Option.some.inj (found.symm.trans here)
    exact .claimed claims.resumes consumes claims.unspent

theorem carried_transition {attempt : Attempt} {device : String} {state : TransferState}
    {reason : String} (done : transition store attempt device state reason = .ok (next, outcome)) :
    Carried tx (.transition attempt device state reason) (store.row tx) (next.row tx) := by
  simp only [transition, bind_eq_ok, require_eq_ok, List.contains_iff_mem] at done
  obtain ⟨_, _, row, held, _, allowed, made⟩ := done
  obtain ⟨here, _, runs, _⟩ := requireAttempt_eq_ok.mp held
  cases made
  obtain ⟨owner, token⟩ := attempt
  apply carried_modify store
  rintro before found rfl
  obtain rfl : before = row := Option.some.inj (found.symm.trans here)
  refine .moved runs allowed fun stop => ?_
  by_cases ends : state = failed ∨ state = invalidated
  · rcases ends with rfl | rfl <;> simp [stop]
  · simp [stop, not_or.mp ends]

theorem carried_requestStop (other : String) :
    Carried tx (.requestStop other) (store.row tx) ((requestStop store other).row tx) := by
  apply carried_modify store
  rintro before _ rfl
  exact .stopRequested

theorem carried_append {other event payload device : String} {expectedHead : Option (Nat × String)}
    {attempt : Attempt} (done : append sha store other event payload expectedHead attempt device =
      .ok (next, outcome)) :
    Carried tx (.append other event payload expectedHead attempt device) (store.row tx)
      (next.row tx) := by
  simp only [append, bind_eq_ok, require_eq_ok, fetched_eq_ok, List.contains_iff_mem,
    decide_eq_true_eq] at done
  obtain ⟨row, held, _, writes, _, owner, _, _, journal, _, made⟩ := done
  obtain ⟨here, _, _, free⟩ := requireAttempt_eq_ok.mp held
  cases made
  obtain ⟨owner', token⟩ := attempt
  obtain rfl : owner' = other := owner
  apply carried_modify { store with journal := _ }
  rintro before found rfl
  obtain rfl : before = row := Option.some.inj (found.symm.trans here)
  exact .appended (by simpa using free) writes

theorem carried_complete {attempt : Attempt} {device : String}
    (done : completeAttempt sha store attempt device = .ok next) :
    Carried tx (.complete attempt device) (store.row tx) (next.row tx) := by
  simp only [completeAttempt, bind_eq_ok, require_eq_ok, decide_eq_true_eq] at done
  obtain ⟨_, _, _, _, row, held, _, verified, made⟩ := done
  obtain ⟨here, _, _, free⟩ := requireAttempt_eq_ok.mp held
  cases made
  obtain ⟨owner, token⟩ := attempt
  have moved : Carried tx (.complete ⟨owner, token⟩ device) (store.row tx)
      ((store.modify owner (fun row => { row with state := complete, reason := "" })
        fun _ => rfl).row tx) := by
    apply carried_modify store
    rintro before found rfl
    obtain rfl : before = row := Option.some.inj (found.symm.trans here)
    exact .completed (by simpa using free) verified
  exact moved

/-- A call that succeeds changes every row in one of these ways. -/
theorem carried_of_perform {call : Call} (done : perform sha casefold store call = .ok (next, outcome)) :
    Carried tx call (store.row tx) (next.row tx) := by
  cases call with
  | create other plan =>
      obtain ⟨after, created, made⟩ := map_eq_ok.mp done
      cases made
      exact carried_create created
  | approve other expectedSeal =>
      obtain ⟨after, approved, made⟩ := map_eq_ok.mp done
      cases made
      exact carried_approve approved
  | reserveRead other device =>
      obtain ⟨_, _, made⟩ := map_eq_ok.mp done
      cases made
      exact .kept _ _
  | reserveWrite other device =>
      obtain ⟨after, reserved, made⟩ := map_eq_ok.mp done
      cases made
      exact carried_reserveWrite reserved
  | guardPreclaim other device reservation =>
      obtain ⟨_, _, made⟩ := map_eq_ok.mp done
      cases made
      exact .kept _ _
  | refusePreclaim other device reservation refusal interrupted => exact carried_refusePreclaim done
  | claim other device attempt reservation => exact carried_claim done
  | transition attempt device state reason => exact carried_transition done
  | requestStop other =>
      cases done
      exact carried_requestStop other
  | append other event payload expectedHead attempt device => exact carried_append done
  | complete attempt device =>
      obtain ⟨after, completed, made⟩ := map_eq_ok.mp done
      cases made
      exact carried_complete completed

end Changes

end Modelark.Slice
