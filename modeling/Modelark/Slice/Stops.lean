import Modelark.Slice.Fences

/-!
# Stops

A stop holds until it was acknowledged and a Start that was reserved after that consumed it, however the
calls of the processes interleave.
-/

namespace Modelark.Slice

open Library Proposal TransferState

section Changes

variable {tx : String} {call : Call} {before after : TransactionRow}

theorem Change.serial (change : Change tx call before after) : before.stopSerial ≤ after.stopSerial := by
  cases change with
  | stopRefused resumes later => exact later
  | stopRequested => exact Nat.le_succ _
  | _ => exact Nat.le_refl _

theorem Change.acknowledged (change : Change tx call before after)
    (bound : before.acknowledgedStopSerial ≤ before.stopSerial) :
    after.acknowledgedStopSerial ≤ after.stopSerial := by
  cases change with
  | moved runs allowed halts =>
      dsimp only
      split_ifs
      · exact Nat.le_refl _
      · exact bound
  | stopRefused | stopClaimed => exact Nat.le_refl _
  | stopRequested => exact Nat.le_succ_of_le bound
  | _ => exact bound

/-- An acknowledgement stops the transaction with the serial of its last stop. -/
theorem Change.acknowledges (change : Change tx call before after)
    (rises : before.acknowledgedStopSerial < after.acknowledgedStopSerial) :
    after.state = stopped ∧ after.acknowledgedStopSerial = after.stopSerial := by
  cases change with
  | moved runs allowed halts =>
      dsimp only at rises ⊢
      split_ifs at rises ⊢ with stops
      · exact ⟨stops, rfl⟩
      · omega
  | stopRefused | stopClaimed => exact ⟨rfl, rfl⟩
  | _ => exact absurd rises (Nat.lt_irrefl _)

/-- A call that consumes a reservation: a claim, or a refusal before one. -/
def Consumes (tx : String) (reservation : Reservation) (call : Call) : Prop :=
  (∃ device attempt, call = .claim tx device attempt reservation) ∨
    ∃ device refusal, call = .refusePreclaim tx device reservation refusal false

/-- Only a reservation that resumes clears the flag. -/
theorem Change.clears (change : Change tx call before after) (flag : before.stop = true)
    (clear : after.stop = false) : ∃ reservation, Consumes tx reservation call ∧
      reservation.resumes before = true := by
  cases change with
  | refused resumes consumes => exact ⟨_, .inr ⟨_, _, rfl⟩, consumes flag⟩
  | claimed resumes consumes unspent => exact ⟨_, .inl ⟨_, _, rfl⟩, consumes flag⟩
  | stopRefused | stopRequested => cases clear
  | _ => cases flag.symm.trans clear

theorem resumes_serial {reservation : Reservation} {row : TransactionRow}
    (resumes : reservation.resumes row = true) : reservation.acknowledgedStopSerial = row.stopSerial := by
  simp only [Reservation.resumes, Bool.and_eq_true, decide_eq_true_eq] at resumes
  exact resumes.1.2

end Changes

section Every

variable (sha : Digester) (casefold : String → String)

/-- The stop flag of a transaction is set. -/
def Flagged (world : World) (tx : String) : Prop :=
  ∃ row, world.store.row tx = some row ∧ row.stop = true

/-- A journal append or a completion of a transaction. -/
def Writes (tx : String) : Call → Prop
  | .append other .. => other = tx
  | .complete attempt _ => attempt.owner = tx
  | _ => False

/-- The call stops the transaction and acknowledges the stop with this serial. -/
def Acknowledges (tx : String) (serial : Nat) (world : World) (call : Call) : Prop :=
  (∀ row, world.store.row tx = some row → row.acknowledgedStopSerial < serial) ∧
    ∃ row, (World.step sha casefold world call).store.row tx = some row ∧ row.state = stopped ∧
      row.acknowledgedStopSerial = row.stopSerial ∧ serial ≤ row.acknowledgedStopSerial

/-- The call succeeds and clears the flag. -/
def Clears (tx : String) (world : World) (call : Call) : Prop :=
  Succeeds sha casefold world call ∧ Flagged world tx ∧ ¬Flagged (World.step sha casefold world call) tx

/-- The stop was acknowledged, then a Start took its reservation, and a call that consumed that reservation
cleared the flag. -/
def Resumed (tx : String) (serial : Nat) (before middle : List Call) : Prop :=
  ∃ first acknowledge second device third consume rest reservation,
    middle = first ++ acknowledge :: (second ++ .reserveRead tx device :: (third ++ consume :: rest)) ∧
    Acknowledges sha casefold tx serial (World.after sha casefold (before ++ first)) acknowledge ∧
    Returns sha casefold (World.after sha casefold (before ++ first ++ acknowledge :: second))
      (.reserveRead tx device) (.reservation reservation) ∧
    serial ≤ reservation.acknowledgedStopSerial ∧ Consumes tx reservation consume ∧
    Clears sha casefold tx (World.after sha casefold
      (before ++ (first ++ acknowledge :: (second ++ .reserveRead tx device :: third)))) consume

variable {sha casefold}

theorem free_of_write {world : World} {tx : String} {call : Call} (writes : Writes tx call)
    (succeeds : Succeeds sha casefold world call) : ¬Flagged world tx := by
  have free : ∃ row, world.store.row tx = some row ∧ row.stop = false := by
    obtain ⟨next, outcome, done⟩ := succeeds
    cases call with
    | append other event payload expectedHead attempt device =>
        obtain rfl : other = tx := writes
        simp only [perform, append, bind_eq_ok, require_eq_ok, decide_eq_true_eq] at done
        obtain ⟨row, held, _, _, _, owner, _⟩ := done
        obtain ⟨found, _, _, free⟩ := requireAttempt_eq_ok.mp held
        exact ⟨row, owner ▸ found, by simpa using free⟩
    | complete attempt device =>
        obtain rfl : attempt.owner = tx := writes
        obtain ⟨after, completed, _⟩ := map_eq_ok.mp done
        simp only [completeAttempt, bind_eq_ok] at completed
        obtain ⟨_, _, _, _, row, held, _⟩ := completed
        obtain ⟨found, _, _, free⟩ := requireAttempt_eq_ok.mp held
        exact ⟨row, found, by simpa using free⟩
    | _ => exact writes.elim
  rintro ⟨row, found, flag⟩
  obtain ⟨row', found', free⟩ := free
  cases found.symm.trans found'
  cases flag.symm.trans free

/-- The reservation that a call adds was read by it. -/
theorem read_of_captured {world : World} {call : Call} {pair : String × Reservation}
    (absent : pair ∉ world.reservations)
    (present : pair ∈ (World.step sha casefold world call).reservations) :
    ∃ device, call = .reserveRead pair.1 device ∧
      Returns sha casefold world call (.reservation pair.2) := by
  unfold World.step at present
  split at present
  · rename_i store outcome done
    rcases List.mem_append.mp present with new | old
    · unfold captured at new
      split at new
      · obtain rfl := List.mem_singleton.mp new
        exact ⟨_, rfl, store, done⟩
      · cases new
    · exact absurd old absent
  · exact absurd present absent

/-- A reservation holds the serials of its transaction. -/
theorem reservation_of_read {world : World} {tx device : String} {reservation : Reservation}
    (read : Returns sha casefold world (.reserveRead tx device) (.reservation reservation)) :
    ∃ row, world.store.row tx = some row ∧
      reservation = ⟨row.state, row.stopSerial, row.acknowledgedStopSerial⟩ := by
  obtain ⟨next, done⟩ := read
  obtain ⟨outcome, reserved, same⟩ := map_eq_ok.mp done
  cases same
  simp only [reserveRead, bind_eq_ok] at reserved
  obtain ⟨inspected, seen, made⟩ := reserved
  cases inspected with
  | none => cases made
  | some pair =>
      cases made
      obtain ⟨row, inspected⟩ := inspect_eq_ok seen
      exact ⟨row, inspected.found, inspected.taken⟩

theorem acknowledged_run (calls : List Call) {tx : String} {row : TransactionRow}
    (found : (World.after sha casefold calls).store.row tx = some row) :
    row.acknowledgedStopSerial ≤ row.stopSerial :=
  rows_invariant sha casefold (fun _ _ => Nat.le_refl 0) (fun change => change.acknowledged) calls found

theorem serial_run (sha : Digester) (casefold : String → String) (calls : List Call) {world : World}
    {tx : String} {row : TransactionRow} (found : world.store.row tx = some row) :
    ∃ after, (run (World.step sha casefold) world calls).store.row tx = some after ∧
      row.stopSerial ≤ after.stopSerial :=
  run_row sha casefold (fun after => row.stopSerial ≤ after.stopSerial)
    (fun change bound => Nat.le_trans bound change.serial) calls found (Nat.le_refl _)

/-- A reservation knows no stop later than the last of its transaction. -/
theorem reservation_bound (calls : List Call) {tx : String} {reservation : Reservation}
    (taken : (tx, reservation) ∈ (World.after sha casefold calls).reservations) :
    ∃ row, (World.after sha casefold calls).store.row tx = some row ∧
      reservation.acknowledgedStopSerial ≤ row.stopSerial := by
  have fresh : (tx, reservation) ∉ World.start.reservations := by simp [World.start]
  obtain ⟨before, call, later, rfl, absent, present⟩ :=
    run_origin (p := fun world : World => (tx, reservation) ∈ world.reservations)
      (World.step sha casefold) fresh taken
  obtain ⟨device, rfl, read⟩ := read_of_captured absent present
  obtain ⟨row, found, rfl⟩ := reservation_of_read read
  have bound := acknowledged_run before found
  rw [after_append]
  obtain ⟨after, made, rises⟩ := serial_run sha casefold (.reserveRead tx device :: later) found
  exact ⟨after, made, Nat.le_trans bound rises⟩

variable {tx : String} {before middle : List Call} {row : TransactionRow}

/-- Right after a stop: the flag is set, its serial is new, and no reservation knows it. -/
theorem stop_requested (found : (World.after sha casefold before).store.row tx = some row) :
    (World.after sha casefold (before ++ [.requestStop tx])).store.row tx =
      some { row with stop := true, stopSerial := row.stopSerial + 1 } := by
  rw [after_snoc, step_of_done rfl, requestStop, row_modify, if_pos rfl, found]
  rfl

/-- The call in whose step the acknowledged serial reaches that of a stop acknowledges it. -/
theorem acknowledges_of_rise {start : World} {calls : List Call} {call : Call} {serial : Nat}
    (there : start.store.row tx = some row)
    (unacknowledged : ¬∃ row', (run (World.step sha casefold) start calls).store.row tx = some row' ∧
      serial ≤ row'.acknowledgedStopSerial)
    (acknowledged : ∃ row', (World.step sha casefold (run (World.step sha casefold) start calls)
      call).store.row tx = some row' ∧ serial ≤ row'.acknowledgedStopSerial) :
    Acknowledges sha casefold tx serial (run (World.step sha casefold) start calls) call := by
  have below : ∀ row', (run (World.step sha casefold) start calls).store.row tx = some row' →
      row'.acknowledgedStopSerial < serial :=
    fun row' found => Nat.lt_of_not_le fun known => unacknowledged ⟨row', found, known⟩
  obtain ⟨old, present, _⟩ := serial_run sha casefold calls there
  obtain ⟨after, made, known⟩ := acknowledged
  have carried := step_carried sha casefold (run (World.step sha casefold) start calls) call tx
  rw [present, made] at carried
  have stops := carried.change.acknowledges (Nat.lt_of_lt_of_le (below old present) known)
  exact ⟨below, after, made, stops.1, stops.2, known⟩

/-- A call after which the flag is not set any more has cleared it. -/
theorem clears_of_unflagged {world : World} {call : Call} (flagged : Flagged world tx)
    (clear : ¬Flagged (World.step sha casefold world call) tx) : Clears sha casefold tx world call := by
  refine ⟨?_, flagged, clear⟩
  cases done : perform sha casefold world.store call with
  | ok result => exact ⟨result.1, result.2, done⟩
  | error refusal =>
      refine absurd ?_ clear
      simp only [World.step, done, Flagged] at flagged ⊢
      exact flagged

/-- The flag stays until the stop has been resumed. -/
theorem resumed_of_clear (found : (World.after sha casefold before).store.row tx = some row)
    (permitted : Permitted (World.step sha casefold) Allowed World.start
      (before ++ [.requestStop tx] ++ middle))
    (clear : ¬Flagged (World.after sha casefold (before ++ [.requestStop tx] ++ middle)) tx) :
    Resumed sha casefold tx (row.stopSerial + 1) (before ++ [.requestStop tx]) middle := by
  have stopped := stop_requested found
  rw [after_append] at clear
  -- the call that clears the flag consumes a reservation with the last serial
  obtain ⟨upTo, consume, rest, rfl, flagged, cleared⟩ :=
    run_origin (p := fun world : World => ¬Flagged world tx) (World.step sha casefold)
      (not_not_intro ⟨_, stopped, rfl⟩) clear
  have clears := clears_of_unflagged (not_not.mp flagged) cleared
  obtain ⟨current, present, flag⟩ := not_not.mp flagged
  have consumed : ∃ reservation, Consumes tx reservation consume ∧
      reservation.resumes current = true := by
    have carried := step_carried sha casefold
      (run (World.step sha casefold) (World.after sha casefold (before ++ [.requestStop tx])) upTo)
      consume tx
    rw [present] at carried
    obtain ⟨after, made, _⟩ := carried.persists
    rw [made] at carried
    apply carried.change.clears flag
    cases still : after.stop with
    | false => rfl
    | true => exact absurd ⟨after, made, still⟩ cleared
  obtain ⟨reservation, consumes, resumes⟩ := consumed
  have late : row.stopSerial + 1 ≤ reservation.acknowledgedStopSerial := by
    obtain ⟨after, made, rises⟩ := serial_run sha casefold upTo stopped
    cases present.symm.trans made
    rw [resumes_serial resumes]
    exact rises
  -- that reservation was read after the stop
  have taken : (tx, reservation) ∈ (run (World.step sha casefold)
      (World.after sha casefold (before ++ [.requestStop tx])) upTo).reservations := by
    have allowed := permitted (before ++ [.requestStop tx] ++ upTo) consume rest (by simp)
    rw [run_append] at allowed
    apply allowed.reserved
    rcases consumes with ⟨_, _, rfl⟩ | ⟨_, _, rfl⟩ <;> rfl
  have fresh : (tx, reservation) ∉
      (World.after sha casefold (before ++ [.requestStop tx])).reservations := by
    rw [after_snoc]
    intro old
    obtain ⟨row', found', bound⟩ := reservation_bound before old
    cases found.symm.trans found'
    omega
  obtain ⟨early, read, between, rfl, absent, reads⟩ :=
    run_origin (p := fun world : World => (tx, reservation) ∈ world.reservations)
      (World.step sha casefold) fresh taken
  obtain ⟨device, rfl, returned⟩ := read_of_captured absent reads
  obtain ⟨seen, there, rfl⟩ := reservation_of_read returned
  -- and the stop was acknowledged before that
  have unknown : ¬∃ row', (World.after sha casefold (before ++ [.requestStop tx])).store.row tx =
      some row' ∧ row.stopSerial + 1 ≤ row'.acknowledgedStopSerial := by
    rintro ⟨row', found', known⟩
    cases stopped.symm.trans found'
    have bound := acknowledged_run before found
    dsimp only at known
    omega
  obtain ⟨first, acknowledge, second, rfl, unacknowledged, acknowledged⟩ :=
    run_origin (p := fun world : World => ∃ row', world.store.row tx = some row' ∧
      row.stopSerial + 1 ≤ row'.acknowledgedStopSerial) (World.step sha casefold) unknown
      ⟨seen, there, late⟩
  refine ⟨first, acknowledge, second, device, between, consume, rest, _, by simp, ?_, ?_, late, consumes, ?_⟩
  · rw [after_append]
    exact acknowledges_of_rise stopped unacknowledged acknowledged
  · rw [List.append_assoc, after_append]
    exact returned
  · rw [after_append]
    simpa using clears

/-- A reservation from before a stop does not resume its transaction after it. -/
theorem stops_of_earlier {reservation : Reservation} {call : Call} {outcome : Outcome}
    (found : (World.after sha casefold before).store.row tx = some row)
    (taken : (tx, reservation) ∈ (World.after sha casefold before).reservations)
    (flagged : Flagged (World.after sha casefold (before ++ [.requestStop tx] ++ middle)) tx)
    (presents : presented call = some (tx, reservation))
    (returns : Returns sha casefold (World.after sha casefold (before ++ [.requestStop tx] ++ middle))
      call outcome) : outcome = .status stopped "STOPPED" ∨ outcome = .status complete "" := by
  obtain ⟨current, present, flag⟩ := flagged
  have stale : reservation.resumes current = false := by
    rw [Bool.eq_false_iff]
    intro resumes
    have same := resumes_serial resumes
    obtain ⟨row', found', bound⟩ := reservation_bound before taken
    cases found.symm.trans found'
    have later := present
    rw [after_append] at later
    obtain ⟨after, made, rises⟩ := serial_run sha casefold middle (stop_requested found)
    cases later.symm.trans made
    dsimp only at rises
    omega
  obtain ⟨next, done⟩ := returns
  cases call with
  | guardPreclaim other device reservation' =>
      cases presents
      obtain ⟨_, guarded, _⟩ := map_eq_ok.mp done
      simp only [guardPreclaim, bind_eq_ok, require_eq_ok, fetched_eq_ok] at guarded
      obtain ⟨row', found', _, _, _, open', _⟩ := guarded
      cases present.symm.trans found'
      simp [flag, stale] at open'
  | refusePreclaim other device reservation' refusal interrupted =>
      cases presents
      simp only [perform, refusePreclaim, bind_eq_ok, require_eq_ok, fetched_eq_ok] at done
      obtain ⟨_, _, row', found', _, _, made⟩ := done
      cases present.symm.trans found'
      simp only [flag, stale, Bool.not_false, Bool.and_self, Bool.true_or, if_true] at made
      cases made
      exact .inl rfl
  | claim other device attempt reservation' =>
      cases presents
      obtain ⟨row', found', ⟨_, _, ended⟩ | ⟨_, ⟨_, _, _, stops⟩ | ⟨consumes, _⟩⟩⟩ := claim_eq_ok done
      · exact .inr ended
      · exact .inl stops
      · cases present.symm.trans found'
        cases stale.symm.trans (consumes flag)
  | _ => cases presents

variable (sha casefold) in
/-- What a stop keeps from the writes of its transaction. -/
structure StopsHold (calls : List Call) : Prop where
  /-- After a stop nothing is written until it was acknowledged and resumed. -/
  held : ∀ before middle write later tx row,
    calls = before ++ [.requestStop tx] ++ middle ++ write :: later →
    (World.after sha casefold before).store.row tx = some row → Writes tx write →
    Succeeds sha casefold (World.after sha casefold (before ++ [.requestStop tx] ++ middle)) write →
      Resumed sha casefold tx (row.stopSerial + 1) (before ++ [.requestStop tx]) middle
  /-- The flag is cleared by nothing but a reservation of the acknowledged stop. -/
  cleared : ∀ before call later tx row, calls = before ++ call :: later →
    (World.after sha casefold before).store.row tx = some row → row.stop = true →
    ¬Flagged (World.after sha casefold (before ++ [call])) tx →
      ∃ reservation, Consumes tx reservation call ∧ reservation.resumes row = true
  /-- While the flag is set, a Start that was reserved before the stop is stopped. -/
  kept : ∀ before middle call later tx row reservation outcome,
    calls = before ++ [.requestStop tx] ++ middle ++ call :: later →
    (World.after sha casefold before).store.row tx = some row →
    (tx, reservation) ∈ (World.after sha casefold before).reservations →
    Flagged (World.after sha casefold (before ++ [.requestStop tx] ++ middle)) tx →
    presented call = some (tx, reservation) →
    Returns sha casefold (World.after sha casefold (before ++ [.requestStop tx] ++ middle)) call outcome →
      outcome = .status stopped "STOPPED" ∨ outcome = .status complete ""

/-- However the calls interleave, with reservations presented by those who read them, stops hold. -/
theorem stops_hold {calls : List Call}
    (permitted : Permitted (World.step sha casefold) Allowed World.start calls) :
    StopsHold sha casefold calls where
  held before middle write later tx row split found writes succeeds := by
    subst split
    exact resumed_of_clear found (permitted_append.mp permitted).1 (free_of_write writes succeeds)
  cleared before call later tx row _ found flag clear := by
    rw [after_snoc] at clear
    have carried := step_carried sha casefold (World.after sha casefold before) call tx
    rw [found] at carried
    obtain ⟨after, made, _⟩ := carried.persists
    rw [made] at carried
    apply carried.change.clears flag
    cases still : after.stop with
    | false => rfl
    | true => exact absurd ⟨after, made, still⟩ clear
  kept before middle call later tx row reservation outcome _ := stops_of_earlier

end Every

section Sample

/-- A Start that transfers, and another that is reserved meanwhile. -/
def beforeStop : List Call :=
  [.create "t" usbPlan, .approve "t" "usb", .reserveRead "t" "usb", .reserveWrite "t" "usb",
    .claim "t" "usb" ⟨"t", "first"⟩ ⟨approved, 0, 0⟩,
    .transition ⟨"t", "first"⟩ "usb" transferring "", .reserveRead "t" "usb"]

/-- The stop is acknowledged, a third Start finds its source missing, and the second one goes on. -/
def afterStop : List Call :=
  [.transition ⟨"t", "first"⟩ "usb" stopped "", .reserveRead "t" "usb",
    .refusePreclaim "t" "usb" ⟨stopped, 1, 1⟩ ⟨"WAITING_SOURCE", ""⟩ false,
    .claim "t" "usb" ⟨"t", "second"⟩ ⟨transferring, 0, 0⟩,
    .transition ⟨"t", "second"⟩ "usb" transferring ""]

def lateAppend : Call :=
  .append "t" "planned" "" none ⟨"t", "second"⟩ "usb"

theorem afterStop_permitted : Permitted (World.step marked id) Allowed World.start
    (beforeStop ++ [.requestStop "t"] ++ afterStop ++ [lateAppend]) := by
  decide +kernel

theorem stops_hold_afterStop :
    StopsHold marked id (beforeStop ++ [.requestStop "t"] ++ afterStop ++ [lateAppend]) :=
  stops_hold afterStop_permitted

/-- The reservation of a claim. -/
def claimedWith : Call → Option (String × Reservation)
  | .claim tx _ _ reservation => some (tx, reservation)
  | _ => none

/-- The append succeeds, and the only claim after the stop was reserved before it. -/
theorem append_after_stop :
    Permitted (World.step marked id) Allowed World.start
        (beforeStop ++ [.requestStop "t"] ++ afterStop ++ [lateAppend]) ∧
      (perform marked id (World.after marked id
        (beforeStop ++ [.requestStop "t"] ++ afterStop)).store lateAppend).isOk = true ∧
      afterStop.filterMap claimedWith = [("t", ⟨transferring, 0, 0⟩)] ∧
      ("t", ⟨transferring, 0, 0⟩) ∈ (World.after marked id beforeStop).reservations := by
  decide +kernel

end Sample

end Modelark.Slice
