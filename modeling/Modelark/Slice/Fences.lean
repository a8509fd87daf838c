import Modelark.Proposal.Hashing
import Modelark.Slice.Claims

/-!
# Fences

However the calls interleave, only the published attempt of a transaction writes, a superseded one never
writes again, a terminal state is final, and the one attempt of a session is spent once.
-/

namespace Modelark.Slice

open Library Proposal TransferState

section Attempts

variable {sha : Digester} {casefold : String → String} {store next : Store} {outcome : Outcome}
  {call : Call} {attempt : Attempt} {device : String}

/-- The attempt is the one published for the device. -/
def Published (store : Store) (device : String) (attempt : Attempt) : Prop :=
  ⟨device, attempt.owner, some attempt.token⟩ ∈ store.owners.rows

/-- The transaction that a call writes, with its attempt and the device. -/
def writer : Call → Option (String × Attempt × String)
  | .transition attempt device _ _ | .complete attempt device => some (attempt.owner, attempt, device)
  | .append tx _ _ _ attempt device => some (tx, attempt, device)
  | _ => none

theorem published_of_require {allowStop : Bool} {row : TransactionRow}
    (held : requireAttempt store attempt device allowStop = .ok row) :
    Published store device attempt := by
  obtain ⟨_, ⟨owner, found, named, published⟩, _⟩ := requireAttempt_eq_ok.mp held
  obtain ⟨member, here⟩ := Owners.find_eq_some.mp found
  obtain ⟨device', tx, token⟩ := owner
  cases here
  cases named
  cases published
  exact member

/-- Only the published attempt of a transaction writes it. -/
theorem published_of_writer {tx : String} (done : perform sha casefold store call = .ok (next, outcome))
    (writes : writer call = some (tx, attempt, device)) :
    attempt.owner = tx ∧ Published store device attempt := by
  cases call with
  | transition attempt device state reason =>
      cases writes
      simp only [perform, transition, bind_eq_ok] at done
      obtain ⟨_, _, row, held, _⟩ := done
      exact ⟨rfl, published_of_require held⟩
  | append tx event payload expectedHead attempt device =>
      cases writes
      simp only [perform, append, bind_eq_ok, require_eq_ok, decide_eq_true_eq] at done
      obtain ⟨row, held, _, _, _, owner, _⟩ := done
      exact ⟨owner, published_of_require held⟩
  | complete attempt device =>
      cases writes
      obtain ⟨after, completed, _⟩ := map_eq_ok.mp done
      simp only [completeAttempt, bind_eq_ok] at completed
      obtain ⟨_, _, _, _, row, held, _⟩ := completed
      exact ⟨rfl, published_of_require held⟩
  | _ => cases writes

/-- A call that writes a transaction leaves the others as they were. -/
theorem others_of_writer {tx other : String} (done : perform sha casefold store call = .ok (next, outcome))
    (writes : writer call = some (tx, attempt, device)) (apart : other ≠ tx) : next.row other = store.row other := by
  have carried : Carried other call _ _ := carried_of_perform done
  generalize store.row other = before at carried
  generalize next.row other = after at carried
  cases carried with
  | absent => rfl
  | created plan creates =>
      rw [creates] at writes
      cases writes
  | changed change =>
      cases change with
      | kept => rfl
      | moved | appended | completed =>
          cases writes
          exact absurd rfl apart
      | _ => cases writes

/-- Only a claim publishes an attempt, its own. -/
theorem published_of_perform (done : perform sha casefold store call = .ok (next, outcome))
    (published : Published next device attempt) :
    Published store device attempt ∨ attempt.token ∈ usedToken call := by
  have owned := owned_of_perform done
  unfold Published at published ⊢
  generalize next.owners = owners at owned published
  cases owned with
  | kept => exact .inl published
  | reserved inspected =>
      rcases mem_insertOrIgnore published with old | same
      · exact .inl old
      · cases same
  | published claims =>
      obtain ⟨old, listed, same⟩ := List.mem_map.mp published
      split_ifs at same with here
      · simp only [OwnerRow.mk.injEq, Option.some.injEq] at same
        exact .inr (List.mem_singleton.mpr same.2.2.symm)
      · rw [same] at listed
        exact .inl listed
  | released => exact .inl (List.mem_filter.mp published).1

/-- A claim that goes through publishes its attempt in place of the one before. -/
theorem published_of_claim {tx : String} {reservation : Reservation}
    (done : claim sha store tx device attempt reservation = .ok (next, outcome))
    (running : outcome ≠ .status complete "") (other : Attempt) :
    Published next device other ↔ other = attempt := by
  obtain ⟨row, here, ⟨_, _, ended⟩ | ⟨claims, moved⟩⟩ := claim_eq_ok done
  · exact absurd ended running
  · have owners : next.owners = store.owners.publish device tx attempt.token := by
      rcases moved with ⟨_, _, rfl, _⟩ | ⟨_, rfl, _⟩ <;> rfl
    have owned := claims.owned
    simp only [ownedBy, Option.any_eq_true, decide_eq_true_eq] at owned
    obtain ⟨owner, found, named⟩ := owned
    obtain ⟨member, placed⟩ := Owners.find_eq_some.mp found
    have now : (⟨device, tx, some attempt.token⟩ : OwnerRow) ∈
        (store.owners.publish device tx attempt.token).rows := by
      apply List.mem_map.mpr
      refine ⟨owner, member, ?_⟩
      rw [if_pos ⟨placed, named⟩, ← placed, ← named]
    unfold Published
    rw [owners]
    constructor
    · intro published
      have same := List.inj_on_of_nodup_map (store.owners.publish device tx attempt.token).devices
        published now rfl
      cases other
      cases attempt
      have own := claims.own
      simp_all
    · rintro rfl
      rw [claims.own]
      exact now

/-- A published attempt has used its token. -/
theorem used_of_published (sha : Digester) (casefold : String → String) (calls : List Call)
    (published : Published (run (World.step sha casefold) World.start calls).store device attempt) :
    attempt.token ∈ (run (World.step sha casefold) World.start calls).tokens := by
  refine run_invariant_always
    (fun world : World => Published world.store device attempt → attempt.token ∈ world.tokens)
    (fun world call used => ?_) calls (by simp [Published]) published
  unfold World.step
  split
  · rename_i store outcome done
    intro now
    rcases published_of_perform done now with old | claims
    · exact List.mem_append_right _ (used old)
    · exact List.mem_append_left _ claims
  · exact fun now => List.mem_append_right _ (used now)

theorem used_run (sha : Digester) (casefold : String → String) (calls : List Call) {world : World}
    {token : String} (used : token ∈ world.tokens) :
    token ∈ (run (World.step sha casefold) world calls).tokens := by
  refine run_invariant_always (fun world : World => token ∈ world.tokens)
    (fun world call used => ?_) calls used
  unfold World.step
  split <;> exact List.mem_append_right _ used

/-- An attempt that has used its token and is not published is never published again. -/
theorem unpublished_run {world : World} {calls : List Call}
    (permitted : Permitted (World.step sha casefold) Allowed world calls)
    (used : attempt.token ∈ world.tokens) (superseded : ¬Published world.store device attempt) :
    ¬Published (run (World.step sha casefold) world calls).store device attempt := by
  let out (world : World) : Prop :=
    attempt.token ∈ world.tokens ∧ ¬Published world.store device attempt
  have stays : ∀ world call, Allowed world call → out world →
      out (World.step sha casefold world call) := by
    rintro world call allowed ⟨used, superseded⟩
    unfold World.step
    split
    · rename_i store outcome done
      refine ⟨List.mem_append_right _ used, fun now => ?_⟩
      rcases published_of_perform done now with old | claims
      · exact superseded old
      · exact allowed.fresh _ claims used
    · exact ⟨List.mem_append_right _ used, superseded⟩
  exact (run_invariant stays permitted ⟨used, superseded⟩).2

end Attempts

section Sessions

variable {tx : String} {call : Call} {before after : TransactionRow}

/-- A session that has spent its attempt. -/
def Spent (row : TransactionRow) : Prop :=
  row.plan.sessionOnly = true ∧ row.consumedAttempt ≠ none

theorem Change.spent (change : Change tx call before after) (spent : Spent before) : Spent after := by
  refine ⟨by rw [change.plan]; exact spent.1, ?_⟩
  cases change with
  | claimed resumes consumes unspent => exact absurd (unspent spent.1) spent.2
  | _ => exact spent.2

variable {sha : Digester} {casefold : String → String}

/-- What a call returns, when it is not refused. -/
def Returns (sha : Digester) (casefold : String → String) (world : World) (call : Call)
    (outcome : Outcome) : Prop :=
  ∃ next, perform sha casefold world.store call = .ok (next, outcome)

/-- The claim of a transaction has started an attempt. -/
def Starts (sha : Digester) (casefold : String → String) (tx : String) (world : World) (call : Call) :
    Prop :=
  ∃ device attempt reservation, call = .claim tx device attempt reservation ∧
    Returns sha casefold world call (.status starting "")

theorem row_of_start {world : World} (starts : Starts sha casefold tx world call)
    {row : TransactionRow} (found : world.store.row tx = some row) (session : row.plan.sessionOnly = true) :
    row.consumedAttempt = none ∧ ∃ after,
      (World.step sha casefold world call).store.row tx = some after ∧ Spent after := by
  obtain ⟨device, attempt, reservation, rfl, next, done⟩ := starts
  have made : (World.step sha casefold world (.claim tx device attempt reservation)).store = next := by
    simp only [World.step, done]
  obtain ⟨row', here, ⟨_, _, ended⟩ | ⟨claims, ⟨_, _, _, stops⟩ | ⟨_, rfl, _⟩⟩⟩ := claim_eq_ok done
  · cases ended
  · cases stops
  · obtain rfl : row = row' := Option.some.inj (found.symm.trans here)
    refine ⟨claims.unspent session, ?_⟩
    rw [made, row_modify, if_pos rfl, row_owners, found]
    exact ⟨_, rfl, session, by simp [session]⟩

/-- A session that starts has spent its attempt for the rest of the run. -/
theorem spent_after_start {world : World} (starts : Starts sha casefold tx world call)
    {row : TransactionRow} (found : world.store.row tx = some row)
    (session : row.plan.sessionOnly = true) (calls : List Call) : ∃ after,
      (run (World.step sha casefold) world (call :: calls)).store.row tx = some after ∧ Spent after := by
  obtain ⟨_, after, made, spent⟩ := row_of_start starts found session
  exact run_row sha casefold Spent (fun change => change.spent) calls made spent

/-- A claim that spends an attempt starts it. -/
theorem starts_of_consumed {store next : Store} {outcome : Outcome} {device : String}
    {attempt : Attempt} {reservation : Reservation}
    (done : claim sha store tx device attempt reservation = .ok (next, outcome))
    (found : store.row tx = some before) (made : next.row tx = some after)
    (spends : after.consumedAttempt ≠ before.consumedAttempt) : outcome = .status starting "" := by
  obtain ⟨row, here, ⟨_, rfl, _⟩ | ⟨claims, ⟨_, _, rfl, _⟩ | ⟨_, _, starts⟩⟩⟩ := claim_eq_ok done
  · cases found.symm.trans made
    exact absurd rfl spends
  · rw [row_modify, if_pos rfl, row_owners, found] at made
    cases made
    exact absurd rfl spends
  · exact starts

/-- Only a start spends the attempt of a session. -/
theorem start_of_spent {world : World} (made : (World.step sha casefold world call).store.row tx =
    some after) (spent : Spent after) (unspent : ∀ row, world.store.row tx = some row → ¬Spent row) :
    Starts sha casefold tx world call := by
  have carried := step_carried sha casefold world call tx
  rw [made] at carried
  generalize found : world.store.row tx = source at carried
  cases carried with
  | created plan creates => exact absurd rfl spent.2
  | @changed before _ change =>
      have spends : after.consumedAttempt ≠ before.consumedAttempt := by
        intro same
        refine unspent before found ⟨?_, ?_⟩
        · rw [← change.plan]
          exact spent.1
        · rw [← same]
          exact spent.2
      have claims : ∃ device attempt reservation, call = .claim tx device attempt reservation := by
        cases change with
        | claimed => exact ⟨_, _, _, rfl⟩
        | _ => exact absurd rfl spends
      obtain ⟨device, attempt, reservation, rfl⟩ := claims
      cases done : perform sha casefold world.store (.claim tx device attempt reservation) with
      | error refusal =>
          simp only [World.step, done] at made
          cases found.symm.trans made
          exact absurd rfl spends
      | ok result =>
          simp only [World.step, done] at made
          have starts := starts_of_consumed done found made spends
          refine ⟨device, attempt, reservation, rfl, result.1, ?_⟩
          rw [done, ← starts]

end Sessions

section Every

variable (sha : Digester) (casefold : String → String)

/-- What the calls of a run keep to. -/
structure Fenced (calls : List Call) : Prop where
  /-- Only the published attempt of a transaction writes it, and no other transaction. -/
  published : ∀ before call later tx attempt device, calls = before ++ call :: later →
    writer call = some (tx, attempt, device) → Succeeds sha casefold (World.after sha casefold before) call →
      attempt.owner = tx ∧ Published (World.after sha casefold before).store device attempt ∧
        ∀ other ≠ tx, (World.after sha casefold (before ++ [call])).store.row other =
          (World.after sha casefold before).store.row other
  /-- A claim that goes through publishes its attempt alone. -/
  claimed : ∀ before tx device attempt reservation outcome later,
    calls = before ++ .claim tx device attempt reservation :: later →
    Returns sha casefold (World.after sha casefold before) (.claim tx device attempt reservation) outcome →
    outcome ≠ .status complete "" → ∀ other,
      Published (World.after sha casefold (before ++ [.claim tx device attempt reservation])).store
        device other ↔ other = attempt
  /-- A superseded attempt is never published again. -/
  superseded : ∀ first second third attempt device, calls = first ++ second ++ third →
    Published (World.after sha casefold first).store device attempt →
    ¬Published (World.after sha casefold (first ++ second)).store device attempt →
      ¬Published (World.after sha casefold calls).store device attempt
  /-- A state moves only where its call allows. -/
  moves : ∀ before call later tx row, calls = before ++ call :: later →
    (World.after sha casefold before).store.row tx = some row →
      ∃ after, (World.after sha casefold (before ++ [call])).store.row tx = some after ∧
        (after.state = row.state ∨ Moves tx call row after.state)
  /-- A terminal state is final. -/
  final : ∀ before later tx row, calls = before ++ later →
    (World.after sha casefold before).store.row tx = some row → row.state ∈ terminal →
      ∃ after, (World.after sha casefold calls).store.row tx = some after ∧ after.state = row.state
  /-- A session starts once. -/
  once : ∀ before call middle other later tx row, calls = before ++ call :: middle ++ other :: later →
    (World.after sha casefold before).store.row tx = some row → row.plan.sessionOnly = true →
    Starts sha casefold tx (World.after sha casefold before) call →
      ¬Starts sha casefold tx (World.after sha casefold (before ++ call :: middle)) other
  /-- Only a start spends the attempt of a session. -/
  spent : ∀ before later tx row, calls = before ++ later →
    (World.after sha casefold before).store.row tx = some row → row.plan.sessionOnly = true →
    row.consumedAttempt ≠ none →
      ∃ first call middle, before = first ++ call :: middle ∧
        Starts sha casefold tx (World.after sha casefold first) call

variable {sha casefold} {calls : List Call}

theorem step_of_done {world : World} {call : Call} {next : Store} {outcome : Outcome}
    (done : perform sha casefold world.store call = .ok (next, outcome)) :
    (World.step sha casefold world call).store = next := by
  simp only [World.step, done]

/-- Where the calls of a run move a state. -/
theorem moves_run (before : List Call) (call : Call) {tx : String} {row : TransactionRow}
    (found : (World.after sha casefold before).store.row tx = some row) :
    ∃ after, (World.after sha casefold (before ++ [call])).store.row tx = some after ∧
      (after.state = row.state ∨ Moves tx call row after.state) := by
  rw [after_snoc]
  have consistent := consistent_run sha casefold before
  cases done : perform sha casefold (World.after sha casefold before).store call with
  | error refusal =>
      refine ⟨row, ?_, .inl rfl⟩
      simp only [World.step, done]
      exact found
  | ok result =>
      rw [step_of_done done]
      have carried := carried_at done tx
      rw [found] at carried
      obtain ⟨after, made, _⟩ := carried.persists
      exact ⟨after, made, moves_of_perform consistent done found made⟩

theorem final_run (before later : List Call) {tx : String} {row : TransactionRow}
    (found : (World.after sha casefold before).store.row tx = some row)
    (ended : row.state ∈ terminal) :
    ∃ after, (World.after sha casefold (before ++ later)).store.row tx = some after ∧
      after.state = row.state := by
  rw [after_append]
  refine run_row sha casefold (fun after => after.state = row.state) ?_ later found rfl
  intro call before after change same
  rw [change.terminal (same ▸ ended), same]

theorem once_run {before middle : List Call} {call other : Call} {tx : String} {row : TransactionRow}
    (found : (World.after sha casefold before).store.row tx = some row)
    (session : row.plan.sessionOnly = true)
    (starts : Starts sha casefold tx (World.after sha casefold before) call) :
    ¬Starts sha casefold tx (World.after sha casefold (before ++ call :: middle)) other := by
  intro again
  obtain ⟨after, made, spent⟩ := spent_after_start starts found session middle
  rw [← after_append] at made
  exact spent.2 (row_of_start again made spent.1).1

theorem spent_run {before : List Call} {tx : String} {row : TransactionRow}
    (found : (World.after sha casefold before).store.row tx = some row) (spent : Spent row) :
    ∃ first call middle, before = first ++ call :: middle ∧
      Starts sha casefold tx (World.after sha casefold first) call := by
  let spends (world : World) : Prop := ∃ row, world.store.row tx = some row ∧ Spent row
  have fresh : ¬spends World.start := by
    rintro ⟨row, none, _⟩
    cases none
  obtain ⟨first, call, middle, split, unspent, after, made, spent⟩ :=
    run_origin (World.step sha casefold) fresh ⟨row, found, spent⟩
  refine ⟨first, call, middle, split, start_of_spent made spent ?_⟩
  exact fun row found spent => unspent ⟨row, found, spent⟩

/-- However the calls interleave, with new tokens for new attempts, they are fenced. -/
theorem fences_hold (permitted : Permitted (World.step sha casefold) Allowed World.start calls) :
    Fenced sha casefold calls where
  published before call later tx attempt device _ writes := by
    rintro ⟨next, outcome, done⟩
    obtain ⟨own, published⟩ := published_of_writer done writes
    refine ⟨own, published, fun other apart => ?_⟩
    rw [after_snoc, step_of_done done]
    exact others_of_writer done writes apart
  claimed before tx device attempt reservation outcome later _ := by
    rintro ⟨next, done⟩ running other
    rw [after_snoc, step_of_done done]
    exact published_of_claim done running other
  superseded first second third attempt device split published superseded := by
    subst split
    have used : attempt.token ∈ (World.after sha casefold (first ++ second)).tokens := by
      rw [after_append]
      exact used_run sha casefold second (used_of_published sha casefold first published)
    rw [after_append]
    exact unpublished_run (permitted_append.mp permitted).2 used superseded
  moves before call later tx row _ := moves_run before call
  final before later tx row split := by
    subst split
    exact final_run before later
  once before call middle other later tx row _ := once_run
  spent before later tx row _ found session consumed := spent_run found ⟨session, consumed⟩

end Every

section Sample

def usbPlan : TransferPlan := ⟨.wholeDrive "usb" "fs", "usb"⟩

/-- A Start that runs, a stop that it acknowledges, and a second Start. -/
def stoppedRun : List Call :=
  [.create "t" usbPlan, .approve "t" "usb", .reserveRead "t" "usb", .reserveWrite "t" "usb",
    .claim "t" "usb" ⟨"t", "first"⟩ ⟨approved, 0, 0⟩, .requestStop "t",
    .transition ⟨"t", "first"⟩ "usb" transferring "", .reserveRead "t" "usb"]

def secondClaim : Call :=
  .claim "t" "usb" ⟨"t", "second"⟩ ⟨stopped, 1, 1⟩

theorem stoppedRun_permitted :
    Permitted (World.step marked id) Allowed World.start (stoppedRun ++ [secondClaim]) := by
  decide +kernel

theorem fences_hold_stopped : Fenced marked id (stoppedRun ++ [secondClaim]) :=
  fences_hold stoppedRun_permitted

/-- The second Start moves its transaction where no transition goes. -/
theorem claim_leaves_transitions :
    Permitted (World.step marked id) Allowed World.start (stoppedRun ++ [secondClaim]) ∧
      ((World.after marked id stoppedRun).store.row "t").map TransactionRow.state = some stopped ∧
      ((World.after marked id (stoppedRun ++ [secondClaim])).store.row "t").map TransactionRow.state =
        some starting ∧
      starting ∉ stopped.transitions := by
  decide +kernel

end Sample

end Modelark.Slice
