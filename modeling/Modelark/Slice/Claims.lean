import Modelark.Slice.Calls

/-!
# Claims of destinations

However the calls interleave, each claim is of a transaction and its device, no two claims overlap, a
transaction that runs has one, and a state moves only where its call allows.
-/

namespace Modelark.Slice

open Library Proposal TransferState

section Runs

variable (sha : Digester) (casefold : String → String)

/-- The world after some calls from the start. -/
def World.after (calls : List Call) : World :=
  run (World.step sha casefold) World.start calls

@[simp] theorem row_start (tx : String) : World.start.store.row tx = none := rfl

@[simp] theorem owners_start : World.start.store.owners.rows = [] := rfl

theorem after_append (before later : List Call) : World.after sha casefold (before ++ later) =
    run (World.step sha casefold) (World.after sha casefold before) later :=
  run_append _ _ _ _

theorem after_snoc (before : List Call) (call : Call) : World.after sha casefold (before ++ [call]) =
    World.step sha casefold (World.after sha casefold before) call :=
  run_snoc _ _ _ _

theorem step_carried (world : World) (call : Call) (tx : String) :
    Carried tx call (world.store.row tx) ((World.step sha casefold world call).store.row tx) := by
  unfold World.step
  split
  · rename_i store outcome done
    exact carried_of_perform done
  · exact .kept _ _

/-- What every change keeps of a row, a run keeps. -/
theorem run_row {tx : String} (keeps : TransactionRow → Prop)
    (change : ∀ {call before after}, Change tx call before after → keeps before → keeps after)
    (calls : List Call) {world : World} {row : TransactionRow} (found : world.store.row tx = some row)
    (holds : keeps row) : ∃ after, (run (World.step sha casefold) world calls).store.row tx = some after ∧
      keeps after := by
  induction calls generalizing world row with
  | nil => exact ⟨row, found, holds⟩
  | cons call calls ih =>
      have carried := step_carried sha casefold world call tx
      rw [found] at carried
      generalize made : (World.step sha casefold world call).store.row tx = result at carried
      cases carried with
      | changed changes => exact ih made (change changes holds)

/-- What a new row has and every change keeps, all rows have. -/
theorem rows_invariant {holds : TransactionRow → Prop}
    (fresh : ∀ id plan, holds ⟨id, plan, plan.sealHash, ready, false, "", 0, "", 0, 0, none⟩)
    (change : ∀ {tx call before after}, Change tx call before after → holds before → holds after)
    (calls : List Call) {tx : String} {row : TransactionRow}
    (found : (run (World.step sha casefold) World.start calls).store.row tx = some row) : holds row := by
  have always : ∀ tx row, (run (World.step sha casefold) World.start calls).store.row tx = some row →
      holds row := by
    refine run_invariant_always
      (fun world : World => ∀ tx row, world.store.row tx = some row → holds row)
      (fun world call inv tx row made => ?_) calls (by simp)
    have carried := step_carried sha casefold world call tx
    rw [made] at carried
    generalize before : world.store.row tx = old at carried
    cases carried with
    | created plan creates => exact fresh tx plan
    | changed changes => exact change changes (inv tx _ before)
  exact always tx row found

theorem Carried.change {tx : String} {call : Call} {before after : TransactionRow}
    (carried : Carried tx call (some before) (some after)) : Change tx call before after := by
  cases carried with
  | changed change => exact change

end Runs

section Changes

variable {tx : String} {call : Call} {before after : TransactionRow}

theorem Change.plan (change : Change tx call before after) : after.plan = before.plan := by
  cases change <;> rfl

/-- Where a call may move the state of a transaction. -/
def Moves (tx : String) : Call → TransactionRow → TransferState → Prop
  | .approve other _, row, target => other = tx ∧ row.state = ready ∧ target = approved
  | .reserveWrite other _, row, target => other = tx ∧ row.state = approved ∧ target = starting
  | .refusePreclaim other _ _ refusal _, row, target =>
      other = tx ∧ row.state ∈ resumable ∧ (target = stopped ∨ target = refusalState refusal.code)
  | .claim other _ _ reservation, row, target =>
      -- a stop is pending unless the reservation resumes it
      other = tx ∧ row.state ∈ resumable ∧
        target = if row.stop && !reservation.resumes row then stopped else starting
  | .transition attempt _ _ _, row, target => attempt.owner = tx ∧ target ∈ row.state.transitions
  | .complete attempt _, row, target => attempt.owner = tx ∧ row.state = verifying ∧ target = complete
  | _, _, _ => False

theorem not_resumable_of_terminal {state : TransferState} (ended : state ∈ terminal) :
    state ∉ resumable := by
  revert ended
  cases state <;> decide

/-- A terminal state is final. -/
theorem Change.terminal (change : Change tx call before after) (ended : before.state ∈ terminal) :
    after.state = before.state := by
  have stuck := not_resumable_of_terminal ended
  cases change with
  | kept | stopRequested | appended => rfl
  | approved ready => simp [ready, TransferState.terminal] at ended
  | reserved resumes | stopRefused resumes | refused resumes | stopClaimed resumes
  | claimed resumes => exact absurd resumes stuck
  | moved runs allowed =>
      revert allowed ended
      cases before.state <;> simp [TransferState.terminal, transitions]
  | completed free verified => simp [verified, TransferState.terminal] at ended

end Changes

section Claims

variable {sha : Digester} {casefold : String → String} {store next : Store} {outcome : Outcome}

/-- What a call does to the claims of the destinations. -/
inductive Owned (sha : Digester) (casefold : String → String) (store : Store) : Call → Owners → Prop where
  | kept (call : Call) : Owned sha casefold store call store.owners
  | reserved {tx device : String} {row : TransactionRow} {owner : Option OwnerRow}
      {reservation : Reservation}
      (inspected : Inspected sha casefold store tx device row owner reservation) :
      Owned sha casefold store (.reserveWrite tx device) (store.owners.insertOrIgnore device tx)
  | published {tx device : String} {attempt : Attempt} {reservation : Reservation} {row : TransactionRow}
      (claims : Claims store tx device attempt row) :
      Owned sha casefold store (.claim tx device attempt reservation)
        (store.owners.publish device tx attempt.token)
  | released {attempt : Attempt} {device : String} :
      Owned sha casefold store (.complete attempt device) (store.owners.release device attempt.owner)

theorem owned_of_perform {call : Call} (done : perform sha casefold store call = .ok (next, outcome)) :
    Owned sha casefold store call next.owners := by
  cases call with
  | create other plan =>
      obtain ⟨after, created, made⟩ := map_eq_ok.mp done
      cases made
      unfold create at created
      split at created
      · cases created
        exact .kept _
      · cases created
  | approve other expectedSeal =>
      obtain ⟨after, approved, made⟩ := map_eq_ok.mp done
      cases made
      simp only [approve, bind_eq_ok] at approved
      obtain ⟨_, _, _, _, _, _, _, _, _, _, made⟩ := approved
      cases made
      exact .kept _
  | reserveRead other device =>
      obtain ⟨_, _, made⟩ := map_eq_ok.mp done
      cases made
      exact .kept _
  | reserveWrite other device =>
      obtain ⟨after, reserved, made⟩ := map_eq_ok.mp done
      cases made
      rcases reserveWrite_eq_ok reserved with rfl | ⟨row, owner, reservation, inspected, rfl⟩
      · exact .kept _
      · split_ifs <;> exact .reserved inspected
  | guardPreclaim other device reservation =>
      obtain ⟨_, _, made⟩ := map_eq_ok.mp done
      cases made
      exact .kept _
  | refusePreclaim other device reservation refusal interrupted =>
      simp only [perform, refusePreclaim, bind_eq_ok] at done
      obtain ⟨_, _, row, _, _, _, made⟩ := done
      by_cases stops :
          (row.stop && !reservation.resumes row || interrupted || refusal.code = "STOPPED") = true
      · rw [if_pos stops] at made
        cases made
        exact .kept _
      · rw [if_neg stops] at made
        cases made
        exact .kept _
  | claim other device attempt reservation =>
      obtain ⟨row, _, ⟨_, rfl, _⟩ | ⟨claims, ⟨_, _, rfl, _⟩ | ⟨_, rfl, _⟩⟩⟩ := claim_eq_ok done
      · exact .kept _
      · exact .published claims
      · exact .published claims
  | transition attempt device state reason =>
      simp only [perform, transition, bind_eq_ok] at done
      obtain ⟨_, _, row, _, _, _, made⟩ := done
      cases made
      exact .kept _
  | requestStop other =>
      cases done
      exact .kept _
  | append other event payload expectedHead attempt device =>
      simp only [perform, append, bind_eq_ok] at done
      obtain ⟨row, _, _, _, _, _, _, _, journal, _, made⟩ := done
      cases made
      exact .kept _
  | complete attempt device =>
      obtain ⟨after, completed, made⟩ := map_eq_ok.mp done
      cases made
      simp only [completeAttempt, bind_eq_ok] at completed
      obtain ⟨_, _, _, _, row, _, _, _, made⟩ := completed
      cases made
      exact .released

/-- Each claim is of a transaction and its device, no two overlap, and what runs has a claim. -/
structure Consistent (sha : Digester) (casefold : String → String) (store : Store) : Prop where
  placed : ∀ owner ∈ store.owners.rows, ∃ row, store.row owner.tx = some row ∧
    row.plan.deviceId sha = owner.device
  apart : ∀ first ∈ store.owners.rows, ∀ second ∈ store.owners.rows, first.tx ≠ second.tx →
    ∀ left right, store.row first.tx = some left → store.row second.tx = some right →
      claimsOverlap casefold left.plan right.plan = .ok false
  held : ∀ tx row, store.row tx = some row → row.state ∈ running →
    ∃ owner ∈ store.owners.rows, owner.tx = tx

theorem compatible_eq_ok {plan : TransferPlan} {owner : OwnerRow} {row : TransactionRow}
    (clear : compatible casefold store plan owner = .ok ()) (found : store.row owner.tx = some row) :
    claimsOverlap casefold plan row.plan = .ok false := by
  simp only [compatible, found, bind_eq_ok, require_eq_ok] at clear
  obtain ⟨_, _, overlap, answer, apart⟩ := clear
  cases overlap with
  | false => exact answer
  | true => simp at apart

theorem Owners.find_eq_some {owners : Owners} {device : String} {owner : OwnerRow} :
    owners.find device = some owner ↔ owner ∈ owners.rows ∧ owner.device = device := by
  unfold Owners.find
  constructor
  · intro found
    exact ⟨List.mem_of_find?_eq_some found, by simpa using List.find?_some found⟩
  · rintro ⟨member, rfl⟩
    cases found : owners.rows.find? fun row => row.device = owner.device with
    | none => simpa using List.find?_eq_none.mp found owner member
    | some other =>
        have listed := List.mem_of_find?_eq_some found
        have same : other.device = owner.device := by simpa using List.find?_some found
        rw [List.inj_on_of_nodup_map owners.devices listed member same]

theorem exists_of_ownedBy {device tx : String} (owned : ownedBy store device tx = true) :
    ∃ owner ∈ store.owners.rows, owner.tx = tx := by
  simp only [ownedBy, Option.any_eq_true, decide_eq_true_eq] at owned
  obtain ⟨owner, found, named⟩ := owned
  exact ⟨owner, (Owners.find_eq_some.mp found).1, named⟩

theorem mem_publish {owners : Owners} {device tx token : String} {owner : OwnerRow}
    (member : owner ∈ (owners.publish device tx token).rows) :
    ∃ old ∈ owners.rows, old.device = owner.device ∧ old.tx = owner.tx := by
  obtain ⟨old, listed, rfl⟩ := List.mem_map.mp member
  refine ⟨old, listed, ?_⟩
  split_ifs <;> exact ⟨rfl, rfl⟩

theorem mem_insertOrIgnore {owners : Owners} {device tx : String} {owner : OwnerRow}
    (member : owner ∈ (owners.insertOrIgnore device tx).rows) :
    owner ∈ owners.rows ∨ owner = ⟨device, tx, none⟩ := by
  unfold Owners.insertOrIgnore at member
  split_ifs at member
  · simpa using member
  · exact .inl member

/-- A claim was there before, or its reservation has been inspected and it is the only new one. -/
theorem Owned.source {call : Call} {owners : Owners} (owned : Owned sha casefold store call owners)
    {owner : OwnerRow} (member : owner ∈ owners.rows) :
    (∃ old ∈ store.owners.rows, old.device = owner.device ∧ old.tx = owner.tx) ∨
      (∃ row found reservation,
        Inspected sha casefold store owner.tx owner.device row found reservation) ∧
        ∀ other ∈ owners.rows, owner.tx ≠ other.tx → other ∈ store.owners.rows := by
  cases owned with
  | kept => exact .inl ⟨owner, member, rfl, rfl⟩
  | reserved inspected =>
      rcases mem_insertOrIgnore member with old | rfl
      · exact .inl ⟨owner, old, rfl, rfl⟩
      · refine .inr ⟨⟨_, _, _, inspected⟩, fun other listed differ => ?_⟩
        rcases mem_insertOrIgnore listed with old | rfl
        · exact old
        · exact absurd rfl differ
  | published claims => exact .inl (mem_publish member)
  | released => exact .inl ⟨owner, (List.mem_filter.mp member).1, rfl, rfl⟩

/-- A running transaction keeps its claim until it is complete. -/
theorem Owned.keeps {call : Call} {owners : Owners} (owned : Owned sha casefold store call owners)
    {owner : OwnerRow} (member : owner ∈ store.owners.rows)
    (stays : ∀ attempt device, call = .complete attempt device → attempt.owner ≠ owner.tx) :
    ∃ kept ∈ owners.rows, kept.tx = owner.tx := by
  cases owned with
  | kept => exact ⟨owner, member, rfl⟩
  | reserved inspected =>
      unfold Owners.insertOrIgnore
      split_ifs
      · exact ⟨owner, List.mem_append_left _ member, rfl⟩
      · exact ⟨owner, member, rfl⟩
  | published claims =>
      refine ⟨_, List.mem_map_of_mem member, ?_⟩
      split_ifs <;> rfl
  | @released attempt device =>
      have apart : owner.tx ≠ attempt.owner := fun named => stays attempt device rfl named.symm
      exact ⟨owner, List.mem_filter.mpr ⟨member, by simp [apart]⟩, rfl⟩

/-- A reservation leaves a claim of its transaction. -/
theorem exists_insertOrIgnore {device tx : String} {row : TransactionRow} {found : Option OwnerRow}
    {reservation : Reservation}
    (seen : Inspected sha casefold store tx device row found reservation) :
    ∃ owner ∈ (store.owners.insertOrIgnore device tx).rows, owner.tx = tx := by
  unfold Owners.insertOrIgnore
  split_ifs with fresh
  · exact ⟨⟨device, tx, none⟩, List.mem_append_right _ (List.mem_singleton.mpr rfl), rfl⟩
  · push Not at fresh
    obtain ⟨owner, member, taken⟩ := fresh
    by_cases here : owner.device = device
    · cases first : store.owners.find device with
      | none => cases first.symm.trans (Owners.find_eq_some.mpr ⟨member, here⟩)
      | some holder =>
          exact ⟨holder, (Owners.find_eq_some.mp first).1, seen.own holder (seen.listed.trans first)⟩
    · exact ⟨owner, member, taken here⟩

variable {tx : String} {call : Call}

theorem Carried.persists {row : TransactionRow} {after : Option TransactionRow}
    (carried : Carried tx call (some row) after) : ∃ next, after = some next ∧ next.plan = row.plan := by
  cases carried with
  | changed change => exact ⟨_, rfl, change.plan⟩

theorem carried_at (done : perform sha casefold store call = .ok (next, outcome)) (tx : String) :
    Carried tx call (store.row tx) (next.row tx) :=
  carried_of_perform done

theorem completed_of_perform {attempt : Attempt} {device : String} {after : TransactionRow}
    (done : perform sha casefold store (.complete attempt device) = .ok (next, outcome))
    (made : next.row attempt.owner = some after) : after.state = complete := by
  obtain ⟨_, completed, same⟩ := map_eq_ok.mp done
  cases same
  simp only [completeAttempt, bind_eq_ok] at completed
  obtain ⟨_, _, _, _, row, held, _, _, result⟩ := completed
  cases result
  rw [row_owners, row_modify, if_pos rfl, (requireAttempt_eq_ok.mp held).1] at made
  cases made
  rfl

/-- The first reservation of a device finds its transaction approved. -/
theorem approved_of_reserve (consistent : Consistent sha casefold store) {device : String}
    {before : TransactionRow} {reservation : Reservation}
    (seen : Inspected sha casefold store tx device before none reservation) :
    before.state = approved := by
  by_contra later
  have runs : before.state ∈ running := by
    have resumes := seen.resumes
    revert resumes later
    cases before.state <;> decide
  obtain ⟨owner, member, named⟩ := consistent.held tx before seen.found runs
  obtain ⟨row, found, placed⟩ := consistent.placed owner member
  rw [named, seen.found] at found
  cases found
  rw [seen.placed] at placed
  cases seen.listed.trans (Owners.find_eq_some.mpr ⟨member, placed.symm⟩)

section Preserved

variable (consistent : Consistent sha casefold store)
  (done : perform sha casefold store call = .ok (next, outcome))
include consistent done

/-- The transaction of a claim, before the call and after it. -/
theorem placed_of_perform {owner : OwnerRow} (member : owner ∈ next.owners.rows) :
    ∃ row after, store.row owner.tx = some row ∧ row.plan.deviceId sha = owner.device ∧
      next.row owner.tx = some after ∧ after.plan = row.plan := by
  have before : ∃ row, store.row owner.tx = some row ∧ row.plan.deviceId sha = owner.device := by
    rcases (owned_of_perform done).source member with
      ⟨old, listed, device, named⟩ | ⟨⟨row, _, _, seen⟩, _⟩
    · rw [← device, ← named]
      exact consistent.placed old listed
    · exact ⟨row, seen.found, seen.placed⟩
  obtain ⟨row, found, device⟩ := before
  have carried := carried_at done owner.tx
  rw [found] at carried
  obtain ⟨after, made, plan⟩ := carried.persists
  exact ⟨row, after, found, device, made, plan⟩

theorem apart_of_perform {first second : OwnerRow} (one : first ∈ next.owners.rows)
    (two : second ∈ next.owners.rows) (differ : first.tx ≠ second.tx) {left right : TransactionRow}
    (there : store.row first.tx = some left) (here : store.row second.tx = some right) :
    claimsOverlap casefold left.plan right.plan = .ok false := by
  -- a new claim was compared with all the others; two old ones were apart before
  have owned := owned_of_perform done
  rcases owned.source one with ⟨old, listed, _, named⟩ | ⟨⟨row, _, _, seen⟩, only⟩
  · rcases owned.source two with ⟨old', listed', _, named'⟩ | ⟨⟨row, _, _, seen⟩, only⟩
    · refine consistent.apart old listed old' listed' ?_ left right ?_ ?_
      · rwa [named, named']
      · rwa [named]
      · rwa [named']
    · obtain rfl : right = row := Option.some.inj (here.symm.trans seen.found)
      rw [claimsOverlap_comm]
      exact compatible_eq_ok (seen.clear first (only first one differ.symm) differ) there
  · obtain rfl : left = row := Option.some.inj (there.symm.trans seen.found)
    exact compatible_eq_ok (seen.clear second (only second two differ) differ.symm) here

/-- A call that lets a transaction run finds its claim, or leaves one. -/
theorem held_of_perform {before after : TransactionRow} (found : store.row tx = some before)
    (made : next.row tx = some after) (runs : after.state ∈ running) :
    ∃ owner ∈ next.owners.rows, owner.tx = tx := by
  have keeps : (∃ owner ∈ store.owners.rows, owner.tx = tx) →
      ∃ owner ∈ next.owners.rows, owner.tx = tx := by
    rintro ⟨owner, member, rfl⟩
    apply (owned_of_perform done).keeps member
    rintro attempt device rfl named
    have ended := completed_of_perform done (named ▸ made)
    simp [ended, running] at runs
  have carried := carried_at done tx
  rw [found, made] at carried
  cases carried.change with
  | kept | stopRequested | appended => exact keeps (consistent.held tx _ found runs)
  | approved ready => simp [running] at runs
  | @reserved _ device resumes =>
      obtain ⟨after, reserved, same⟩ := map_eq_ok.mp done
      cases same
      rcases reserveWrite_eq_ok reserved with rfl | ⟨row, owner, reservation, inspected, rfl⟩
      · exact consistent.held tx _ made runs
      · split_ifs <;> exact exists_insertOrIgnore inspected
  | stopRefused resumes | refused resumes =>
      apply keeps
      simp only [perform, refusePreclaim, bind_eq_ok, require_eq_ok] at done
      obtain ⟨_, owned, _⟩ := done
      exact exists_of_ownedBy owned
  | stopClaimed resumes | claimed resumes =>
      apply keeps
      obtain ⟨row, here, ⟨ended, _⟩ | ⟨claims, _⟩⟩ := claim_eq_ok done
      · obtain rfl : before = row := Option.some.inj (found.symm.trans here)
        simp [ended, resumable] at resumes
      · exact exists_of_ownedBy claims.owned
  | moved running => exact keeps (consistent.held tx _ found running)
  | completed => simp [running] at runs

/-- A state stays, or moves where its call allows. -/
theorem moves_of_perform {before after : TransactionRow} (found : store.row tx = some before)
    (made : next.row tx = some after) :
    after.state = before.state ∨ Moves tx call before after.state := by
  have carried := carried_at done tx
  rw [found, made] at carried
  cases carried.change with
  | kept | stopRequested | appended => exact .inl rfl
  | approved ready => exact .inr ⟨rfl, ready, rfl⟩
  | @reserved _ device resumes =>
      obtain ⟨_, reserved, same⟩ := map_eq_ok.mp done
      cases same
      rcases reserveWrite_eq_ok reserved with rfl | ⟨row, owner, reservation, inspected, rfl⟩
      · have kept := Option.some.inj (found.symm.trans made)
        exact .inl (congrArg TransactionRow.state kept.symm)
      · cases owner with
        | none =>
            have same : before = row := Option.some.inj (found.symm.trans inspected.found)
            rw [same]
            exact .inr ⟨rfl, approved_of_reserve consistent inspected, rfl⟩
        | some owner =>
            have kept := Option.some.inj (found.symm.trans made)
            exact .inl (congrArg TransactionRow.state kept.symm)
  | stopRefused resumes => exact .inr ⟨rfl, resumes, .inl rfl⟩
  | refused resumes => exact .inr ⟨rfl, resumes, .inr rfl⟩
  | stopClaimed resumes stop pending => exact .inr ⟨rfl, resumes, by simp [stop, pending]⟩
  | claimed resumes consumes =>
      refine .inr ⟨rfl, resumes, ?_⟩
      cases stop : before.stop with
      | false => rfl
      | true => simp [consumes stop]
  | moved runs allowed => exact .inr ⟨rfl, allowed⟩
  | completed free verified => exact .inr ⟨rfl, verified, rfl⟩

theorem consistent_of_perform : Consistent sha casefold next where
  placed owner member := by
    obtain ⟨row, after, _, device, made, plan⟩ := placed_of_perform consistent done member
    exact ⟨after, made, by rw [plan, device]⟩
  apart first one second two differ left right there here := by
    obtain ⟨row, after, found, _, made, plan⟩ := placed_of_perform consistent done one
    obtain ⟨row', after', found', _, made', plan'⟩ := placed_of_perform consistent done two
    obtain rfl : left = after := Option.some.inj (there.symm.trans made)
    obtain rfl : right = after' := Option.some.inj (here.symm.trans made')
    rw [plan, plan']
    exact apart_of_perform consistent done one two differ found found'
  held tx after made runs := by
    cases found : store.row tx with
    | none =>
        have carried := carried_at done tx
        rw [found, made] at carried
        obtain ⟨plan, creates⟩ := carried
        simp [running] at runs
    | some before => exact held_of_perform consistent done found made runs

end Preserved

theorem consistent_run (sha : Digester) (casefold : String → String) (calls : List Call) :
    Consistent sha casefold (run (World.step sha casefold) World.start calls).store := by
  apply run_invariant_always (fun world : World => Consistent sha casefold world.store)
  · intro world call consistent
    unfold World.step
    split
    · rename_i store outcome done
      exact consistent_of_perform consistent done
    · exact consistent
  · constructor <;> simp

end Claims

section Every

variable (sha : Digester) (casefold : String → String)

/-- In every reachable store no two claims overlap. Two folders of one filesystem with different
profiles cannot be compared, and are refused; other claims overlap exactly when they conflict. -/
theorem claims_apart :
    (∀ first second, claimsOverlap casefold first second = claimsOverlap casefold second first) ∧
      (∀ first second,
        (Mixed first second → ∃ refusal, claimsOverlap casefold first second = .error refusal) ∧
        (¬Mixed first second → ∃ answer, claimsOverlap casefold first second = .ok answer ∧
          (answer = true ↔ Conflict casefold first second))) ∧
      ∀ calls, ∀ first ∈ (World.after sha casefold calls).store.owners.rows,
        ∀ second ∈ (World.after sha casefold calls).store.owners.rows, first ≠ second →
          ∃ left right, (World.after sha casefold calls).store.row first.tx = some left ∧
            (World.after sha casefold calls).store.row second.tx = some right ∧
            claimsOverlap casefold left.plan right.plan = .ok false := by
  refine ⟨claimsOverlap_comm casefold, claimsOverlap_spec casefold, ?_⟩
  intro calls first one second two differ
  have consistent := consistent_run sha casefold calls
  obtain ⟨left, there, _⟩ := consistent.placed first one
  obtain ⟨right, here, _⟩ := consistent.placed second two
  refine ⟨left, right, there, here, consistent.apart first one second two ?_ left right there here⟩
  intro same
  exact differ (List.inj_on_of_nodup_map (World.after sha casefold calls).store.owners.transactions
    one two same)

end Every

section Sample

/-- Two folders of different filesystems that one disk backs. -/
def leftFolder : TransferPlan :=
  ⟨.folder ⟨.nativeExt4, "ext4:left", [], (2, 7), "models", nofun⟩ ["disk:one"], "left"⟩

def rightFolder : TransferPlan :=
  ⟨.folder ⟨.nativeExt4, "ext4:right", [], (2, 9), "models", nofun⟩ ["disk:one"], "right"⟩

/-- What backs the destination of a plan. -/
def backingKeys (plan : TransferPlan) : List String :=
  match plan.destination with
  | .wholeDrive device filesystem => [device, "filesystem:" ++ filesystem]
  | .folder _ backing => backing

/-- A shared backing identity does not make two folders overlap. -/
theorem backing_shared : (∃ key ∈ backingKeys leftFolder, key ∈ backingKeys rightFolder) ∧
    claimsOverlap id leftFolder rightFolder = .ok false := by
  refine ⟨⟨"disk:one", by simp [backingKeys, leftFolder], by simp [backingKeys, rightFolder]⟩, ?_⟩
  decide +kernel

end Sample

end Modelark.Slice
