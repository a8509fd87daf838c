import Modelark.Library.HashChains
import Modelark.Slice.Fences

/-!
# The journal

Every append is one link of a chain whose last digest the transaction keeps. Reading the journal follows the chain
and reads the payload of every link, and compares the end with what was kept.
-/

namespace Modelark.Slice

open Library Proposal TransferState

/-- The rows of a transaction in order. -/
def journalOf (store : Store) (tx : String) : List JournalRow :=
  sortBy JournalRow.seq (store.journal.rows.filter fun row => row.tx = tx)

section Reading

variable (sha : Digester) (loads : String → Option Json) (tx : String)

/-- The digest of an event and its payload. -/
def chainDigest (seq : Nat) (previous : String) (body : String × String) : String :=
  eventDigest sha tx seq previous body.1 body.2

/-- A row goes on from these. -/
def Follows (seq : Nat) (previous : String) (row : JournalRow) : Prop :=
  row.seq = seq + 1 ∧ row.digest = eventDigest sha tx row.seq previous row.event row.payload

instance (seq : Nat) (previous : String) (row : JournalRow) : Decidable (Follows sha tx seq previous row) :=
  inferInstanceAs (Decidable (_ ∧ _))

/-- The loop of `events`: the last digest, and the events with the payloads that were read. -/
def followRows : Nat → String → List JournalRow → Except Failure (String × List (String × Json))
  | _, previous, [] => .ok (previous, [])
  | seq, previous, row :: rows => do
      require (decide (Follows sha tx seq previous row)) (refuse "JOURNAL_CORRUPT" "")
      let payload ← (loads row.payload).elim (.error .raised) .ok
      let rest ← followRows row.seq row.digest rows
      return (rest.1, (row.event, payload) :: rest.2)

/-- `events`, with the payloads read. -/
def readEvents (store : Store) : Except Failure (List (String × Json)) := do
  let rows := journalOf store tx
  let followed ← followRows sha loads tx 0 "" rows
  require ((store.row tx).any fun row => row.journalSeq = rows.length ∧ row.journalDigest = followed.1)
    (refuse "JOURNAL_CORRUPT" "journal tail differs from durable head")
  return followed.2

end Reading

section Chains

variable (sha : Digester) (tx : String)

def JournalRow.link (row : JournalRow) : Link (String × String) String :=
  ⟨row.seq, (row.event, row.payload), row.digest⟩

def rowOf (link : Link (String × String) String) : JournalRow :=
  ⟨tx, link.number, link.body.1, link.body.2, link.digest⟩

/-- The rows of a journal with these events. -/
def chainRows (entries : List (String × String)) : List JournalRow :=
  (links (chainDigest sha tx) 0 "" entries).map (rowOf tx)

/-- The rows before the first that does not go on from the one before it. -/
def sound : Nat → String → List JournalRow → List JournalRow
  | _, _, [] => []
  | seq, previous, row :: rows =>
      if Follows sha tx seq previous row then row :: sound row.seq row.digest rows else []

/-- All payloads can be read. -/
def Readable (loads : String → Option Json) (rows : List JournalRow) : Prop :=
  ∀ row ∈ rows, (loads row.payload).isSome = true

/-- The rows are a chain, and the head is its end. -/
def Verified (store : Store) : Prop :=
  sound sha tx 0 "" (journalOf store tx) = journalOf store tx ∧
    ∃ row, store.row tx = some row ∧ (row.journalSeq, row.journalDigest) =
      chainHead (chainDigest sha tx) 0 "" ((journalOf store tx).map fun row => (row.event, row.payload))

variable {sha tx} {loads : String → Option Json} {seq : Nat} {previous : String} {rows : List JournalRow}

/-- Rows that all go on are the links of their events. -/
theorem links_of_sound (whole : sound sha tx seq previous rows = rows) :
    rows.map JournalRow.link =
      links (chainDigest sha tx) seq previous (rows.map fun row => (row.event, row.payload)) := by
  induction rows generalizing seq previous with
  | nil => rfl
  | cons row rows ih =>
      by_cases follows : Follows sha tx seq previous row
      · rw [sound, if_pos follows] at whole
        have rest := ih (List.cons.inj whole).2
        obtain ⟨number, digest⟩ := follows
        rw [number] at digest rest
        simp only [List.map_cons, links, rest, JournalRow.link, number, digest, chainDigest]
      · rw [sound, if_neg follows] at whole
        cases whole

theorem sound_of_links {entries : List (String × String)} : sound sha tx seq previous
    ((links (chainDigest sha tx) seq previous entries).map (rowOf tx)) =
      (links (chainDigest sha tx) seq previous entries).map (rowOf tx) := by
  induction entries generalizing seq previous with
  | nil => rfl
  | cons entry entries ih =>
      have follows : Follows sha tx seq previous
          ⟨tx, seq + 1, entry.1, entry.2, chainDigest sha tx (seq + 1) previous entry⟩ := ⟨rfl, rfl⟩
      simp only [links, List.map_cons, rowOf, sound, if_pos follows]
      exact congrArg _ ih

/-- Unreadable payloads end the loop before the head is compared. -/
theorem followRows_unreadable (unreadable : ¬Readable loads (sound sha tx seq previous rows)) :
    followRows sha loads tx seq previous rows = .error .raised := by
  induction rows generalizing seq previous with
  | nil => exact absurd (fun _ member => absurd member List.not_mem_nil) unreadable
  | cons row rows ih =>
      by_cases follows : Follows sha tx seq previous row
      · rw [sound, if_pos follows] at unreadable
        rw [followRows, decide_eq_true follows]
        cases read : loads row.payload with
        | none => rfl
        | some payload =>
            have later : ¬Readable loads (sound sha tx row.seq row.digest rows) := by
              intro readable
              refine unreadable (List.forall_mem_cons.mpr ⟨?_, readable⟩)
              rw [read]
              rfl
            simp only [require, if_true, ok_bind, Option.elim_some, ih later, error_bind]
      · rw [sound, if_neg follows] at unreadable
        exact absurd (fun _ member => absurd member List.not_mem_nil) unreadable

/-- A row that does not go on ends the loop. -/
theorem followRows_broken (readable : Readable loads (sound sha tx seq previous rows))
    (broken : sound sha tx seq previous rows ≠ rows) :
    followRows sha loads tx seq previous rows = .error (refuse "JOURNAL_CORRUPT" "") := by
  induction rows generalizing seq previous with
  | nil => exact absurd rfl broken
  | cons row rows ih =>
      by_cases follows : Follows sha tx seq previous row
      · rw [sound, if_pos follows] at readable broken
        obtain ⟨first, rest⟩ := List.forall_mem_cons.mp readable
        obtain ⟨payload, read⟩ := Option.isSome_iff_exists.mp first
        have later := ih rest fun same => broken (by rw [same])
        simp only [followRows, follows, decide_true, require, if_true, ok_bind, read, Option.elim_some, later,
          error_bind]
      · rw [followRows, decide_eq_false follows]
        rfl

/-- A whole chain is read. -/
theorem followRows_whole (readable : Readable loads rows) (whole : sound sha tx seq previous rows = rows) :
    ∃ events, followRows sha loads tx seq previous rows =
        .ok ((chainHead (chainDigest sha tx) seq previous (rows.map fun row => (row.event, row.payload))).2, events) ∧
      List.Forall₂ (fun row event => row.event = event.1 ∧ loads row.payload = some event.2) rows events := by
  induction rows generalizing seq previous with
  | nil => exact ⟨[], rfl, .nil⟩
  | cons row rows ih =>
      by_cases follows : Follows sha tx seq previous row
      · rw [sound, if_pos follows] at whole
        obtain ⟨first, rest⟩ := List.forall_mem_cons.mp readable
        obtain ⟨payload, read⟩ := Option.isSome_iff_exists.mp first
        obtain ⟨events, followed, all⟩ := ih rest (List.cons.inj whole).2
        refine ⟨(row.event, payload) :: events, ?_, .cons ⟨rfl, read⟩ all⟩
        obtain ⟨number, digest⟩ := follows
        simp only [followRows, Follows, number, true_and, digest, decide_true, require, if_true, ok_bind, read,
          Option.elim_some, List.map_cons, chainHead, chainDigest] at followed ⊢
        rw [followed]
        rfl
      · rw [sound, if_neg follows] at whole
        cases whole

theorem readEvents_unreadable {store : Store}
    (unreadable : ¬Readable loads (sound sha tx 0 "" (journalOf store tx))) :
    readEvents sha loads tx store = .error .raised := by
  simp only [readEvents, followRows_unreadable unreadable, error_bind]

/-- Rows that are no chain, and a chain with another end, are refused. -/
theorem readEvents_corrupt {store : Store} (readable : Readable loads (sound sha tx 0 "" (journalOf store tx)))
    (unverified : ¬Verified sha tx store) :
    ∃ detail, readEvents sha loads tx store = .error (refuse "JOURNAL_CORRUPT" detail) := by
  by_cases whole : sound sha tx 0 "" (journalOf store tx) = journalOf store tx
  · obtain ⟨events, followed, _⟩ := followRows_whole (whole ▸ readable) whole
    refine ⟨"journal tail differs from durable head", ?_⟩
    simp only [readEvents, followed, ok_bind]
    cases checked : require ((store.row tx).any fun row => row.journalSeq = (journalOf store tx).length ∧
        row.journalDigest = (chainHead (chainDigest sha tx) 0 ""
          ((journalOf store tx).map fun row => (row.event, row.payload))).2)
        (refuse "JOURNAL_CORRUPT" "journal tail differs from durable head") with
    | ok _ =>
        rw [require_eq_ok, Option.any_eq_true] at checked
        obtain ⟨row, found, same⟩ := checked
        rw [decide_eq_true_eq] at same
        refine absurd ⟨whole, row, found, Prod.ext ?_ same.2⟩ unverified
        rw [chainHead_number, List.length_map, Nat.zero_add]
        exact same.1
    | error refused =>
        unfold require at checked
        split at checked
        · cases checked
        · cases checked
          rfl
  · exact ⟨"", by simp only [readEvents, followRows_broken readable whole, error_bind]⟩

theorem readEvents_verified {store : Store} (readable : Readable loads (journalOf store tx))
    (verified : Verified sha tx store) :
    ∃ events, readEvents sha loads tx store = .ok events ∧
      List.Forall₂ (fun row event => row.event = event.1 ∧ loads row.payload = some event.2)
        (journalOf store tx) events := by
  obtain ⟨whole, row, found, same⟩ := verified
  obtain ⟨events, followed, all⟩ := followRows_whole readable whole
  have number : row.journalSeq = _ := congrArg Prod.fst same
  have digest : row.journalDigest = _ := congrArg Prod.snd same
  rw [chainHead_number, List.length_map, Nat.zero_add] at number
  have agreed : ((store.row tx).any fun row => row.journalSeq = (journalOf store tx).length ∧
      row.journalDigest = (chainHead (chainDigest sha tx) 0 ""
        ((journalOf store tx).map fun row => (row.event, row.payload))).2) = true := by
    rw [found, Option.any_some, decide_eq_true_eq]
    exact ⟨number, digest⟩
  refine ⟨events, ?_, all⟩
  simp only [readEvents, followed, ok_bind, agreed, require, if_true]
  rfl

end Chains

section Runs

variable (sha : Digester) (casefold : String → String) (tx : String)

/-- What a call that succeeds adds to a journal. -/
def recorded : Call → List (String × String)
  | .append other event payload _ _ _ => if other = tx then [(event, payload)] else []
  | _ => []

/-- What a call adds to a journal. -/
def appended (world : World) (call : Call) : List (String × String) :=
  match perform sha casefold world.store call with
  | .ok _ => recorded tx call
  | .error _ => []

/-- All appends of a run that succeeded, in order. -/
def journaled : World → List Call → List (String × String)
  | _, [] => []
  | world, call :: calls =>
      appended sha casefold tx world call ++ journaled (World.step sha casefold world call) calls

/-- The rows are those of these events, and the head is the end of their chain. -/
structure Journaled (store : Store) (entries : List (String × String)) : Prop where
  rows : (store.journal.rows.filter fun row => row.tx = tx) = chainRows sha tx entries
  head : ∀ row, store.row tx = some row →
    (row.journalSeq, row.journalDigest) = chainHead (chainDigest sha tx) 0 "" entries
  absent : store.row tx = none → entries = []

variable {sha casefold tx} {store next : Store} {outcome : Outcome} {entries : List (String × String)}

/-- Only appends move the head of a journal. -/
theorem Change.head {call : Call} {before after : TransactionRow} (change : Change tx call before after)
    (quiet : ∀ event payload expected attempt device, call ≠ .append tx event payload expected attempt device) :
    (after.journalSeq, after.journalDigest) = (before.journalSeq, before.journalDigest) := by
  cases change with
  | appended free writes => exact (quiet _ _ _ _ _ rfl).elim
  | _ => rfl

theorem Journaled.of_quiet {call : Call} (journaled : Journaled sha tx store entries)
    (carried : Carried tx call (store.row tx) (next.row tx)) (kept : next.journal = store.journal)
    (quiet : ∀ event payload expected attempt device, call ≠ .append tx event payload expected attempt device) :
    Journaled sha tx next entries := by
  obtain ⟨rows, head, absent⟩ := journaled
  generalize store.row tx = old at carried head absent
  generalize made : next.row tx = new at carried
  refine ⟨kept ▸ rows, fun row found => ?_, fun none' => ?_⟩
  · rw [made] at found
    subst found
    cases carried with
    | created plan creates =>
        rw [absent rfl]
        rfl
    | changed change => exact (change.head quiet).trans (head _ rfl)
  · rw [made] at none'
    subst none'
    cases carried with
    | absent => exact absent rfl

/-- What an append has checked and what it writes. -/
theorem append_eq_ok {other event payload device : String} {expected : Option (Nat × String)} {attempt : Attempt}
    (done : append sha store other event payload expected attempt device = .ok (next, outcome)) :
    ∃ row, store.row other = some row ∧ (∀ head ∈ expected, head = (row.journalSeq, row.journalDigest)) ∧
      next.journal.rows = store.journal.rows ++ [rowOf other ⟨row.journalSeq + 1, (event, payload),
        chainDigest sha other (row.journalSeq + 1) row.journalDigest (event, payload)⟩] ∧
      ∀ tx, next.row tx = if tx = other then some { row with
        journalSeq := row.journalSeq + 1
        journalDigest := chainDigest sha other (row.journalSeq + 1) row.journalDigest (event, payload) }
      else store.row tx := by
  simp only [append, bind_eq_ok, require_eq_ok, fetched_eq_ok, decide_eq_true_eq, pure_eq_ok] at done
  obtain ⟨row, held, _, _, _, rfl, _, agreed, journal, inserted, made⟩ := done
  obtain ⟨here, _⟩ := requireAttempt_eq_ok.mp held
  cases made
  refine ⟨row, here, ?_, Table.rows_insert? inserted, fun tx => ?_⟩
  · rintro head ⟨⟩
    simpa using agreed
  · rw [row_modify, row_journal]
    split
    · next same =>
        rw [same, here]
        rfl
    · rfl

@[simp] theorem journal_modify {other : String} {change : TransactionRow → TransactionRow}
    {keeps : ∀ row, (change row).id = row.id} : (store.modify other change keeps).journal = store.journal := rfl

/-- Only appends write rows of the journal. -/
theorem journal_of_perform {call : Call} (done : perform sha casefold store call = .ok (next, outcome))
    (quiet : ∀ other event payload expected attempt device,
      call ≠ .append other event payload expected attempt device) : next.journal = store.journal := by
  cases call with
  | create other plan =>
      obtain ⟨after, created, made⟩ := map_eq_ok.mp done
      cases made
      unfold create at created
      split at created
      · cases created
        rfl
      · cases created
  | approve other expectedSeal =>
      obtain ⟨after, approved, made⟩ := map_eq_ok.mp done
      cases made
      simp only [approve, bind_eq_ok, pure_eq_ok] at approved
      obtain ⟨_, _, _, _, _, _, _, _, _, _, rfl⟩ := approved
      rfl
  | reserveRead other device =>
      obtain ⟨_, _, made⟩ := map_eq_ok.mp done
      cases made
      rfl
  | reserveWrite other device =>
      obtain ⟨after, reserved, made⟩ := map_eq_ok.mp done
      cases made
      simp only [reserveWrite, bind_eq_ok] at reserved
      obtain ⟨inspected, _, made⟩ := reserved
      cases inspected with
      | none =>
          cases made
          rfl
      | some pair =>
          dsimp only at made
          split at made <;> cases made <;> rfl
  | guardPreclaim other device reservation =>
      obtain ⟨_, _, made⟩ := map_eq_ok.mp done
      cases made
      rfl
  | refusePreclaim other device reservation refusal interrupted =>
      simp only [perform, refusePreclaim, bind_eq_ok] at done
      obtain ⟨_, _, _, _, _, _, made⟩ := done
      split at made <;> cases made <;> rfl
  | claim other device attempt reservation =>
      simp only [perform, claim, bind_eq_ok] at done
      obtain ⟨_, _, made⟩ := done
      split at made
      · cases made
        rfl
      · simp only [bind_eq_ok] at made
        obtain ⟨_, _, _, _, _, _, _, _, made⟩ := made
        split at made <;> cases made <;> rfl
  | transition attempt device state reason =>
      simp only [perform, transition, bind_eq_ok, pure_eq_ok] at done
      obtain ⟨_, _, _, _, _, _, made⟩ := done
      cases made
      rfl
  | requestStop other =>
      cases done
      rfl
  | append other event payload expected attempt device => exact (quiet _ _ _ _ _ _ rfl).elim
  | complete attempt device =>
      obtain ⟨after, completed, made⟩ := map_eq_ok.mp done
      cases made
      simp only [completeAttempt, bind_eq_ok, pure_eq_ok] at completed
      obtain ⟨_, _, _, _, _, _, _, _, rfl⟩ := completed
      rfl

/-- One call adds its event to the journal of its transaction, and to no other. -/
theorem journaled_of_perform {call : Call} (done : perform sha casefold store call = .ok (next, outcome))
    (journaled : Journaled sha tx store entries) : Journaled sha tx next (entries ++ recorded tx call) := by
  by_cases appends : ∃ other event payload expected attempt device,
      call = .append other event payload expected attempt device
  · obtain ⟨other, event, payload, expected, attempt, device, rfl⟩ := appends
    obtain ⟨row, found, _, rows, after⟩ := append_eq_ok done
    have mine := after tx
    by_cases same : tx = other
    · subst same
      rw [if_pos rfl] at mine
      have head := journaled.head row found
      simp only [recorded, if_true]
      refine ⟨?_, fun other found => ?_, fun none' => by rw [none'] at mine; cases mine⟩
      · rw [rows, List.filter_append, journaled.rows, chainRows, chainRows, links_snoc, List.map_append, ← head]
        simp [rowOf]
      · rw [mine] at found
        cases found
        rw [chainHead_snoc, ← head]
    · rw [if_neg same] at mine
      simp only [recorded, Ne.symm same, if_false, List.append_nil]
      refine ⟨?_, fun row found => journaled.head row (mine ▸ found), fun none' => journaled.absent (mine ▸ none')⟩
      rw [rows, List.filter_append, journaled.rows]
      simp [rowOf, Ne.symm same]
  · have silent : recorded tx call = [] := by
      cases call with
      | append other event payload expected attempt device => exact absurd ⟨_, _, _, _, _, _, rfl⟩ appends
      | _ => rfl
    have quiet : ∀ other event payload expected attempt device,
        call ≠ .append other event payload expected attempt device :=
      fun other event payload expected attempt device same => appends ⟨_, _, _, _, _, _, same⟩
    rw [silent, List.append_nil]
    exact journaled.of_quiet (carried_of_perform done) (journal_of_perform done quiet) (quiet tx)

theorem journaled_run (calls : List Call) {world : World} (holds : Journaled sha tx world.store entries) :
    Journaled sha tx (run (World.step sha casefold) world calls).store
      (entries ++ journaled sha casefold tx world calls) := by
  induction calls generalizing world entries with
  | nil => rwa [journaled, List.append_nil]
  | cons call calls ih =>
      have one : Journaled sha tx (World.step sha casefold world call).store
          (entries ++ appended sha casefold tx world call) := by
        unfold World.step appended
        cases done : perform sha casefold world.store call with
        | error refused =>
            rw [List.append_nil]
            exact holds
        | ok result => exact journaled_of_perform done holds
      rw [journaled, ← List.append_assoc]
      exact ih one

/-- The journal after a run from the start. -/
theorem journaled_after (calls : List Call) : Journaled sha tx (World.after sha casefold calls).store
    (journaled sha casefold tx World.start calls) :=
  journaled_run calls ⟨rfl, by simp, fun _ => rfl⟩

theorem journaled_append (before later : List Call) (world : World) :
    journaled sha casefold tx world (before ++ later) = journaled sha casefold tx world before ++
      journaled sha casefold tx (run (World.step sha casefold) world before) later := by
  induction before generalizing world with
  | nil => rfl
  | cons call before ih => simp only [List.cons_append, journaled, run_cons, ih, List.append_assoc]

/-- Without the payloads the journal reads the same. -/
theorem events_of_readEvents {loads : String → Option Json} {events : List (String × Json)}
    (read : readEvents sha loads tx store = .ok events) :
    Slice.events sha store tx = .ok ((journalOf store tx).map fun row => (row.event, row.payload)) := by
  have loop : ∀ {rows : List JournalRow} {seq : Nat} {previous : String} {followed : String × List (String × Json)},
      followRows sha loads tx seq previous rows = .ok followed →
      ∃ last, thread (fun (state : Nat × String) (row : JournalRow) => do
        require (row.seq = state.1 + 1 ∧ row.digest = eventDigest sha tx row.seq state.2 row.event row.payload)
          (refuse "JOURNAL_CORRUPT" "")
        return (row.seq, row.digest)) (seq, previous) rows = .ok (last, followed.1) := by
    intro rows
    induction rows with
    | nil =>
        intro seq previous followed done
        cases done
        exact ⟨seq, rfl⟩
    | cons row rows ih =>
        intro seq previous followed done
        simp only [followRows, bind_eq_ok, pure_eq_ok] at done
        obtain ⟨_, follows, payload, _, rest, later, rfl⟩ := done
        obtain ⟨last, threaded⟩ := ih later
        have agreed : decide (row.seq = seq + 1 ∧
            row.digest = eventDigest sha tx row.seq previous row.event row.payload) = true :=
          require_eq_ok.mp follows
        refine ⟨last, ?_⟩
        rw [thread_cons]
        simp only [agreed, require, if_true, ok_bind]
        exact threaded
  simp only [readEvents, bind_eq_ok, pure_eq_ok] at read
  obtain ⟨followed, done, _, headed, _⟩ := read
  obtain ⟨last, threaded⟩ := loop done
  simp only [journalOf] at threaded headed ⊢
  simp only [Slice.events, threaded, ok_bind]
  exact bind_eq_ok.mpr ⟨(), headed, rfl⟩

/-- The rows of a journal come in their order. -/
theorem journalOf_of_journaled (journaled : Journaled sha tx store entries) :
    journalOf store tx = chainRows sha tx entries := by
  rw [journalOf, journaled.rows]
  apply sortBy_of_pairwise
  rw [chainRows, List.pairwise_map]
  exact (pairwise_links entries).imp fun later => Nat.le_of_lt later

theorem bodies_chainRows (entries : List (String × String)) :
    (chainRows sha tx entries).map (fun row => (row.event, row.payload)) = entries := by
  rw [chainRows, List.map_map]
  exact map_body_links entries

theorem verified_of_journaled (journaled : Journaled sha tx store entries) {row : TransactionRow}
    (found : store.row tx = some row) : Verified sha tx store := by
  rw [Verified, journalOf_of_journaled journaled, bodies_chainRows]
  exact ⟨sound_of_links, row, found, journaled.head row found⟩

/-- Of two digests that agree, all parts agree. -/
theorem chainDigest_inj (injective : Function.Injective sha.hash) {m n : Nat} {p q : String} {a b : String × String}
    (same : chainDigest sha tx m p a = chainDigest sha tx n q b) : p = q ∧ a = b := by
  have parts := Json.dumps_injective (injective same)
  simp only [Json.arr.injEq, List.cons.injEq, Json.str.injEq] at parts
  obtain ⟨_, _, previous, event, payload, _⟩ := parts
  exact ⟨previous, Prod.ext event payload⟩

/-- Only the rows of a journal are a chain that ends in its head. -/
theorem journalOf_of_verified (injective : Function.Injective sha.hash) (journaled : Journaled sha tx store entries)
    {tampered : Store} (verified : Verified sha tx tampered) (kept : tampered.row tx = store.row tx) :
    journalOf tampered tx = journalOf store tx := by
  obtain ⟨whole, row, found, head⟩ := verified
  rw [journaled.head row (kept ▸ found)] at head
  have same : entries = _ := (chainHead_inj (chainDigest_inj injective) head).2
  have linked := links_of_sound whole
  rw [← same] at linked
  have own : ∀ row ∈ journalOf tampered tx, rowOf tx row.link = row := by
    intro row member
    rw [journalOf, mem_sortBy, List.mem_filter, decide_eq_true_eq] at member
    obtain ⟨_, rfl⟩ := member
    rfl
  rw [journalOf_of_journaled journaled, chainRows, ← linked, List.map_map]
  exact (List.map_id _).symm.trans (List.map_congr_left fun row member => (own row member).symm)

/-- What was appended is read. -/
theorem readEvents_of_journaled {loads : String → Option Json} (reads : ∀ value : Json, loads value.dumps = some value)
    {events : List (String × Json)}
    (journaled : Journaled sha tx store (events.map fun event => (event.1, event.2.dumps))) {row : TransactionRow}
    (found : store.row tx = some row) : readEvents sha loads tx store = .ok events := by
  let Reads : JournalRow → String × Json → Prop := fun row event =>
    row.event = event.1 ∧ loads row.payload = some event.2
  have bodies : (journalOf store tx).map (fun row => (row.event, row.payload)) =
      events.map fun event => (event.1, event.2.dumps) := by
    rw [journalOf_of_journaled journaled]
    exact bodies_chainRows _
  have paired : List.Forall₂ Reads (journalOf store tx) events := by
    rw [← List.forall₂_eq_eq_eq, List.forall₂_map_left_iff, List.forall₂_map_right_iff] at bodies
    refine bodies.imp fun row event same => ?_
    obtain ⟨name, payload⟩ := Prod.mk.inj same
    exact ⟨name, payload ▸ reads event.2⟩
  have readable : Readable loads (journalOf store tx) := by
    intro row member
    obtain ⟨place, here, rfl⟩ := List.getElem_of_mem member
    exact Option.isSome_iff_exists.mpr ⟨_, (paired.get here (paired.length_eq ▸ here)).2⟩
  obtain ⟨others, read, all⟩ := readEvents_verified readable (verified_of_journaled journaled found)
  have unique : Relator.RightUnique Reads := fun row left right one two =>
    Prod.ext (one.1.symm.trans two.1) (Option.some.inj (one.2.symm.trans two.2))
  rw [read, List.right_unique_forall₂' unique all paired]

end Runs

section Promises

variable (sha : Digester) (casefold : String → String) (loads : String → Option Json)

/-- A call appends to this journal after this head. -/
def AppendsAfter (tx : String) (head : Nat × String) (call : Call) : Prop :=
  ∃ event payload attempt device, call = .append tx event payload (some head) attempt device

/-- After a run, and for the rows and the head that someone has put in its place. -/
structure JournalHolds (calls : List Call) (tx : String) (tampered : Store) : Prop where
  /-- What was appended is read. -/
  exact : ∀ (events : List (String × Json)) (row : TransactionRow),
    (World.after sha casefold calls).store.row tx = some row →
    journaled sha casefold tx World.start calls = events.map (fun event => (event.1, event.2.dumps)) →
    readEvents sha loads tx (World.after sha casefold calls).store = .ok events
  /-- Rows that are no chain with this head are refused. -/
  detected : ¬Verified sha tx tampered →
    ∃ detail, readEvents sha loads tx tampered = .error (refuse "JOURNAL_CORRUPT" detail)
  /-- No other rows are a chain with the head of the run. -/
  bound : tampered.row tx = (World.after sha casefold calls).store.row tx → Verified sha tx tampered →
    journalOf tampered tx = journalOf (World.after sha casefold calls).store tx
  /-- Of two appends after one head, not both succeed. -/
  once : ∀ before first middle second later head, calls = before ++ first :: middle ++ second :: later →
    AppendsAfter tx head first → AppendsAfter tx head second →
    Succeeds sha casefold (World.after sha casefold before) first →
    ¬Succeeds sha casefold (World.after sha casefold (before ++ first :: middle)) second

variable {sha casefold loads}

/-- Where an append succeeds, its head was the number of the events before. -/
theorem length_of_appends {tx : String} {head : Nat × String} {call : Call} {before : List Call}
    (appends : AppendsAfter tx head call) (done : Succeeds sha casefold (World.after sha casefold before) call) :
    head.1 = (journaled sha casefold tx World.start before).length ∧
      appended sha casefold tx (World.after sha casefold before) call ≠ [] := by
  obtain ⟨event, payload, attempt, device, rfl⟩ := appends
  obtain ⟨next, outcome, done⟩ := done
  obtain ⟨row, found, agreed, _⟩ := append_eq_ok done
  constructor
  · have same := (journaled_after before).head row found
    rw [← agreed head rfl] at same
    rw [same, chainHead_number, Nat.zero_add]
  · rw [appended, done]
    simp [recorded]

theorem once_of_run {tx : String} {before middle : List Call} {first second : Call} {head : Nat × String}
    (one : AppendsAfter tx head first) (two : AppendsAfter tx head second)
    (done : Succeeds sha casefold (World.after sha casefold before) first) :
    ¬Succeeds sha casefold (World.after sha casefold (before ++ first :: middle)) second := by
  intro again
  obtain ⟨number, some'⟩ := length_of_appends one done
  obtain ⟨number', _⟩ := length_of_appends two again
  have longer := List.length_pos_iff.mpr some'
  rw [journaled_append, journaled, List.length_append, List.length_append, ← number] at number'
  change head.1 = head.1 + ((appended sha casefold tx (World.after sha casefold before) first).length + _) at number'
  omega

/-- The journal keeps all this exactly where every payload can be read up to the first row that does not go on. -/
theorem journal_holds_iff (injective : Function.Injective sha.hash)
    (reads : ∀ value : Json, loads value.dumps = some value) (calls : List Call) (tx : String) (tampered : Store) :
    JournalHolds sha casefold loads calls tx tampered ↔
      (¬Verified sha tx tampered → Readable loads (sound sha tx 0 "" (journalOf tampered tx))) := by
  constructor
  · intro holds unverified
    by_contra unreadable
    obtain ⟨detail, refused⟩ := holds.detected unverified
    rw [readEvents_unreadable unreadable] at refused
    cases refused
  · intro readable
    refine ⟨fun events row found same => ?_, fun unverified => ?_, fun kept verified => ?_, ?_⟩
    · have journal : Journaled sha tx (World.after sha casefold calls).store
          (journaled sha casefold tx World.start calls) := journaled_after calls
      rw [same] at journal
      exact readEvents_of_journaled reads journal found
    · exact readEvents_corrupt (readable unverified) unverified
    · exact journalOf_of_verified injective (journaled_after calls) verified kept
    · rintro before first middle second later head rfl one two done
      exact once_of_run one two done

end Promises

section Sample

/-- A Start that transfers and appends one event. -/
def appendingRun : List Call :=
  [.create "t" usbPlan, .approve "t" "usb", .reserveRead "t" "usb", .reserveWrite "t" "usb",
    .claim "t" "usb" ⟨"t", "first"⟩ ⟨approved, 0, 0⟩, .transition ⟨"t", "first"⟩ "usb" transferring "",
    .append "t" "operation" (Json.obj []).dumps (some (0, "")) ⟨"t", "first"⟩ "usb"]

/-- The payload of the row is replaced, and its digest goes with it. -/
def editedStore (payload : String) : Store :=
  { (World.after marked id appendingRun).store with
    journal := ⟨[⟨"t", 1, "operation", payload, eventDigest marked "t" 1 "" "operation" payload⟩],
      List.nodup_singleton _⟩ }

/-- An edited row that can still be read is refused for the head, which was left as it was. -/
theorem journal_holds_edited : JournalHolds marked id Json.loads appendingRun "t" (editedStore "[]") := by
  apply (journal_holds_iff marked_injective Json.loads_dumps appendingRun "t" _).mpr
  intro _
  unfold Readable
  decide +kernel

/-- A row with a digest of its own whose payload is no text of a value: not the refusal that is promised. -/
theorem edited_row_raises : ¬JournalHolds marked id Json.loads appendingRun "t" (editedStore "x") := by
  intro holds
  have unverified : ¬Verified marked "t" (editedStore "x") := by
    rintro ⟨_, row, found, same⟩
    have kept : ((editedStore "x").row "t").map (fun row => (row.journalSeq, row.journalDigest)) ≠
        some (chainHead (chainDigest marked "t") 0 "" [("operation", "x")]) := by decide +kernel
    rw [found] at kept
    exact kept (congrArg some same)
  have unreadable : ¬Readable Json.loads (sound marked "t" 0 "" (journalOf (editedStore "x") "t")) := by
    unfold Readable
    decide +kernel
  obtain ⟨detail, refused⟩ := holds.detected unverified
  rw [readEvents_unreadable unreadable] at refused
  cases refused

end Sample

end Modelark.Slice
