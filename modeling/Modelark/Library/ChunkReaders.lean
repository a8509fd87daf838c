import Modelark.Library.Fallible

/-!
# Readers over chunks

A source gives chunks of any size, and ends well or with an error. A reader hands them on in pieces of at
most the size that is asked for, and knows how much there has to be in all. An empty piece is its end.
-/

namespace Modelark.Library

/-- The errors of a reader itself: a size beyond its limit, more than there has to be, and less. -/
structure ReaderErrors (ε : Type) where
  unbounded : ε
  beyond : ε
  short : ε

/-- What the source still gives, what is left of the current chunk, and how much was taken. -/
structure ChunkReader (α ε : Type) where
  chunks : List (List α)
  ended : Except ε Unit
  pending : List α
  total : Nat
  done : Bool

namespace ChunkReader

variable {α ε : Type} (errors : ReaderErrors ε) (limit expected : Nat)

def give (size : Nat) (reader : ChunkReader α ε) : Except ε (List α) × ChunkReader α ε :=
  (.ok (reader.pending.take size), { reader with pending := reader.pending.drop size })

/-- The source has no chunk left. A source that has raised is at its end. -/
def finish (reader : ChunkReader α ε) : Except ε (List α) × ChunkReader α ε :=
  match reader.ended with
  | .error failure => (.error failure, { reader with ended := .ok () })
  | .ok () =>
      (if reader.total = expected then .ok [] else .error errors.short, { reader with done := true })

/-- The next chunk is begun when nothing of the current one is left. -/
def read (size : Nat) (reader : ChunkReader α ε) : Except ε (List α) × ChunkReader α ε :=
  if limit < size then (.error errors.unbounded, reader)
  else if size = 0 ∨ reader.done then (.ok [], reader)
  else
    match reader.pending, reader.chunks with
    | _ :: _, _ => reader.give size
    | [], [] => reader.finish errors expected
    | [], chunk :: later =>
        let moved := { reader with
          chunks := later, pending := chunk, total := reader.total + chunk.length }
        if expected < moved.total then (.error errors.beyond, moved) else moved.give size

/-- How a caller stands after its reads: it may read on, it has met the end, or an error. -/
inductive Outcome (ε : Type) where
  | further
  | ended
  | failed (failure : ε)

/-- How a caller ends that has read everything. -/
def Outcome.last : Except ε Unit → Outcome ε
  | .ok () => .ended
  | .error failure => .failed failure

/-- The reads of a caller up to the first that is empty, or fails. A read of nothing is no end. -/
def reads : List Nat → ChunkReader α ε → List (List α) × Outcome ε
  | [], _ => ([], .further)
  | size :: sizes, reader =>
      match reader.read errors limit expected size with
      | (.error failure, _) => ([], .failed failure)
      | (.ok piece, next) =>
          if piece = [] ∧ size ≠ 0 then ([], .ended)
          else
            let later := reads sizes next
            (piece :: later.1, later.2)

/-- All that the chunks give behind what was taken, and how it ends. -/
def whole (ended : Except ε Unit) : Nat → List (List α) → List α × Except ε Unit
  | total, [] =>
      ([], ended >>= fun _ => if total = expected then .ok () else .error errors.short)
  | total, chunk :: later =>
      if expected < total + chunk.length then ([], .error errors.beyond)
      else
        let rest := whole ended (total + chunk.length) later
        (chunk ++ rest.1, rest.2)

def rest (reader : ChunkReader α ε) : List α × Except ε Unit :=
  let behind := whole errors expected reader.ended reader.total reader.chunks
  (reader.pending ++ behind.1, behind.2)

/-- The reader has not met its end, and no chunk is empty. -/
structure Ready (reader : ChunkReader α ε) : Prop where
  further : reader.done = false
  nonempty : ∀ chunk ∈ reader.chunks, chunk ≠ []

variable {errors limit expected} {reader : ChunkReader α ε} {size : Nat}

theorem give_spec (ready : reader.Ready) (asks : 0 < size) (pending : reader.pending ≠ []) :
    ∃ piece next, reader.give size = (.ok piece, next) ∧ piece ≠ [] ∧ next.Ready ∧
      reader.rest errors expected =
        (piece ++ (next.rest errors expected).1, (next.rest errors expected).2) := by
  refine ⟨_, _, rfl, ?_, ⟨ready.further, ready.nonempty⟩, ?_⟩
  · simp only [ne_eq, List.take_eq_nil_iff, not_or]
    exact ⟨by omega, pending⟩
  · simp only [rest, ← List.append_assoc, List.take_append_drop]

/-- A read hands on the next items, or there are none and it ends as the source does. -/
theorem read_spec (errors : ReaderErrors ε) (expected : Nat) (ready : reader.Ready) (asks : 0 < size)
    (bounded : size ≤ limit) :
    (∃ piece next, reader.read errors limit expected size = (.ok piece, next) ∧ piece ≠ [] ∧
      next.Ready ∧ reader.rest errors expected =
        (piece ++ (next.rest errors expected).1, (next.rest errors expected).2)) ∨
    ((reader.rest errors expected).1 = [] ∧
      (reader.read errors limit expected size).1 = (reader.rest errors expected).2.map fun _ => []) := by
  have begins : reader.read errors limit expected size =
      match reader.pending, reader.chunks with
      | _ :: _, _ => reader.give size
      | [], [] => reader.finish errors expected
      | [], chunk :: later =>
          let moved := { reader with
            chunks := later, pending := chunk, total := reader.total + chunk.length }
          if expected < moved.total then (.error errors.beyond, moved) else moved.give size := by
    rw [read, if_neg (by omega), if_neg (by simp [ready.further]; omega)]
  cases pending : reader.pending with
  | cons first others =>
      left
      rw [begins, pending]
      exact give_spec ready asks (by simp [pending])
  | nil =>
      cases chunks : reader.chunks with
      | nil =>
          right
          rw [begins, pending, chunks]
          simp only [finish, rest, pending, chunks, whole, List.nil_append, true_and]
          cases reader.ended with
          | error failure => rfl
          | ok => by_cases full : reader.total = expected <;> simp [full, Except.map, bind, Except.bind]
      | cons chunk later =>
          rw [begins, pending, chunks]
          by_cases beyond : expected < reader.total + chunk.length
          · right
            simp only [beyond, if_true, rest, pending, chunks, whole, List.nil_append, true_and]
            rfl
          · left
            simp only [beyond, if_false]
            have whole_rest : reader.rest errors expected =
                rest errors expected { reader with
                  chunks := later, pending := chunk, total := reader.total + chunk.length } := by
              simp only [rest, pending, chunks, whole, beyond, if_false, List.nil_append]
            rw [whole_rest]
            refine give_spec ⟨ready.further, fun other member => ?_⟩ asks ?_
            · exact ready.nonempty other (chunks ▸ List.mem_cons_of_mem _ member)
            · exact ready.nonempty chunk (chunks ▸ List.mem_cons_self)

/-- Reads of nothing change nothing. -/
theorem read_zero : reader.read errors limit expected 0 = (.ok [], reader) := by
  simp [read]

/-- The reads give the items in their order: up to some place while there may be more, and all of them
    before the end or the error. -/
inductive Gives (items : List α) (result : Except ε Unit) (given : List α) : Outcome ε → Prop where
  | further (before : given <+: items) : Gives items result given .further
  | ended (all : given = items) (well : result = .ok ()) : Gives items result given .ended
  | failed {failure : ε} (all : given = items) (badly : result = .error failure) :
      Gives items result given (.failed failure)

theorem Gives.append {items given : List α} {result : Except ε Unit} {outcome : Outcome ε}
    (gives : Gives items result given outcome) (piece : List α) :
    Gives (piece ++ items) result (piece ++ given) outcome := by
  cases gives with
  | further before => exact .further ((List.prefix_append_right_inj piece).mpr before)
  | ended all well => exact .ended (all ▸ rfl) well
  | failed all badly => exact .failed (all ▸ rfl) badly

theorem eq_error_of_last {result : Except ε Unit} {failure : ε}
    (last : Outcome.last result = .failed failure) : result = .error failure := by
  cases result with
  | ok => cases last
  | error other => rw [Outcome.failed.inj last]

theorem Gives.begins {items given : List α} {result : Except ε Unit} {outcome : Outcome ε}
    (gives : Gives items result given outcome) : given <+: items := by
  cases gives with
  | further before => exact before
  | ended all => exact all ▸ List.prefix_rfl
  | failed all => exact all ▸ List.prefix_rfl

theorem Gives.all {items given : List α} {result : Except ε Unit} {outcome : Outcome ε}
    (gives : Gives items result given outcome) (done : outcome ≠ .further) :
    given = items ∧ outcome = .last result := by
  cases gives with
  | further => exact absurd rfl done
  | ended all well => exact ⟨all, by rw [well, Outcome.last]⟩
  | failed all badly => exact ⟨all, by rw [badly, Outcome.last]⟩

theorem reads_piece {sizes : List Nat} {piece : List α} {next : ChunkReader α ε}
    (handed : reader.read errors limit expected size = (.ok piece, next)) (some : piece ≠ []) :
    reads errors limit expected (size :: sizes) reader =
      (piece :: (reads errors limit expected sizes next).1,
        (reads errors limit expected sizes next).2) := by
  rw [reads, handed]
  exact if_neg (by simp [some])

theorem reads_zero {sizes : List Nat} :
    reads errors limit expected (0 :: sizes) reader =
      ([] :: (reads errors limit expected sizes reader).1,
        (reads errors limit expected sizes reader).2) := by
  rw [reads, read_zero]
  exact if_neg (by simp)

/-- Where nothing is left, the first read of something is the last. -/
theorem reads_last {sizes : List Nat} {result : Except ε Unit} (asks : 0 < size)
    (ends : (reader.read errors limit expected size).1 = result.map fun _ => []) :
    reads errors limit expected (size :: sizes) reader =
      ([], .last result) := by
  generalize made : reader.read errors limit expected size = outcome at ends
  obtain ⟨answer, next⟩ := outcome
  cases result with
  | ok =>
      obtain rfl : answer = .ok [] := ends
      rw [reads, made]
      exact if_pos ⟨rfl, Nat.ne_of_gt asks⟩
  | error failure =>
      obtain rfl : answer = .error failure := ends
      rw [reads, made]
      rfl

theorem reads_gives (ready : reader.Ready) {sizes : List Nat} (bounded : ∀ size ∈ sizes, size ≤ limit) :
    Gives (reader.rest errors expected).1 (reader.rest errors expected).2
      (reads errors limit expected sizes reader).1.flatten
      (reads errors limit expected sizes reader).2 := by
  induction sizes generalizing reader with
  | nil => exact .further List.nil_prefix
  | cons size sizes ih =>
      have later : ∀ other ∈ sizes, other ≤ limit :=
        fun other member => bounded other (List.mem_cons_of_mem _ member)
      rcases Nat.eq_zero_or_pos size with rfl | asks
      · rw [reads_zero]
        exact ih ready later
      · rcases read_spec errors expected ready asks (bounded size List.mem_cons_self) with
          ⟨piece, next, handed, some, ready', whole⟩ | ⟨none, ends⟩
        · rw [whole, reads_piece handed some, List.flatten_cons]
          exact (ih ready' later).append piece
        · rw [reads_last asks ends, none]
          cases (reader.rest errors expected).2 with
          | ok => exact .ended rfl rfl
          | error failure => exact .failed rfl rfl

/-- A caller that may read on has been given something by each read of something. -/
theorem further_length (ready : reader.Ready) {sizes : List Nat}
    (bounded : ∀ size ∈ sizes, size ≤ limit)
    (further : (reads errors limit expected sizes reader).2 = .further) :
    (sizes.filter (0 < ·)).length ≤ (reads errors limit expected sizes reader).1.flatten.length := by
  induction sizes generalizing reader with
  | nil => exact Nat.le_refl _
  | cons size sizes ih =>
      have later : ∀ other ∈ sizes, other ≤ limit :=
        fun other member => bounded other (List.mem_cons_of_mem _ member)
      rcases Nat.eq_zero_or_pos size with rfl | asks
      · rw [reads_zero] at further ⊢
        simpa using ih ready later further
      · rcases read_spec errors expected ready asks (bounded size List.mem_cons_self) with
          ⟨piece, next, handed, some, ready', whole⟩ | ⟨none, ends⟩
        · rw [reads_piece handed some] at further ⊢
          have pos := List.length_pos_of_ne_nil some
          have behind := ih ready' later further
          rw [List.filter_cons_of_pos (by simpa using asks), List.length_cons, List.flatten_cons,
            List.length_append]
          omega
        · -- There is nothing left, so the caller has met the end or the error.
          rw [reads_last asks ends] at further
          cases source : (reader.rest errors expected).2 <;> simp [source, Outcome.last] at further

section Whole

variable {ended : Except ε Unit} {total : Nat} {chunks : List (List α)}

theorem whole_length (within : total ≤ expected) :
    total + (whole errors expected ended total chunks).1.length ≤ expected := by
  induction chunks generalizing total with
  | nil => exact within
  | cons chunk later ih =>
      rw [whole]
      split
      case isTrue => exact within
      case isFalse fits =>
        have behind := @ih (total + chunk.length) (by omega)
        simp only [List.length_append]
        omega

/-- The whole ends well only as the source does, with as much as there has to be. -/
theorem whole_eq_ok (well : (whole errors expected ended total chunks).2 = .ok ()) :
    ended = .ok () ∧ (whole errors expected ended total chunks).1 = chunks.flatten ∧
      total + chunks.flatten.length = expected := by
  induction chunks generalizing total with
  | nil =>
      cases ended with
      | error failure => cases well
      | ok =>
          by_cases full : total = expected
          · exact ⟨rfl, rfl, full⟩
          · simp [whole, full, bind, Except.bind] at well
  | cons chunk later ih =>
      by_cases beyond : expected < total + chunk.length
      · simp [whole, beyond] at well
      · simp only [whole, beyond, if_false, List.flatten_cons, List.length_append] at well ⊢
        obtain ⟨source, items, length⟩ := ih well
        exact ⟨source, by rw [items], by omega⟩

/-- Every error is the source's, or one of the two about the length. -/
theorem whole_eq_error {failure : ε}
    (badly : (whole errors expected ended total chunks).2 = .error failure) :
    ended = .error failure ∨ failure = errors.beyond ∨ failure = errors.short := by
  induction chunks generalizing total with
  | nil =>
      cases ended with
      | error other => exact .inl badly
      | ok =>
          by_cases full : total = expected <;> simp [whole, full, bind, Except.bind] at badly
          exact .inr (.inr badly.symm)
  | cons chunk later ih =>
      by_cases beyond : expected < total + chunk.length
      · simp only [whole, beyond, if_true, Except.error.injEq] at badly
        exact .inr (.inl badly.symm)
      · simp only [whole, beyond, if_false] at badly
        exact ih badly

end Whole

end ChunkReader

end Modelark.Library
