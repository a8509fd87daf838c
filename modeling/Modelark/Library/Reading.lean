import Modelark.Library.Fallible
import Modelark.Library.Streams

/-!
# Readers of streams

A reader gives a result, and leaves the stream somewhere whether it fails or not. Rules for readers
whose result does not depend on how the source cuts its items into reads, and for readers that take a
fixed number of items and none behind them.
-/

namespace Modelark.Library

variable {ε α β γ : Type}

/-- What a reader gives, and the stream it leaves. -/
def Reading (ε α β : Type) : Type :=
  Stream α → Except ε β × Stream α

namespace Reading

instance : Monad (Reading ε α) where
  pure value := fun stream => (.ok value, stream)
  bind first next := fun stream =>
    match first stream with
    | (.ok value, rest) => next value rest
    | (.error failure, rest) => (.error failure, rest)

/-- What needs no reading. -/
def given (result : Except ε β) : Reading ε α β :=
  fun stream => (result, stream)

def check (holds : Bool) (failure : ε) : Reading ε α Unit :=
  given (if holds then .ok () else .error failure)

theorem bind_ok {first : Reading ε α β} {next : β → Reading ε α γ} {stream : Stream α} {value : β}
    (succeeds : (first stream).1 = .ok value) :
    (first >>= next) stream = next value (first stream).2 := by
  change (match first stream with
    | (.ok value, rest) => next value rest
    | (.error failure, rest) => (.error failure, rest)) = _
  generalize first stream = outcome at succeeds
  obtain ⟨_, rest⟩ := outcome
  obtain rfl : _ = Except.ok value := succeeds
  rfl

theorem bind_error {first : Reading ε α β} {next : β → Reading ε α γ} {stream : Stream α} {failure : ε}
    (fails : (first stream).1 = .error failure) :
    (first >>= next) stream = (.error failure, (first stream).2) := by
  change (match first stream with
    | (.ok value, rest) => next value rest
    | (.error failure, rest) => (.error failure, rest)) = _
  generalize first stream = outcome at fails
  obtain ⟨_, rest⟩ := outcome
  obtain rfl : _ = Except.error failure := fails
  rfl

/-- What a sequence gives when it succeeds. -/
theorem bind_eq_ok {first : Reading ε α β} {next : β → Reading ε α γ} {stream : Stream α} {result : γ}
    (succeeds : ((first >>= next) stream).1 = .ok result) :
    ∃ value, (first stream).1 = .ok value ∧ (next value (first stream).2).1 = .ok result := by
  cases read : (first stream).1 with
  | ok value =>
      rw [bind_ok read] at succeeds
      exact ⟨value, rfl, succeeds⟩
  | error failure =>
      rw [bind_error read] at succeeds
      cases succeeds

/-- What a sequence gives when it fails. -/
theorem bind_eq_error {first : Reading ε α β} {next : β → Reading ε α γ} {stream : Stream α} {failure : ε}
    (fails : ((first >>= next) stream).1 = .error failure) :
    (first stream).1 = .error failure ∨
      ∃ value, (first stream).1 = .ok value ∧ (next value (first stream).2).1 = .error failure := by
  cases read : (first stream).1 with
  | ok value =>
      rw [bind_ok read] at fails
      exact .inr ⟨value, rfl, fails⟩
  | error other =>
      rw [bind_error read] at fails
      exact .inl (congrArg Except.error (Except.error.inj fails))

theorem check_eq_ok {holds : Bool} {failure : ε} {stream : Stream α} {value : Unit}
    (succeeds : (check holds failure stream).1 = .ok value) : holds = true := by
  cases holds with
  | true => rfl
  | false => cases succeeds

/-- The result with the stream it leaves, when there is one. -/
def kept : Except ε β × Stream α → Except ε (β × Stream α)
  | (.ok value, rest) => .ok (value, rest)
  | (.error failure, _) => .error failure

theorem eq_of_kept {outcome : Except ε β × Stream α} {value : β} {rest : Stream α}
    (found : kept outcome = .ok (value, rest)) : outcome = (.ok value, rest) := by
  match outcome with
  | (.ok _, _) =>
      cases found
      rfl
  | (.error _, _) => cases found

theorem of_kept_error {outcome : Except ε β × Stream α} {failure : ε}
    (found : kept outcome = .error failure) : outcome.1 = .error failure := by
  match outcome with
  | (.ok _, _) => cases found
  | (.error _, _) =>
      cases found
      rfl

theorem kept_bind {first : Reading ε α β} {next : β → Reading ε α γ} {stream : Stream α} :
    kept ((first >>= next) stream) =
      kept (first stream) >>= fun (value, rest) => kept (next value rest) := by
  change kept (match first stream with
    | (.ok value, rest) => next value rest
    | (.error failure, rest) => (.error failure, rest)) = _
  obtain ⟨result, rest⟩ := first stream
  cases result <;> rfl

theorem kept_check {holds : Bool} {failure : ε} {next : Unit → Reading ε α γ} {stream : Stream α} :
    kept ((check holds failure >>= next) stream) =
      require holds failure >>= fun _ => kept (next () stream) := by
  cases holds <;> rfl

/-- The result and what is left only depend on the items. -/
def Determined (reader : Reading ε α β) : Prop :=
  ∀ one other, one.items = other.items →
    (reader one).1 = (reader other).1 ∧ (reader one).2.items = (reader other).2.items

theorem determined_given (result : Except ε β) : Determined (given result : Reading ε α β) :=
  fun _ _ same => ⟨rfl, same⟩

theorem determined_pure (value : β) : Determined (pure value : Reading ε α β) :=
  fun _ _ same => ⟨rfl, same⟩

theorem Determined.bind {first : Reading ε α β} {next : β → Reading ε α γ}
    (determined : Determined first) (later : ∀ value, Determined (next value)) :
    Determined (first >>= next) := by
  intro one other same
  obtain ⟨results, lefts⟩ := determined one other same
  cases read : (first one).1 with
  | ok value =>
      rw [bind_ok read, bind_ok (results ▸ read)]
      exact later value _ _ lefts
  | error failure =>
      rw [bind_error read, bind_error (results ▸ read)]
      exact ⟨rfl, lefts⟩

/-- The reader takes the first `n` items and none behind them, and all of these when it succeeds. -/
structure Takes (n : Nat) (reader : Reading ε α β) : Prop where
  within : ∀ stream, stream.items.drop n <:+ (reader stream).2.items
  shrinks : ∀ stream, (reader stream).2.items <:+ stream.items
  exactly : ∀ stream value, (reader stream).1 = .ok value →
    n ≤ stream.items.length ∧ (reader stream).2.items = stream.items.drop n

theorem takes_given (result : Except ε β) : Takes 0 (given result : Reading ε α β) :=
  ⟨fun _ => List.suffix_rfl, fun _ => List.suffix_rfl, fun _ _ _ => ⟨Nat.zero_le _, rfl⟩⟩

theorem takes_pure (value : β) : Takes 0 (pure value : Reading ε α β) :=
  ⟨fun _ => List.suffix_rfl, fun _ => List.suffix_rfl, fun _ _ _ => ⟨Nat.zero_le _, rfl⟩⟩

theorem Takes.bind {n m : Nat} {first : Reading ε α β} {next : β → Reading ε α γ}
    (takes : Takes n first)
    (later : ∀ stream value, (first stream).1 = .ok value → Takes m (next value)) :
    Takes (n + m) (first >>= next) := by
  refine ⟨?_, ?_, ?_⟩
  · intro stream
    rw [← List.drop_drop]
    cases read : (first stream).1 with
    | ok value =>
        rw [bind_ok read, ← (takes.exactly stream value read).2]
        exact (later stream value read).within _
    | error failure =>
        rw [bind_error read]
        exact (List.drop_suffix m _).trans (takes.within stream)
  · intro stream
    cases read : (first stream).1 with
    | ok value =>
        rw [bind_ok read]
        exact ((later stream value read).shrinks _).trans (takes.shrinks stream)
    | error failure =>
        rw [bind_error read]
        exact takes.shrinks stream
  · intro stream result succeeds
    obtain ⟨value, read, after⟩ := bind_eq_ok succeeds
    obtain ⟨enough, left⟩ := takes.exactly stream value read
    obtain ⟨more, left'⟩ := (later stream value read).exactly _ result after
    rw [left, List.length_drop] at more
    rw [bind_ok read, left', left, List.drop_drop]
    exact ⟨by omega, rfl⟩

/-- A failure may leave items of a larger share. -/
theorem Takes.mono_of_fails {n m : Nat} {reader : Reading ε α β} (takes : Takes n reader)
    (le : n ≤ m) (fails : ∀ stream value, (reader stream).1 ≠ .ok value) : Takes m reader := by
  refine ⟨fun stream => ?_, takes.shrinks, fun stream value read => absurd read (fails stream value)⟩
  obtain ⟨more, rfl⟩ := Nat.exists_eq_add_of_le le
  rw [← List.drop_drop]
  exact (List.drop_suffix more _).trans (takes.within stream)

end Reading

end Modelark.Library
