import Mathlib

/-!
# Streams

Items that a source hands out in pieces. How many a read returns is up to the source: at least one until
the end, and never more than were asked for.
-/

namespace Modelark.Library

/-- The items that are left, and how many the source grants to each read. -/
structure Stream (α : Type) where
  items : List α
  grants : Nat → Nat
  reads : Nat

namespace Stream

variable {α : Type} (stream : Stream α)

def size (most : Nat) : Nat :=
  min most (max 1 (stream.grants stream.reads))

def next (most : Nat) : Stream α :=
  { stream with items := stream.items.drop (stream.size most), reads := stream.reads + 1 }

/-- The piece that a read returns, and the stream after it. -/
def read (most : Nat) : List α × Stream α :=
  (stream.items.take (stream.size most), stream.next most)

theorem size_le (most : Nat) : stream.size most ≤ most :=
  Nat.min_le_left _ _

theorem size_pos {most : Nat} (asks : 0 < most) : 0 < stream.size most := by
  unfold size
  omega

theorem size_one : stream.size 1 = 1 := by
  unfold size
  omega

theorem read_append (most : Nat) : (stream.read most).1 ++ (stream.read most).2.items = stream.items :=
  List.take_append_drop _ _

theorem read_length_le (most : Nat) : (stream.read most).1.length ≤ most := by
  have le := stream.size_le most
  simp only [read, List.length_take]
  omega

theorem read_eq_nil {most : Nat} (asks : 0 < most) : (stream.read most).1 = [] ↔ stream.items = [] := by
  have pos := stream.size_pos asks
  simp only [read, List.take_eq_nil_iff]
  constructor
  · rintro (none | empty)
    · omega
    · exact empty
  · exact .inr

end Stream

end Modelark.Library
