import Mathlib

/-!
# Exclusive and shared locks

Parties hold locks on keys, writers exclusively and readers together. While every party takes only keys
that are free for it, no two writers hold one key, and no reader holds a key of a writer.
-/

namespace Modelark.Library

variable {ι ρ κ : Type*}

/-- No key is held by two writers, or by a writer and a reader. -/
structure Excluded (writers : ι → List κ) (readers : ρ → List κ) : Prop where
  apart : ∀ one other, one ≠ other → ∀ key ∈ writers one, key ∉ writers other
  shared : ∀ one reader, ∀ key ∈ writers one, key ∉ readers reader

/-- Nobody holds the key. -/
def Unheld (writers : ι → List κ) (readers : ρ → List κ) (key : κ) : Prop :=
  (∀ one, key ∉ writers one) ∧ ∀ reader, key ∉ readers reader

/-- No writer holds the key. -/
def Readable (writers : ι → List κ) (key : κ) : Prop :=
  ∀ one, key ∉ writers one

instance [Fintype ι] [Fintype ρ] [DecidableEq κ] (writers : ι → List κ) (readers : ρ → List κ)
    (key : κ) : Decidable (Unheld writers readers key) :=
  inferInstanceAs (Decidable (_ ∧ _))

instance [Fintype ι] [DecidableEq κ] (writers : ι → List κ) (key : κ) :
    Decidable (Readable writers key) :=
  inferInstanceAs (Decidable (∀ one, key ∉ writers one))

namespace Excluded

variable {writers : ι → List κ} {readers : ρ → List κ}

/-- Writers and readers that hold a key together are one writer. -/
theorem same (excluded : Excluded writers readers) {one other : ι} {key : κ}
    (first : key ∈ writers one) (second : key ∈ writers other) : one = other := by
  by_contra different
  exact excluded.apart one other different key first second

theorem nobody : Excluded (fun _ : ι => ([] : List κ)) (fun _ : ρ => []) where
  apart := by simp
  shared := by simp

/-- A writer keeps some of its keys and takes free ones. -/
theorem write [DecidableEq ι] (excluded : Excluded writers readers) (party : ι) {keys : List κ}
    (taken : ∀ key ∈ keys, key ∈ writers party ∨ Unheld writers readers key) :
    Excluded (Function.update writers party keys) readers where
  apart := by
    intro one other different key held
    by_cases first : one = party
    · subst first
      rw [Function.update_self] at held
      rw [Function.update_of_ne (Ne.symm different)]
      rcases taken key held with old | free
      · exact excluded.apart one other different key old
      · exact free.1 other
    · rw [Function.update_of_ne first] at held
      by_cases second : other = party
      · subst second
        rw [Function.update_self]
        intro held'
        rcases taken key held' with old | free
        · exact excluded.apart one other different key held old
        · exact free.1 one held
      · rw [Function.update_of_ne second]
        exact excluded.apart one other different key held
  shared := by
    intro one reader key held
    by_cases first : one = party
    · subst first
      rw [Function.update_self] at held
      rcases taken key held with old | free
      · exact excluded.shared one reader key old
      · exact free.2 reader
    · rw [Function.update_of_ne first] at held
      exact excluded.shared one reader key held

/-- A reader keeps some of its keys and takes keys that no writer holds. -/
theorem read [DecidableEq ρ] (excluded : Excluded writers readers) (party : ρ) {keys : List κ}
    (taken : ∀ key ∈ keys, key ∈ readers party ∨ Readable writers key) :
    Excluded writers (Function.update readers party keys) where
  apart := excluded.apart
  shared := by
    intro one reader key held
    by_cases here : reader = party
    · subst here
      rw [Function.update_self]
      intro shared
      rcases taken key shared with old | free
      · exact excluded.shared one reader key held old
      · exact free one held
    · rw [Function.update_of_ne here]
      exact excluded.shared one reader key held

end Excluded

end Modelark.Library
