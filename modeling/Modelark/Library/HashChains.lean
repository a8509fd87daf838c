import Mathlib

/-!
# Hash chains

Numbered links, each with a digest of its number, its body and the digest before it. The number and the digest of
the last link stand for all bodies.
-/

namespace Modelark.Library

structure Link (β η : Type*) where
  number : Nat
  body : β
  digest : η
  deriving DecidableEq

variable {β η : Type*} (digest : Nat → η → β → η)

/-- The links of these bodies after a link with this number and this digest. -/
def links (number : Nat) (previous : η) : List β → List (Link β η)
  | [] => []
  | body :: bodies =>
      let next := digest (number + 1) previous body
      ⟨number + 1, body, next⟩ :: links (number + 1) next bodies

/-- The number and the digest of the last link. -/
def chainHead (number : Nat) (previous : η) : List β → Nat × η
  | [] => (number, previous)
  | body :: bodies => chainHead (number + 1) (digest (number + 1) previous body) bodies

variable {digest} {number : Nat} {previous : η}

@[simp] theorem length_links (bodies : List β) : (links digest number previous bodies).length = bodies.length := by
  induction bodies generalizing number previous with
  | nil => rfl
  | cons body bodies ih => simp [links, ih]

@[simp] theorem map_body_links (bodies : List β) : (links digest number previous bodies).map Link.body = bodies := by
  induction bodies generalizing number previous with
  | nil => rfl
  | cons body bodies ih => simp [links, ih]

/-- The numbers go up by one. -/
theorem number_links {bodies : List β} {link : Link β η} (member : link ∈ links digest number previous bodies) :
    number < link.number := by
  induction bodies generalizing number previous with
  | nil => cases member
  | cons body bodies ih =>
      rcases List.mem_cons.mp member with rfl | later
      · simp
      · have := ih later
        omega

theorem pairwise_links (bodies : List β) :
    (links digest number previous bodies).Pairwise fun link later => link.number < later.number := by
  induction bodies generalizing number previous with
  | nil => exact .nil
  | cons body bodies ih => exact .cons (fun link member => number_links member) ih

theorem chainHead_number (bodies : List β) : (chainHead digest number previous bodies).1 = number + bodies.length := by
  induction bodies generalizing number previous with
  | nil => rfl
  | cons body bodies ih =>
      rw [chainHead, ih, List.length_cons]
      omega

/-- One more body is one more link. -/
theorem links_snoc (bodies : List β) (body : β) : links digest number previous (bodies ++ [body]) =
    links digest number previous bodies ++
      [⟨(chainHead digest number previous bodies).1 + 1, body,
        digest ((chainHead digest number previous bodies).1 + 1) (chainHead digest number previous bodies).2 body⟩] := by
  induction bodies generalizing number previous with
  | nil => rfl
  | cons first bodies ih => simp only [List.cons_append, links, chainHead, ih]

theorem chainHead_snoc (bodies : List β) (body : β) : chainHead digest number previous (bodies ++ [body]) =
    ((chainHead digest number previous bodies).1 + 1,
      digest ((chainHead digest number previous bodies).1 + 1) (chainHead digest number previous bodies).2 body) := by
  induction bodies generalizing number previous with
  | nil => rfl
  | cons first bodies ih => simp only [List.cons_append, chainHead, ih]

/-- Chains with one head have the same bodies, where no two links have one digest. -/
theorem chainHead_inj (injective : ∀ {m n : Nat} {p q : η} {a b : β}, digest m p a = digest n q b → p = q ∧ a = b)
    {bodies others : List β} {previous other : η}
    (same : chainHead digest number previous bodies = chainHead digest number other others) :
    previous = other ∧ bodies = others := by
  have counts := congrArg Prod.fst same
  rw [chainHead_number, chainHead_number] at counts
  induction bodies generalizing number previous other others with
  | nil =>
      obtain rfl : others = [] := List.length_eq_zero_iff.mp (by simpa using counts.symm)
      exact ⟨congrArg Prod.snd same, rfl⟩
  | cons body bodies ih =>
      cases others with
      | nil => simp at counts
      | cons another others =>
          obtain ⟨digests, rest⟩ := ih same (by simpa [Nat.add_assoc, Nat.add_comm 1] using counts)
          obtain ⟨before, here⟩ := injective digests
          exact ⟨before, by rw [here, rest]⟩

end Modelark.Library
