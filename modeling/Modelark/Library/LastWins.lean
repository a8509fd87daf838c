import Modelark.Library.Dict

/-!
# Records of which the last one wins

Records say of an identity, at a clock, whether it is present. An identity is alive when its latest record
says so. A union can change what is alive, unless what is added is present and later than all that was there
of its identity.
-/

namespace Modelark.Library

/-- The members of a finite set in increasing order. -/
def sortedMembers {β : Type*} [LinearOrder β] (members : Finset β) : List β :=
  Quotient.liftOn members.val (sortBy id) fun _ _ => sortBy_id_eq_of_perm

theorem sortedMembers_spec {β : Type*} [LinearOrder β] (members : Finset β) :
    (∀ x, x ∈ sortedMembers members ↔ x ∈ members) ∧ (sortedMembers members).Pairwise (· ≤ ·) := by
  obtain ⟨⟨xs⟩, distinct⟩ := members
  exact ⟨fun x => mem_sortBy, pairwise_sortBy id xs⟩

/-- In a list that is ordered everything is at most the last. -/
theorem le_getLast {ρ : Type*} {R : ρ → ρ → Prop} {records : List ρ} {last : ρ} (sorted : records.Pairwise R)
    (ends : records.getLast? = some last) {r : ρ} (member : r ∈ records) : r = last ∨ R r last := by
  induction records using List.reverseRecOn with
  | nil => cases member
  | append_singleton records final _ =>
      rw [List.getLast?_append_of_ne_nil _ (List.cons_ne_nil _ _), List.getLast?_singleton] at ends
      cases ends
      rcases List.mem_append.mp member with earlier | here
      · exact .inr ((List.pairwise_append.mp sorted).2.2 r earlier last (List.mem_singleton_self last))
      · exact .inl (List.mem_singleton.mp here)

variable {ρ ι τ : Type*}

/-- Records with their projections. -/
structure Stamps (ρ ι τ : Type*) where
  id : ρ → ι
  clock : ρ → τ
  present : ρ → Bool

namespace Stamps

section Alive

variable [LinearOrder τ] (s : Stamps ρ ι τ)

/-- A latest record of the identity is present. -/
def Alive (records : Finset ρ) (i : ι) : Prop :=
  ∃ r ∈ records, s.id r = i ∧ s.present r = true ∧ ∀ other ∈ records, s.id other = i → s.clock other ≤ s.clock r

/-- No two records of one identity and one clock contradict each other. -/
def Coherent (records : Finset ρ) : Prop :=
  ∀ r ∈ records, ∀ other ∈ records, s.id r = s.id other → s.clock r = s.clock other →
    s.present r = s.present other

/-- Records that are added are present, and later than all earlier ones of their identity. -/
def Advances (before added : Finset ρ) : Prop :=
  ∀ r ∈ added, s.present r = true ∧ ∀ old ∈ before, s.id old = s.id r → s.clock old < s.clock r

variable {s} [DecidableEq ρ] {before added : Finset ρ} {i : ι}

/-- An identity with an added record is alive. -/
theorem Advances.alive (advances : s.Advances before added) {r : ρ} (member : r ∈ added) :
    s.Alive (before ∪ added) (s.id r) := by
  classical
  have some' : (added.filter fun other => s.id other = s.id r).Nonempty :=
    ⟨r, Finset.mem_filter.mpr ⟨member, rfl⟩⟩
  obtain ⟨latest, among, most⟩ := Finset.exists_max_image _ s.clock some'
  obtain ⟨listed, same⟩ := Finset.mem_filter.mp among
  refine ⟨latest, Finset.mem_union_right _ listed, same, (advances latest listed).1, ?_⟩
  intro other there own
  rcases Finset.mem_union.mp there with old | new
  · exact ((advances latest listed).2 other old (own.trans same.symm)).le
  · exact most other (Finset.mem_filter.mpr ⟨new, own⟩)

/-- What is alive after a union is what was alive, and what has been added. -/
theorem alive_union (advances : s.Advances before added) :
    s.Alive (before ∪ added) i ↔ s.Alive before i ∨ ∃ r ∈ added, s.id r = i := by
  constructor
  · rintro ⟨r, member, own, present, most⟩
    rcases Finset.mem_union.mp member with old | new
    · left
      refine ⟨r, old, own, present, fun other there => ?_⟩
      exact most other (Finset.mem_union_left _ there)
    · exact .inr ⟨r, new, own⟩
  · intro was
    by_cases fresh : ∃ r ∈ added, s.id r = i
    · obtain ⟨r, member, rfl⟩ := fresh
      exact advances.alive member
    · rcases was with ⟨r, old, own, present, most⟩ | impossible
      · refine ⟨r, Finset.mem_union_left _ old, own, present, ?_⟩
        intro other there same
        rcases Finset.mem_union.mp there with earlier | added
        · exact most other earlier same
        · exact absurd ⟨other, added, same⟩ fresh
      · exact absurd impossible fresh

end Alive

variable [LinearOrder ι]

/-- The last record of each identity. -/
def latest (s : Stamps ρ ι τ) (records : List ρ) : Dict ι ρ :=
  records.foldl (fun latest r => latest.insert (s.id r) r) ∅

theorem lookup_latest (s : Stamps ρ ι τ) (records : List ρ) (i : ι) :
    (s.latest records)[i]? = (records.filter fun r => s.id r = i).getLast? := by
  induction records using List.reverseRecOn with
  | nil => exact Dict.lookup_empty i
  | append_singleton records r ih =>
      have step : s.latest (records ++ [r]) = (s.latest records).insert (s.id r) r := by
        simp [latest]
      rw [step, Dict.lookup_insert, List.filter_append, ih]
      by_cases own : s.id r = i
      · rw [if_pos own, List.filter_singleton]
        simp [own]
      · rw [if_neg own, List.filter_singleton]
        simp [own]

/-- The latest records tell what is alive. -/
theorem alive_iff_latest [LinearOrder τ] {s : Stamps ρ ι τ} {i : ι} {records : Finset ρ}
    (coherent : s.Coherent records) {sorted : List ρ}
    (members : ∀ r, r ∈ sorted ↔ r ∈ records)
    (ordered : sorted.Pairwise fun r other => s.id r = s.id other → s.clock r ≤ s.clock other) :
    s.Alive records i ↔ ∃ r, (s.latest sorted)[i]? = some r ∧ s.present r = true := by
  rw [s.lookup_latest]
  have own {r : ρ} : r ∈ sorted.filter (fun r => s.id r = i) ↔ r ∈ records ∧ s.id r = i := by
    rw [List.mem_filter, members, decide_eq_true_iff]
  have most {last : ρ} (ends : (sorted.filter fun r => s.id r = i).getLast? = some last) {r : ρ}
      (member : r ∈ records) (same : s.id r = i) : s.clock r ≤ s.clock last := by
    have among := (own.mp (List.mem_of_getLast? ends)).2
    rcases le_getLast (ordered.filter _) ends (own.mpr ⟨member, same⟩) with rfl | below
    · exact le_rfl
    · exact below (same.trans among.symm)
  constructor
  · rintro ⟨r, member, same, present, latest⟩
    cases ends : (sorted.filter fun r => s.id r = i).getLast? with
    | none =>
        rw [List.getLast?_eq_none_iff] at ends
        have among := own.mpr ⟨member, same⟩
        rw [ends] at among
        cases among
    | some last =>
        obtain ⟨listed, among⟩ := own.mp (List.mem_of_getLast? ends)
        have equal := le_antisymm (most ends member same) (latest last listed among)
        exact ⟨last, rfl, (coherent r member last listed (same.trans among.symm) equal).symm.trans present⟩
  · rintro ⟨last, ends, present⟩
    obtain ⟨listed, among⟩ := own.mp (List.mem_of_getLast? ends)
    exact ⟨last, listed, among, present, fun other there same => most ends there same⟩

end Stamps

end Modelark.Library
