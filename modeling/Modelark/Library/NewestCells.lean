import Modelark.Library.Dict

/-!
# The newest cells

Cells of keys, each with a clock, of which the newest of a key counts. What counts depends on which cells there
are, not on their order, and cells of one key and one clock must be the same.
-/

namespace Modelark.Library

variable {κ γ τ : Type*} {clock : γ → τ}

/-- No two cells of one key and one clock differ. -/
def Coherent (clock : γ → τ) (cells : List (κ × γ)) : Prop :=
  ∀ key one other, (key, one) ∈ cells → (key, other) ∈ cells → clock one = clock other → one = other

theorem Coherent.of_subset {cells more : List (κ × γ)} (coherent : Coherent clock cells) (subset : more ⊆ cells) :
    Coherent clock more :=
  fun key one other first second => coherent key one other (subset first) (subset second)

variable [LinearOrder κ]

theorem Dict.mem_keys {dict : Dict κ γ} {key : κ} : key ∈ dict.keys ↔ key ∈ dict :=
  Std.ExtTreeMap.mem_keys

/-- A dictionary has one cell of each key. -/
theorem coherent_toList (state : Dict κ γ) : Coherent clock state.toList := by
  intro key one other first second _
  rw [Dict.mem_toList] at first second
  exact Option.some.inj (first.symm.trans second)

variable [LinearOrder τ]

/-- The state has the newest cell of every key. -/
def Newest (clock : γ → τ) (cells : List (κ × γ)) (state : Dict κ γ) : Prop :=
  ∀ key cell, state[key]? = some cell ↔
    (key, cell) ∈ cells ∧ ∀ other, (key, other) ∈ cells → clock other ≤ clock cell

section Newest

variable {cells more : List (κ × γ)} {state other : Dict κ γ}

theorem newest_empty : Newest clock ([] : List (κ × γ)) ∅ := by
  simp [Newest]

theorem newest_toList (state : Dict κ γ) : Newest clock state.toList state := by
  intro key cell
  simp only [Dict.mem_toList]
  constructor
  · intro found
    refine ⟨found, fun other there => ?_⟩
    rw [found] at there
    cases there
    exact le_rfl
  · exact And.left

/-- What counts depends on which cells there are. -/
theorem Newest.of_mem_iff (newest : Newest clock cells state) (same : ∀ entry, entry ∈ cells ↔ entry ∈ more) :
    Newest clock more state := by
  intro key cell
  rw [newest key cell]
  simp only [same]

theorem Newest.unique (newest : Newest clock cells state) (again : Newest clock cells other) : state = other := by
  apply Dict.ext_lookup
  intro key
  ext cell
  rw [newest key cell, again key cell]

/-- The newest cell of a key is at least as new as each of its cells. -/
theorem Newest.exists_newest (newest : Newest clock cells state) {key : κ} {cell : γ}
    (member : (key, cell) ∈ cells) :
    ∃ top, state[key]? = some top ∧ (key, top) ∈ cells ∧
      ∀ other, (key, other) ∈ cells → clock other ≤ clock top := by
  classical
  let own := (cells.filter fun entry => entry.1 = key).toFinset
  have mem_own (other : γ) : (key, other) ∈ own ↔ (key, other) ∈ cells := by simp [own]
  obtain ⟨⟨key', top⟩, among, most⟩ :=
    Finset.exists_max_image own (fun entry => clock entry.2) ⟨(key, cell), (mem_own cell).mpr member⟩
  have here : key' = key := by simpa [own] using (List.mem_filter.mp (List.mem_toFinset.mp among)).2
  subst here
  have greatest : ∀ other, (key', other) ∈ cells → clock other ≤ clock top :=
    fun other there => most (key', other) ((mem_own other).mpr there)
  have there := (mem_own top).mp among
  exact ⟨top, (newest key' top).mpr ⟨there, greatest⟩, there, greatest⟩

/-- The newest of the newest are the newest of all. -/
theorem Newest.trans {early late : Dict κ γ} (first : Newest clock cells early)
    (second : Newest clock (more ++ early.toList) late) : Newest clock (more ++ cells) late := by
  intro key cell
  rw [second key cell]
  simp only [List.mem_append, Dict.mem_toList]
  constructor
  · rintro ⟨member, most⟩
    refine ⟨member.imp id fun found => ((first key cell).mp found).1, fun other there => ?_⟩
    rcases there with added | old
    · exact most other (.inl added)
    · obtain ⟨top, found, _, greatest⟩ := first.exists_newest old
      exact (greatest other old).trans (most top (.inr found))
  · rintro ⟨member, most⟩
    constructor
    · refine member.imp id fun old => ?_
      exact (first key cell).mpr ⟨old, fun other there => most other (.inr there)⟩
    · intro other there
      exact most other (there.imp id fun found => ((first key other).mp found).1)

/-- Cells that are not newer than what counts change nothing. -/
theorem Newest.eq_of_le (newest : Newest clock (more ++ state.toList) other)
    (below : ∀ key cell, (key, cell) ∈ more → ∃ top, state[key]? = some top ∧ clock cell ≤ clock top)
    (coherent : Coherent clock (more ++ state.toList)) : other = state := by
  apply newest.unique
  intro key cell
  simp only [List.mem_append, Dict.mem_toList]
  constructor
  · intro found
    refine ⟨.inr found, fun later there => ?_⟩
    rcases there with added | old
    · obtain ⟨top, here, bound⟩ := below key later added
      rw [found] at here
      cases here
      exact bound
    · rw [found] at old
      cases old
      exact le_rfl
  · rintro ⟨added | old, most⟩
    · obtain ⟨top, here, bound⟩ := below key cell added
      have equal := le_antisymm bound (most top (.inr here))
      have same := coherent key cell top (List.mem_append_left _ added)
        (List.mem_append_right _ (Dict.mem_toList.mpr here)) equal
      rw [same]
      exact here
    · exact old

end Newest

variable [DecidableEq γ]

/-- The state with a cell more, unless it contradicts the cell that counts. -/
def placeCell (clock : γ → τ) (state : Dict κ γ) (key : κ) (cell : γ) : Option (Dict κ γ) :=
  match state[key]? with
  | none => some (state.insert key cell)
  | some previous =>
      if clock previous = clock cell ∧ previous ≠ cell then none
      else some (if clock previous < clock cell then state.insert key cell else state)

variable {cells : List (κ × γ)} {state next : Dict κ γ} {key : κ} {cell : γ}

theorem Newest.placeCell (newest : Newest clock cells state) (placed : placeCell clock state key cell = some next) :
    Newest clock ((key, cell) :: cells) next := by
  unfold Library.placeCell at placed
  intro wanted found
  cases before : state[key]? with
  | none =>
      rw [before] at placed
      cases placed
      have fresh (other : γ) : (key, other) ∉ cells := by
        intro there
        obtain ⟨top, here, _⟩ := newest.exists_newest there
        rw [before] at here
        cases here
      rw [Dict.lookup_insert]
      by_cases same : key = wanted
      · subst same
        simp only [if_true, Option.some.injEq, List.mem_cons, Prod.mk.injEq, true_and, fresh, or_false]
        constructor
        · rintro rfl
          exact ⟨rfl, fun other same => same ▸ le_rfl⟩
        · exact fun same => same.1.symm
      · simp [same, newest wanted found, Ne.symm same]
  | some previous =>
      rw [before] at placed
      obtain ⟨member, most⟩ := (newest key previous).mp before
      by_cases same : key = wanted
      · subst same
        dsimp only at placed
        split at placed
        · cases placed
        · rename_i agrees
          cases placed
          split
          · rename_i later
            have above (other : γ) (there : (key, other) ∈ cells) : clock other ≤ clock cell :=
              (most other there).trans later.le
            rw [Dict.lookup_insert_self]
            simp only [Option.some.injEq, List.mem_cons, Prod.mk.injEq, true_and]
            constructor
            · rintro rfl
              exact ⟨.inl rfl, fun other there => there.elim (fun same => same ▸ le_rfl) (above other)⟩
            · rintro ⟨rfl | old, greatest⟩
              · rfl
              · exact absurd ((greatest cell (.inl rfl)).trans (most found old)) (not_le.mpr later)
          · rename_i notLater
            rw [newest key found]
            simp only [List.mem_cons, Prod.mk.injEq, true_and]
            have below : clock cell ≤ clock previous := not_lt.mp notLater
            constructor
            · rintro ⟨there, greatest⟩
              refine ⟨.inr there, fun other added => added.elim (fun same => ?_) (greatest other)⟩
              rw [same]
              exact below.trans (greatest previous member)
            · rintro ⟨rfl | there, greatest⟩
              · have equal := le_antisymm (greatest previous (.inr member)) below
                have same : previous = found := by
                  by_contra differ
                  exact agrees ⟨equal, differ⟩
                subst same
                exact ⟨member, most⟩
              · exact ⟨there, fun other old => greatest other (.inr old)⟩
      · have kept : next[wanted]? = state[wanted]? := by
          dsimp only at placed
          split at placed
          · cases placed
          · cases placed
            split
            · rw [Dict.lookup_insert_of_ne _ _ same]
            · rfl
        rw [kept, newest wanted found]
        simp [Ne.symm same]

/-- A cell that agrees with all cells there are can be placed. -/
theorem Newest.exists_placeCell (newest : Newest clock cells state)
    (coherent : Coherent clock ((key, cell) :: cells)) : ∃ next, Library.placeCell clock state key cell = some next := by
  unfold Library.placeCell
  cases before : state[key]? with
  | none => exact ⟨_, rfl⟩
  | some previous =>
      have member := ((newest key previous).mp before).1
      have agrees : ¬(clock previous = clock cell ∧ previous ≠ cell) := by
        rintro ⟨equal, differ⟩
        exact differ (coherent key previous cell (List.mem_cons_of_mem _ member) List.mem_cons_self equal)
      exact ⟨_, if_neg agrees⟩

end Modelark.Library
