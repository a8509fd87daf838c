import Mathlib

/-!
# Fallible steps in sequence

Rules for computations that may be refused: when a sequence of steps succeeds, and what it then
preserves.
-/

namespace Modelark.Library

universe u v

variable {ε : Type v} {α β σ : Type u} {ι : Type*}

@[simp] theorem bind_eq_ok {first : Except ε α} {next : α → Except ε β} {result : β} :
    (first >>= next) = .ok result ↔ ∃ value, first = .ok value ∧ next value = .ok result := by
  cases first with
  | error refused => simp [bind, Except.bind]
  | ok value => simp [bind, Except.bind]

/-- A sequence is refused by its first step, or by what follows it. -/
theorem bind_eq_error {first : Except ε α} {next : α → Except ε β} {refused : ε} :
    (first >>= next) = .error refused ↔
      first = .error refused ∨ ∃ value, first = .ok value ∧ next value = .error refused := by
  cases first with
  | error other => simp [bind, Except.bind]
  | ok value => simp [bind, Except.bind]

@[simp] theorem map_eq_ok {first : Except ε α} {f : α → β} {result : β} :
    f <$> first = .ok result ↔ ∃ value, first = .ok value ∧ f value = result := by
  cases first with
  | error refused => simp [Functor.map, Except.map]
  | ok value => simp [Functor.map, Except.map]

@[simp] theorem ok_bind {value : α} {next : α → Except ε β} :
    ((.ok value : Except ε α) >>= next) = next value := rfl

@[simp] theorem error_bind {refused : ε} {next : α → Except ε β} :
    ((.error refused : Except ε α) >>= next) = .error refused := rfl

@[simp] theorem pure_eq_ok {value other : α} : (pure value : Except ε α) = .ok other ↔ value = other := by
  simp [pure, Except.pure]

@[simp] theorem toOption_eq_some {result : Except ε α} {value : α} :
    result.toOption = some value ↔ result = .ok value := by
  cases result <;> simp [Except.toOption]

theorem mapError_eq_ok {ε' : Type*} {first : Except ε α} {rename : ε → ε'} {value : α} :
    first.mapError rename = .ok value ↔ first = .ok value := by
  cases first <;> simp [Except.mapError]

/-- A check. -/
def require (holds : Bool) (refused : ε) : Except ε Unit :=
  if holds then .ok () else .error refused

@[simp] theorem require_eq_ok {holds : Bool} {refused : ε} {result : Unit} :
    require holds refused = .ok result ↔ holds = true := by
  cases holds <;> simp [require]

theorem require_eq_error {holds : Bool} {refused raised : ε} :
    (require holds refused : Except ε Unit) = .error raised ↔ holds = false ∧ refused = raised := by
  cases holds <;> simp [require]

@[simp] theorem toOption_ok {value : α} : (.ok value : Except ε α).toOption = some value := rfl

@[simp] theorem toOption_error {refused : ε} : (.error refused : Except ε α).toOption = none := rfl

@[simp] theorem toOption_pure {value : α} : (pure value : Except ε α).toOption = some value := rfl

@[simp] theorem toOption_bind {first : Except ε α} {next : α → Except ε β} :
    (first >>= next).toOption = first.toOption.bind fun value => (next value).toOption := by
  cases first <;> rfl

@[simp] theorem toOption_require {holds : Bool} {refused : ε} :
    (require holds refused).toOption = if holds then some () else none := by
  cases holds <;> rfl

/-- Every item of a list that is read has its result. -/
theorem exists_of_mapM {f : α → Except ε β} {items : List α} {results : List β}
    (mapped : items.mapM f = .ok results) {item : α} (member : item ∈ items) :
    ∃ result ∈ results, f item = .ok result := by
  induction items generalizing results with
  | nil => cases member
  | cons first items ih =>
      simp only [List.mapM_cons, bind_eq_ok, pure_eq_ok] at mapped
      obtain ⟨result, one, others, rest, rfl⟩ := mapped
      rcases List.mem_cons.mp member with rfl | later
      · exact ⟨result, List.mem_cons_self, one⟩
      · obtain ⟨found, among, same⟩ := ih rest later
        exact ⟨found, List.mem_cons_of_mem _ among, same⟩

/-- Every result of a list that is read is that of an item. -/
theorem exists_of_mem_mapM {f : α → Except ε β} {items : List α} {results : List β}
    (mapped : items.mapM f = .ok results) {result : β} (member : result ∈ results) :
    ∃ item ∈ items, f item = .ok result := by
  induction items generalizing results with
  | nil =>
      cases mapped
      cases member
  | cons first items ih =>
      simp only [List.mapM_cons, bind_eq_ok, pure_eq_ok] at mapped
      obtain ⟨head, one, others, rest, rfl⟩ := mapped
      rcases List.mem_cons.mp member with rfl | later
      · exact ⟨first, List.mem_cons_self, one⟩
      · obtain ⟨found, among, same⟩ := ih rest later
        exact ⟨found, List.mem_cons_of_mem _ among, same⟩

/-- A list that is not read has an item that is refused. -/
theorem exists_of_mapM_error {f : α → Except ε β} {items : List α} {refused : ε}
    (stopped : items.mapM f = .error refused) : ∃ item ∈ items, f item = .error refused := by
  induction items with
  | nil => cases stopped
  | cons first items ih =>
      rw [List.mapM_cons] at stopped
      rcases bind_eq_error.mp stopped with here | ⟨_, _, later⟩
      · exact ⟨first, List.mem_cons_self, here⟩
      · rcases bind_eq_error.mp later with rest | ⟨_, _, last⟩
        · obtain ⟨item, member, refuses⟩ := ih rest
          exact ⟨item, List.mem_cons_of_mem _ member, refuses⟩
        · cases last

/-- The steps of a list one after another, until one is refused. -/
def thread (step : σ → ι → Except ε σ) : σ → List ι → Except ε σ
  | state, [] => .ok state
  | state, item :: items => step state item >>= fun next => thread step next items

variable {step : σ → ι → Except ε σ} {start final : σ}

@[simp] theorem thread_nil : thread step start [] = .ok start := rfl

@[simp] theorem thread_cons {item : ι} {items : List ι} :
    thread step start (item :: items) = step start item >>= fun next => thread step next items := rfl

theorem thread_append (items rest : List ι) : thread step start (items ++ rest) =
    thread step start items >>= fun state => thread step state rest := by
  induction items generalizing start with
  | nil => simp
  | cons item items ih =>
      cases first : step start item with
      | error refused => simp [first]
      | ok next => simp [first, ih]

/-- What every successful step preserves holds after a successful sequence. -/
theorem thread_invariant (inv : σ → Prop) {items : List ι}
    (preserved : ∀ state item next, item ∈ items → step state item = .ok next → inv state → inv next)
    (succeeded : thread step start items = .ok final) (holds : inv start) : inv final := by
  induction items generalizing start with
  | nil =>
      cases succeeded
      exact holds
  | cons item items ih =>
      obtain ⟨next, stepped, rest⟩ := bind_eq_ok.mp succeeded
      apply ih _ rest
      · exact preserved start item next List.mem_cons_self stepped holds
      · intro state other after member
        exact preserved state other after (List.mem_cons_of_mem item member)

/-- Every step of a successful sequence has succeeded. -/
theorem thread_steps {items : List ι} (succeeded : thread step start items = .ok final) :
    ∀ item ∈ items, ∃ state next, step state item = .ok next := by
  induction items generalizing start with
  | nil => simp
  | cons item items ih =>
      obtain ⟨next, stepped, rest⟩ := bind_eq_ok.mp succeeded
      intro other member
      rcases List.mem_cons.mp member with rfl | member
      · exact ⟨start, next, stepped⟩
      · exact ih rest other member

/-- A sequence that is refused is refused by one of its steps. -/
theorem exists_of_thread_error {items : List ι} {refused : ε} (stopped : thread step start items = .error refused) :
    ∃ state, ∃ item ∈ items, step state item = .error refused := by
  induction items generalizing start with
  | nil => cases stopped
  | cons item items ih =>
      rcases bind_eq_error.mp stopped with here | ⟨next, _, rest⟩
      · exact ⟨start, item, List.mem_cons_self, here⟩
      · obtain ⟨state, other, member, refuses⟩ := ih rest
        exact ⟨state, other, List.mem_cons_of_mem item member, refuses⟩

/-- A sequence succeeds when an invariant of the items still to come lets every step succeed. -/
theorem thread_progress (inv : σ → List ι → Prop)
    (progress : ∀ state item items, inv state (item :: items) →
      ∃ next, step state item = .ok next ∧ inv next items)
    (start : σ) {items : List ι} (holds : inv start items) :
    ∃ final, thread step start items = .ok final ∧ inv final [] := by
  induction items generalizing start with
  | nil => exact ⟨start, rfl, holds⟩
  | cons item items ih =>
      obtain ⟨next, stepped, kept⟩ := progress start item items holds
      obtain ⟨final, rest, done⟩ := ih next kept
      exact ⟨final, by simp [stepped, rest], done⟩

/-- Checks that all pass. -/
theorem thread_checks {check : Unit → ι → Except ε Unit} {items : List ι}
    (passed : ∀ item ∈ items, check () item = .ok ()) : thread check () items = .ok () := by
  induction items with
  | nil => rfl
  | cons item items ih =>
      have rest := ih fun other member => passed other (List.mem_cons_of_mem item member)
      simp [passed item List.mem_cons_self, rest]

theorem of_thread_checks {check : Unit → ι → Except ε Unit} {items : List ι} {result : Unit}
    (passed : thread check () items = .ok result) : ∀ item ∈ items, check () item = .ok () := by
  induction items with
  | nil => simp
  | cons item items ih =>
      obtain ⟨_, first, rest⟩ := bind_eq_ok.mp passed
      intro other member
      rcases List.mem_cons.mp member with rfl | member
      · exact first
      · exact ih rest other member

section Collect

universe w

variable {γ : Type w} {keep : ι → Except ε (Option γ)}

/-- What a step keeps of each item in turn, until one is refused. -/
def collect (keep : ι → Except ε (Option γ)) : List ι → Except ε (List γ)
  | [] => .ok []
  | item :: items =>
      match keep item with
      | .error refused => .error refused
      | .ok kept =>
          match collect keep items with
          | .error refused => .error refused
          | .ok rest => .ok (kept.toList ++ rest)

/-- Nothing is refused, and the kept values stand in the order of their items. -/
theorem collect_eq_ok {items : List ι} {result : List γ} :
    collect keep items = .ok result ↔
      (∀ item ∈ items, ∃ kept, keep item = .ok kept) ∧
        result = items.filterMap fun item => (keep item).toOption.join := by
  induction items generalizing result with
  | nil => simp [collect, eq_comm]
  | cons item items ih =>
      cases first : keep item with
      | error refused => simp [collect, first]
      | ok kept =>
          cases rest : collect keep items with
          | error refused =>
              have blocked : ¬∀ item ∈ items, ∃ kept, keep item = .ok kept := by
                intro all
                have done := (@ih (items.filterMap fun item => (keep item).toOption.join)).mpr
                  ⟨all, rfl⟩
                rw [rest] at done
                cases done
              simp only [collect, first, rest, reduceCtorEq, false_iff, not_and]
              intro all
              exact absurd (fun other member => all other (List.mem_cons_of_mem _ member)) blocked
          | ok others =>
              obtain ⟨all, same⟩ := ih.mp rest
              have values : (item :: items).filterMap (fun item => (keep item).toOption.join) =
                  kept.toList ++ others := by
                cases kept <;> simp [first, same, Except.toOption]
              rw [values]
              simp only [collect, first, rest, Except.ok.injEq, List.mem_cons, forall_eq_or_imp]
              constructor
              · rintro rfl
                exact ⟨⟨⟨kept, rfl⟩, all⟩, rfl⟩
              · rintro ⟨_, rfl⟩
                rfl

end Collect

end Modelark.Library
