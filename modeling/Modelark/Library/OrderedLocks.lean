import Modelark.Library.Sorting

/-!
# Locks taken in one order

Parties ask for sets of keys and take the lock of each key in the order of the keys, shared or
exclusively; a party that may not wait gives up what it has when a lock is taken. In every state such
parties reach, two of them only hold one lock together when both share it, and no parties wait for
each other in a cycle.
-/

namespace Modelark.Library.OrderedLocks

variable {ι κ ℓ : Type*}

/-- What a party asked for, and how many of its keys it has so far. -/
structure Request (κ : Type*) where
  keys : List κ
  shared : Bool
  blocking : Bool
  taken : Nat

namespace Request

variable (request : Request κ)

/-- The keys whose locks the party holds. -/
def held : List κ :=
  request.keys.take request.taken

/-- The key whose lock it takes next. -/
def next? : Option κ :=
  request.keys[request.taken]?

def complete : Prop :=
  request.taken = request.keys.length

variable {request}

theorem held_take {key : κ} (next : request.next? = some key) :
    ({ request with taken := request.taken + 1 } : Request κ).held = request.held ++ [key] := by
  rw [next?] at next
  rw [held, held, List.take_add_one, next]
  rfl

theorem mem_keys_of_next {key : κ} (next : request.next? = some key) : key ∈ request.keys :=
  List.mem_of_getElem? next

theorem held_subset {key : κ} (member : key ∈ request.held) : key ∈ request.keys :=
  List.mem_of_mem_take member

theorem held_of_complete (complete : request.complete) : request.held = request.keys := by
  rw [held, complete, List.take_length]

/-- What is taken comes before what is still to be taken. -/
theorem held_lt_next [LinearOrder κ] (sorted : request.keys.Pairwise (· < ·)) {key next : κ}
    (member : key ∈ request.held) (awaited : request.next? = some next) : key < next := by
  rw [next?, List.getElem?_eq_some_iff] at awaited
  obtain ⟨bound, rfl⟩ := awaited
  obtain ⟨index, before, rfl⟩ := List.mem_take_iff_getElem.mp member
  exact List.pairwise_iff_getElem.mp sorted index request.taken (by omega) bound (by omega)

end Request

/-- The requests of all parties. -/
abbrev State (ι κ : Type*) := ι → Option (Request κ)

/-- The lock of the key is free for a request: whoever holds it shares it, and so does the request. -/
def Free (lock : κ → ℓ) (state : State ι κ) (key : κ) (shared : Bool) : Prop :=
  ∀ party request, state party = some request → ∀ other ∈ request.held,
    lock other = lock key → request.shared = true ∧ shared = true

section Steps

variable [DecidableEq ι] [LinearOrder κ]

/-- What a party does next; it only asks for keys among `keys`. -/
inductive Step (lock : κ → ℓ) (allowed : Set κ) (state : State ι κ) : State ι κ → Prop where
  | ask (party : ι) (keys : List κ) (shared blocking : Bool) (idle : state party = none)
      (among : ∀ key ∈ keys, key ∈ allowed) :
      Step lock allowed state
        (Function.update state party (some ⟨sortedSet keys, shared, blocking, 0⟩))
  | take (party : ι) (request : Request κ) (key : κ) (asked : state party = some request)
      (next : request.next? = some key) (free : Free lock state key request.shared) :
      Step lock allowed state
        (Function.update state party (some { request with taken := request.taken + 1 }))
  /-- A lock is taken by another, and the party may not wait. -/
  | refuse (party : ι) (request : Request κ) (key : κ) (asked : state party = some request)
      (next : request.next? = some key) (taken : ¬Free lock state key request.shared)
      (impatient : request.blocking = false) :
      Step lock allowed state (Function.update state party none)
  | close (party : ι) : Step lock allowed state (Function.update state party none)

/-- The states the parties reach from nobody holding anything. -/
def Reached (lock : κ → ℓ) (allowed : Set κ) : State ι κ → Prop :=
  Relation.ReflTransGen (Step lock allowed) fun _ => none

variable {lock : κ → ℓ} {keys : Set κ} {state : State ι κ}

/-- Every request is sorted and draws from the allowed keys, and locks are only held together when both
    holders share them. -/
structure Orderly (lock : κ → ℓ) (keys : Set κ) (state : State ι κ) : Prop where
  sorted : ∀ party request, state party = some request → request.keys.Pairwise (· < ·)
  among : ∀ party request, state party = some request → ∀ key ∈ request.keys, key ∈ keys
  excluded : ∀ party other, party ≠ other → ∀ one two, state party = some one →
    state other = some two → ∀ key ∈ one.held, ∀ key' ∈ two.held, lock key = lock key' →
      one.shared = true ∧ two.shared = true

theorem Orderly.forget (orderly : Orderly lock keys state) (party : ι) :
    Orderly lock keys (Function.update state party none) := by
  have old : ∀ {other request}, Function.update state party none other = some request →
      state other = some request := by
    intro other request asked
    by_cases here : other = party
    · rw [here, Function.update_self] at asked
      cases asked
    · rwa [Function.update_of_ne here] at asked
  exact ⟨fun other request asked => orderly.sorted other request (old asked),
    fun other request asked => orderly.among other request (old asked),
    fun one two apart first second asked asked' =>
      orderly.excluded one two apart first second (old asked) (old asked')⟩

theorem Orderly.step {after : State ι κ} (orderly : Orderly lock keys state)
    (step : Step lock keys state after) : Orderly lock keys after := by
  cases step with
  | refuse party => exact orderly.forget party
  | close party => exact orderly.forget party
  | ask party wanted shared blocking idle among =>
      refine ⟨?_, ?_, ?_⟩
      · intro other request asked
        by_cases here : other = party
        · rw [here, Function.update_self, Option.some.injEq] at asked
          rw [← asked]
          exact sortedSet_lt wanted
        · rw [Function.update_of_ne here] at asked
          exact orderly.sorted other request asked
      · intro other request asked
        by_cases here : other = party
        · rw [here, Function.update_self, Option.some.injEq] at asked
          rw [← asked]
          intro key member
          exact among key (mem_sortedSet.mp member)
        · rw [Function.update_of_ne here] at asked
          exact orderly.among other request asked
      · -- A new request holds nothing yet.
        intro one two apart first second asked asked' key member key' member' same
        by_cases here : one = party
        · rw [here, Function.update_self, Option.some.injEq] at asked
          rw [← asked] at member
          exact absurd member List.not_mem_nil
        by_cases there : two = party
        · rw [there, Function.update_self, Option.some.injEq] at asked'
          rw [← asked'] at member'
          exact absurd member' List.not_mem_nil
        rw [Function.update_of_ne here] at asked
        rw [Function.update_of_ne there] at asked'
        exact orderly.excluded one two apart first second asked asked' key member key' member' same
  | take party request key asked next free =>
      refine ⟨?_, ?_, ?_⟩
      · intro other found here
        by_cases same : other = party
        · rw [same, Function.update_self, Option.some.injEq] at here
          rw [← here]
          exact orderly.sorted party request asked
        · rw [Function.update_of_ne same] at here
          exact orderly.sorted other found here
      · intro other found here
        by_cases same : other = party
        · rw [same, Function.update_self, Option.some.injEq] at here
          rw [← here]
          exact orderly.among party request asked
        · rw [Function.update_of_ne same] at here
          exact orderly.among other found here
      · -- Against the party that took a lock, the lock was free and the rest was held before.
        have against : ∀ other found, other ≠ party → state other = some found →
            ∀ mine ∈ request.held ++ [key], ∀ theirs ∈ found.held, lock mine = lock theirs →
              request.shared = true ∧ found.shared = true := by
          intro other found apart here mine member theirs member' same
          rcases List.mem_append.mp member with old | new
          · exact orderly.excluded party other apart.symm request found asked here mine old theirs
              member' same
          · rw [List.mem_singleton.mp new] at same
            exact (free other found here theirs member' same.symm).symm
        intro one two apart first second here here' mine member theirs member' same
        by_cases isOne : one = party
        · rw [isOne, Function.update_self, Option.some.injEq] at here
          rw [isOne] at apart
          rw [Function.update_of_ne apart.symm] at here'
          rw [← here, Request.held_take next] at member
          rw [← here]
          exact against two second apart.symm here' mine member theirs member' same
        by_cases isTwo : two = party
        · rw [isTwo, Function.update_self, Option.some.injEq] at here'
          rw [Function.update_of_ne isOne] at here
          rw [← here', Request.held_take next] at member'
          rw [← here']
          exact (against one first isOne here theirs member' mine member same.symm).symm
        rw [Function.update_of_ne isOne] at here
        rw [Function.update_of_ne isTwo] at here'
        exact orderly.excluded one two apart first second here here' mine member theirs member' same

theorem Reached.orderly (reached : Reached lock keys state) : Orderly lock keys state := by
  induction reached with
  | refl => exact ⟨nofun, nofun, nofun⟩
  | tail _ step ih => exact ih.step step

/-- A party that may wait does so for another that holds the lock of its next key. -/
def WaitsFor (lock : κ → ℓ) (state : State ι κ) (party other : ι) : Prop :=
  ∃ request key holder held, state party = some request ∧ request.blocking = true ∧
    request.next? = some key ∧ state other = some holder ∧ held ∈ holder.held ∧
    lock held = lock key ∧ ¬(holder.shared = true ∧ request.shared = true)

omit [DecidableEq ι] in
/-- The key a party waits for is held by the one it waits for, so the awaited keys grow along a chain
    of waiting parties. -/
theorem Orderly.awaited_lt (orderly : Orderly lock keys state) (separate : keys.InjOn lock)
    {party other : ι} (waits : Relation.TransGen (WaitsFor lock state) party other)
    {first last : Request κ} {key key' : κ} (asked : state party = some first)
    (next : first.next? = some key) (asked' : state other = some last)
    (next' : last.next? = some key') : key < key' := by
  have one : ∀ {party other : ι} {first last : Request κ} {key key' : κ},
      WaitsFor lock state party other → state party = some first → first.next? = some key →
        state other = some last → last.next? = some key' → key < key' := by
    rintro party other first last key key' ⟨request, _, holder, held, here, _, awaited, there,
      member, same, _⟩ asked next asked' next'
    obtain rfl := Option.some.inj (asked.symm.trans here)
    obtain rfl := Option.some.inj (asked'.symm.trans there)
    obtain rfl := Option.some.inj (next.symm.trans awaited)
    have equal := separate (orderly.among _ _ asked' held (Request.held_subset member))
      (orderly.among _ _ asked _ (Request.mem_keys_of_next next)) same
    rw [← equal]
    exact Request.held_lt_next (orderly.sorted _ _ asked') member next'
  induction waits generalizing last key' with
  | single waits => exact one waits asked next asked' next'
  | tail _ waits ih =>
      obtain ⟨middle, awaited, _, _, here, _, next'', _⟩ := waits
      exact (ih here next'').trans (one ⟨middle, awaited, _, _, here, ‹_›, next'', ‹_›⟩ here next''
        asked' next')

/-- No parties wait for each other in a cycle. -/
theorem Reached.no_cycle (reached : Reached lock keys state) (separate : keys.InjOn lock) (party : ι) :
    ¬Relation.TransGen (WaitsFor lock state) party party := by
  intro cycle
  obtain ⟨_, waits, _⟩ := Relation.TransGen.head'_iff.mp cycle
  obtain ⟨request, key, _, _, asked, _, next, _⟩ := waits
  exact lt_irrefl key (reached.orderly.awaited_lt separate cycle asked next asked next)

/-- Two parties that have all they asked for, with a key in common, both share it. -/
theorem Reached.exclusive (reached : Reached lock keys state) {party other : ι} (apart : party ≠ other)
    {one two : Request κ} (asked : state party = some one) (asked' : state other = some two)
    (complete : one.complete) (complete' : two.complete) {key : κ} (member : key ∈ one.keys)
    (member' : key ∈ two.keys) : one.shared = true ∧ two.shared = true := by
  rw [← Request.held_of_complete complete] at member
  rw [← Request.held_of_complete complete'] at member'
  exact reached.orderly.excluded party other apart one two asked asked' key member key member' rfl

end Steps

end Modelark.Library.OrderedLocks
