import Modelark.Library.Dict
import Modelark.Library.Fallible
import Modelark.Library.Runs
import Modelark.Library.Tally
import Modelark.Slice.Plans

/-!
# Allocated bytes

A session adds up what its own objects occupy on the destination. It does so by differences, each time it
looks at an object under one of its names; an object that is being published has two names and counts once.
-/

namespace Modelark.Slice.Allocation

open Library

/-- A journaled operation. A directory has no temporary name. -/
structure Operation where
  path : String
  directory : Bool
  token : String
  temporary : Option String
  deriving Repr, DecidableEq

def Operation.names (op : Operation) : List String :=
  op.path :: op.temporary.toList

/-- What the destination tells of a path. -/
structure ObjectInfo where
  directory : Bool
  token : Option String
  /-- `allocated_bytes`, where it is a natural number. -/
  allocated : Option Nat
  deriving Repr, DecidableEq

/-- The journaled operations, what was recorded of every token under its names, and the counter. -/
structure Account where
  ops : List Operation
  usage : Dict String (Dict String Nat)
  allocatedBytes : Int

/-- `max(usage.values(), default=0)`. -/
def largest (names : Dict String Nat) : Nat :=
  peak Prod.snd names.toList

/-- The object is not the operation's. -/
def collides (op : Operation) (info : Option ObjectInfo) : Bool :=
  info.any fun object => object.token != some op.token || object.directory != op.directory

namespace Account

def start : Account := ⟨[], ∅, 0⟩

variable (account : Account)

/-- `usage.get(token)`, or nothing recorded. -/
def recorded (token : String) : Dict String Nat :=
  account.usage.getD token ∅

/-- Replace what is recorded of a token, and adjust the counter by the difference. -/
def settle (token : String) (names : Dict String Nat) : Account :=
  { account with
    usage := account.usage.insert token names
    allocatedBytes := account.allocatedBytes +
      ((largest names : Int) - (largest (account.recorded token) : Int)) }

/-- `_owned(path, op)`, where the destination tells `info` of the path. -/
def owned (path : String) (op : Operation) (info : Option ObjectInfo) :
    Except Failure (Option ObjectInfo) × Account :=
  if collides op info then (.error (refuse "OUTPUT_COLLISION" path), account)
  else
    match info with
    | none => (.ok none, account.settle op.token ((account.recorded op.token).erase path))
    | some object =>
        match object.allocated with
        | none => (.error (refuse "DESTINATION_ALLOCATION_UNPROVEN" path),
            { account with usage := account.usage.insert op.token (account.recorded op.token) })
        | some bytes =>
            (.ok info, account.settle op.token ((account.recorded op.token).insert path bytes))

/-- An operation is journaled, or an object is looked at. -/
inductive Event where
  | journal (op : Operation)
  | observe (path : String) (op : Operation) (info : Option ObjectInfo)

def step (account : Account) : Event → Account
  | .journal op => { account with ops := account.ops ++ [op] }
  | .observe path op info => (account.owned path op info).2

/-- Only names of journaled operations are looked at. -/
def allowed (account : Account) : Event → Prop
  | .journal _ => True
  | .observe path op _ => op ∈ account.ops ∧ path ∈ op.names

instance (account : Account) (event : Event) : Decidable (allowed account event) :=
  match event with
  | .journal _ => inferInstanceAs (Decidable True)
  | .observe _ op _ => inferInstanceAs (Decidable (op ∈ account.ops ∧ _ ∈ op.names))

/-- The tokens of the journal. -/
def tokens : Finset String :=
  (account.ops.map Operation.token).toFinset

/-- The names under which the journal knows an object. -/
def namesOf (token : String) : List String :=
  (account.ops.filter (·.token == token)).flatMap Operation.names

end Account

/-- What an event tells of a name of a token. -/
def noted (token name : String) (last : Option Nat) : Account.Event → Option Nat
  | .journal _ => last
  | .observe path op info =>
      if op.token = token ∧ path = name ∧ collides op info = false then
        match info with
        | none => none
        | some object => object.allocated.or last
      else last

/-- The last that was told of a name of a token. -/
def lastSeen (events : List Account.Event) (token name : String) : Option Nat :=
  events.foldl (noted token name) none

/-- What a token's object occupies by the last that was told of its names. -/
def occupied (account : Account) (events : List Account.Event) (token : String) : Nat :=
  peak (fun name => (lastSeen events token name).getD 0) (account.namesOf token)

section Inspecting

variable (inspect : String → Option ObjectInfo)

/-- One name of `_allocated`: the total, and the names and tokens met so far. -/
def inspectName (met : Nat × List String) (item : Operation × String) :
    Except Failure (Nat × List String) :=
  if item.2 ∈ met.2 then .ok met
  else
    match inspect item.2 with
    | none => .ok (met.1, item.2 :: met.2)
    | some object =>
        match object.allocated with
        | none => .error (refuse "OUTPUT_COLLISION" item.2)
        | some bytes =>
            if object.token ≠ some item.1.token then .error (refuse "OUTPUT_COLLISION" item.2)
            -- a publication has two names for one object; tokens identify it
            else if item.1.token ∈ item.2 :: met.2 then .ok (met.1, item.2 :: met.2)
            else .ok (met.1 + bytes, item.1.token :: item.2 :: met.2)

/-- `_allocated(store, tx, destination)`. -/
def allocated (ops : List Operation) : Except Failure Nat :=
  (thread (inspectName inspect) (0, []) (ops.flatMap fun op => op.names.map (op, ·))).map Prod.fst

/-- The account tells of every name what the destination tells now: its own object or none, one object
    under two names occupies the same, and no token is also a name. -/
structure Current (account : Account) : Prop where
  owned : ∀ op ∈ account.ops, ∀ name ∈ op.names, ∀ object, inspect name = some object →
    object.token = some op.token ∧ object.allocated.isSome = true
  recorded : ∀ op ∈ account.ops, ∀ name ∈ op.names,
    (account.recorded op.token)[name]? = (inspect name).bind ObjectInfo.allocated
  oneObject : ∀ name other object twin, inspect name = some object → inspect other = some twin →
    object.token = twin.token → object.allocated = twin.allocated
  fresh : ∀ op ∈ account.ops, ∀ other ∈ account.ops, op.token ∉ other.names

end Inspecting

section Observing

variable {account : Account} {path token name : String} {op : Operation} {info : Option ObjectInfo}

theorem recorded_insert (usage : Dict String (Dict String Nat)) (token other : String)
    (names : Dict String Nat) : (usage.insert token names).getD other ∅ =
      if token = other then names else usage.getD other ∅ := by
  rw [Dict.getD_eq, Dict.lookup_insert]
  split
  · rfl
  · rw [Dict.getD_eq]

theorem recorded_settle (names : Dict String Nat) (other : String) :
    (account.settle token names).recorded other =
      if token = other then names else account.recorded other :=
  recorded_insert account.usage token other names

/-- What one look records of every name. -/
theorem recorded_owned : ((account.owned path op info).2.recorded token)[name]? =
    noted token name (account.recorded token)[name]? (.observe path op info) := by
  unfold Account.owned noted
  cases refused : collides op info with
  | true => simp [refused]
  | false =>
      simp only [refused, Bool.false_eq_true, if_false, and_true]
      by_cases same : op.token = token
      · subst same
        cases info with
        | none =>
            rw [recorded_settle, if_pos rfl, Dict.lookup_erase]
            simp
        | some object =>
            cases proven : object.allocated with
            | none =>
                simp only [proven, Option.none_or, ite_self]
                rw [Account.recorded, recorded_insert, if_pos rfl]
            | some bytes =>
                simp only [proven, Option.some_or]
                rw [recorded_settle, if_pos rfl, Dict.lookup_insert]
                simp
      · rw [if_neg (by simp [same])]
        cases info with
        | none => rw [recorded_settle, if_neg same]
        | some object =>
            cases proven : object.allocated with
            | none =>
                simp only [proven]
                rw [Account.recorded, recorded_insert, if_neg same]
                rfl
            | some bytes =>
                simp only [proven]
                rw [recorded_settle, if_neg same]

@[simp] theorem ops_owned : (account.owned path op info).2.ops = account.ops := by
  unfold Account.owned
  split
  · rfl
  · cases info with
    | none => rfl
    | some object => cases proven : object.allocated <;> simp [proven, Account.settle]

/-- A look only moves the counter by what it changes of the record. -/
theorem allocatedBytes_owned : (account.owned path op info).2.allocatedBytes =
    account.allocatedBytes + ((largest ((account.owned path op info).2.recorded op.token) : Int) -
      (largest (account.recorded op.token) : Int)) := by
  unfold Account.owned
  split
  · simp
  · cases info with
    | none =>
        simp only [recorded_settle, if_true]
        rfl
    | some object =>
        cases proven : object.allocated with
        | none =>
            simp only [proven]
            rw [Account.recorded, recorded_insert, if_pos rfl]
            simp
        | some bytes =>
            simp only [proven, recorded_settle, if_true]
            rfl

/-- A look tells nothing of another name, and nothing of an object that is not the operation's. -/
theorem noted_of_not {last : Option Nat}
    (other : ¬(op.token = token ∧ path = name ∧ collides op info = false)) :
    noted token name last (.observe path op info) = last := by
  unfold noted
  exact if_neg other

theorem recorded_owned_of_ne (apart : op.token ≠ token) :
    (account.owned path op info).2.recorded token = account.recorded token := by
  apply Dict.ext_lookup
  intro name
  rw [recorded_owned, noted_of_not (by simp [apart])]

end Observing

theorem lastSeen_snoc (events : List Account.Event) (event : Account.Event) (token name : String) :
    lastSeen (events ++ [event]) token name = noted token name (lastSeen events token name) event := by
  simp [lastSeen, List.foldl_append]

/-- The record tells of every name what was last told of it, knows only names of the journal, and adds up
    to the counter. -/
structure Balanced (account : Account) (events : List Account.Event) : Prop where
  seen : ∀ token name, (account.recorded token)[name]? = lastSeen events token name
  known : ∀ token name, (account.recorded token)[name]? ≠ none → name ∈ account.namesOf token
  total : account.allocatedBytes = ∑ token ∈ account.tokens, (largest (account.recorded token) : Int)

theorem balanced_start : Balanced .start [] where
  seen token name := by simp [Account.recorded, Account.start, Dict.getD_eq, lastSeen]
  known token name some := by simp [Account.recorded, Account.start, Dict.getD_eq] at some
  total := by simp [Account.start, Account.tokens]

section Steps

variable {account : Account} {events : List Account.Event} {op : Operation}

theorem mem_namesOf {token name : String} :
    name ∈ account.namesOf token ↔ ∃ op ∈ account.ops, op.token = token ∧ name ∈ op.names := by
  simp [Account.namesOf, List.mem_flatMap, List.mem_filter, and_assoc]

theorem mem_tokens {token : String} : token ∈ account.tokens ↔ ∃ op ∈ account.ops, op.token = token := by
  simp [Account.tokens]

/-- Nothing is recorded of a token that is not journaled. -/
theorem Balanced.recorded_of_not_mem (balanced : Balanced account events) {token : String}
    (unknown : token ∉ account.tokens) : account.recorded token = ∅ := by
  apply Dict.ext_lookup
  intro name
  rw [Dict.lookup_empty]
  by_contra some
  obtain ⟨op, member, same, _⟩ := mem_namesOf.mp (balanced.known token name some)
  exact unknown (mem_tokens.mpr ⟨op, member, same⟩)

theorem largest_empty : largest ∅ = 0 := by
  rw [largest, Std.ExtTreeMap.toList_eq_nil_iff.mpr rfl, peak_nil]

theorem Balanced.journal (balanced : Balanced account events) (op : Operation) :
    Balanced (account.step (.journal op)) (events ++ [.journal op]) where
  seen token name := by
    rw [lastSeen_snoc, noted, ← balanced.seen token name]
    rfl
  known token name some := by
    obtain ⟨other, member, same, listed⟩ := mem_namesOf.mp (balanced.known token name some)
    exact mem_namesOf.mpr ⟨other, List.mem_append_left _ member, same, listed⟩
  total := by
    change account.allocatedBytes = _
    rw [balanced.total]
    apply Finset.sum_subset
    · intro token member
      obtain ⟨other, listed, same⟩ := mem_tokens.mp member
      exact mem_tokens.mpr ⟨other, List.mem_append_left _ listed, same⟩
    · intro token _ unknown
      change ((largest (account.recorded token) : Nat) : Int) = 0
      rw [balanced.recorded_of_not_mem unknown, largest_empty]
      rfl

theorem Balanced.observe (balanced : Balanced account events) {path : String} {info : Option ObjectInfo}
    (journaled : op ∈ account.ops) (name : path ∈ op.names) :
    Balanced (account.step (.observe path op info)) (events ++ [.observe path op info]) where
  seen token name := by
    rw [lastSeen_snoc, ← balanced.seen token name]
    exact recorded_owned
  known token other some := by
    rw [mem_namesOf]
    change ∃ its ∈ (account.owned path op info).2.ops, _
    rw [ops_owned]
    by_cases here : op.token = token ∧ path = other
    · exact ⟨op, journaled, here.1, here.2 ▸ name⟩
    · apply mem_namesOf.mp
      apply balanced.known token other
      change ((account.owned path op info).2.recorded token)[other]? ≠ none at some
      rwa [recorded_owned, noted_of_not (fun all => here ⟨all.1, all.2.1⟩)] at some
  total := by
    have same : (account.step (.observe path op info)).tokens = account.tokens := by
      simp [Account.tokens, Account.step]
    have member : op.token ∈ account.tokens := mem_tokens.mpr ⟨op, journaled, rfl⟩
    rw [same, ← Finset.add_sum_erase _ _ member]
    have others : ∑ token ∈ account.tokens.erase op.token,
        (largest ((account.step (.observe path op info)).recorded token) : Int) =
          ∑ token ∈ account.tokens.erase op.token, (largest (account.recorded token) : Int) := by
      apply Finset.sum_congr rfl
      intro token listed
      have apart : op.token ≠ token := (Finset.ne_of_mem_erase listed).symm
      change ((largest ((account.owned path op info).2.recorded token) : Nat) : Int) = _
      rw [recorded_owned_of_ne apart]
    have before := balanced.total
    rw [← Finset.add_sum_erase _ _ member] at before
    rw [others]
    change (account.owned path op info).2.allocatedBytes =
      (largest ((account.owned path op info).2.recorded op.token) : Int) + _
    rw [allocatedBytes_owned]
    omega

end Steps

/-- The record adds up to the counter after every sequence of events. -/
theorem balanced_run {events : List Account.Event}
    (permitted : Permitted Account.step Account.allowed .start events) :
    Balanced (run Account.step .start events) events := by
  induction events using List.reverseRecOn with
  | nil => exact balanced_start
  | append_singleton events event ih =>
      obtain ⟨before, last⟩ := permitted_append.mp permitted
      have allows := (permitted_cons.mp last).1
      rw [run_snoc]
      cases event with
      | journal op => exact (ih before).journal op
      | observe path op info => exact (ih before).observe allows.1 allows.2

/-- What is recorded of a token is what its names were last seen to occupy. -/
theorem largest_eq {names : Dict String Nat} {listed : List String}
    (within : ∀ name, names[name]? ≠ none → name ∈ listed) :
    largest names = peak (fun name => (names[name]?).getD 0) listed := by
  apply le_antisymm
  · rw [largest, peak_le_iff]
    intro entry member
    have found := Dict.mem_toList.mp member
    have among : entry.1 ∈ listed := within entry.1 (by simp [found])
    have below := le_peak_of_mem (f := fun name => (names[name]?).getD 0) among
    simpa [found] using below
  · rw [peak_le_iff]
    intro name _
    cases found : names[name]? with
    | none => simp
    | some bytes =>
        have member : (name, bytes) ∈ names.toList := Dict.mem_toList.mpr found
        simpa [largest] using le_peak_of_mem (f := Prod.snd) member

theorem Balanced.largest_recorded {account : Account} {events : List Account.Event}
    (balanced : Balanced account events) (token : String) :
    largest (account.recorded token) = occupied account events token := by
  rw [largest_eq (balanced.known token), occupied]
  simp only [balanced.seen]

section Recomputing

variable {inspect : String → Option ObjectInfo} {account : Account} {events : List Account.Event}

/-- Where the account is current, an object occupies what any of its names tells. -/
theorem Current.largest_eq (current : Current inspect account) (balanced : Balanced account events)
    {op : Operation} (member : op ∈ account.ops) {name : String} (listed : name ∈ op.names)
    {object : ObjectInfo} {bytes : Nat} (found : inspect name = some object)
    (proven : object.allocated = some bytes) : largest (account.recorded op.token) = bytes := by
  have own : (account.recorded op.token)[name]? = some bytes := by
    rw [current.recorded op member name listed, found, Option.bind_some, proven]
  apply le_antisymm
  · rw [largest, peak_le_iff]
    intro entry inside
    have told := Dict.mem_toList.mp inside
    obtain ⟨other, among, same, its⟩ := mem_namesOf.mp (balanced.known op.token entry.1 (by simp [told]))
    rw [← same, current.recorded other among entry.1 its] at told
    obtain ⟨twin, seen, occupies⟩ := Option.bind_eq_some_iff.mp told
    have tokens : object.token = twin.token := by
      rw [(current.owned op member name listed object found).1,
        (current.owned other among entry.1 its twin seen).1, same]
    have equal := current.oneObject name entry.1 object twin found seen tokens
    rw [proven, occupies] at equal
    exact (Option.some.inj equal).ge
  · exact le_peak_of_mem (f := Prod.snd) (Dict.mem_toList.mpr own)

/-- The names met so far: the total is that of the tokens met, and an object met has its token met. -/
structure Sums (inspect : String → Option ObjectInfo) (account : Account) (met : Nat × List String) :
    Prop where
  total : met.1 = ∑ token ∈ account.tokens.filter (· ∈ met.2), largest (account.recorded token)
  met : ∀ name ∈ met.2, name ∈ account.tokens ∨
    ∀ object, inspect name = some object → ∃ token ∈ met.2, object.token = some token

theorem filter_cons_of_not_mem {seen : List String} {name : String} (other : name ∉ account.tokens) :
    account.tokens.filter (· ∈ name :: seen) = account.tokens.filter (· ∈ seen) := by
  apply Finset.filter_congr
  intro token member
  have apart : token ≠ name := by
    rintro rfl
    exact other member
  simp [apart]

/-- One more name keeps the sum, and its object is met then. -/
theorem Sums.step (current : Current inspect account) (balanced : Balanced account events)
    {met : Nat × List String} (sums : Sums inspect account met) {op : Operation}
    (member : op ∈ account.ops) {name : String} (listed : name ∈ op.names) :
    ∃ next, inspectName inspect met (op, name) = .ok next ∧ Sums inspect account next ∧
      met.2 ⊆ next.2 ∧ ((inspect name).isSome = true → op.token ∈ next.2) := by
  have notToken : name ∉ account.tokens := by
    intro token
    obtain ⟨other, among, same⟩ := mem_tokens.mp token
    exact current.fresh other among op member (by rw [same]; exact listed)
  have isToken : op.token ∈ account.tokens := mem_tokens.mpr ⟨op, member, rfl⟩
  unfold inspectName
  by_cases before : name ∈ met.2
  · refine ⟨met, by simp [before], sums, List.Subset.refl _, ?_⟩
    intro present
    obtain ⟨object, found⟩ := Option.isSome_iff_exists.mp present
    obtain ⟨token, inside, same⟩ := (sums.met name before).resolve_left notToken object found
    rw [(current.owned op member name listed object found).1] at same
    rw [Option.some.inj same]
    exact inside
  · cases found : inspect name with
    | none =>
        refine ⟨(met.1, name :: met.2), by simp [before], ⟨?_, ?_⟩,
          List.subset_cons_self _ _, by simp⟩
        · rw [filter_cons_of_not_mem notToken]
          exact sums.total
        · intro other inside
          rcases List.mem_cons.mp inside with rfl | inside
          · exact .inr (by simp [found])
          · refine (sums.met other inside).imp_right fun meets object told => ?_
            obtain ⟨token, within, same⟩ := meets object told
            exact ⟨token, List.mem_cons_of_mem _ within, same⟩
    | some object =>
        obtain ⟨own, proven⟩ := current.owned op member name listed object found
        obtain ⟨bytes, occupies⟩ := Option.isSome_iff_exists.mp proven
        have meets : ∀ seen : List String, met.2 ⊆ seen → op.token ∈ seen → ∀ other ∈ name :: met.2,
            other ∈ account.tokens ∨
              ∀ object, inspect other = some object → ∃ token ∈ seen, object.token = some token := by
          intro seen grown among other inside
          rcases List.mem_cons.mp inside with rfl | inside
          · right
            intro its told
            rw [found] at told
            cases told
            exact ⟨op.token, among, own⟩
          · refine (sums.met other inside).imp_right fun meets its told => ?_
            obtain ⟨token, within, same⟩ := meets its told
            exact ⟨token, grown within, same⟩
        have apart : op.token ≠ name := fun same => notToken (same ▸ isToken)
        by_cases counted : op.token ∈ met.2
        · refine ⟨(met.1, name :: met.2), by simp [before, occupies, own, counted], ⟨?_, ?_⟩,
            List.subset_cons_self _ _, fun _ => List.mem_cons_of_mem _ counted⟩
          · rw [filter_cons_of_not_mem notToken]
            exact sums.total
          · exact meets _ (List.subset_cons_self _ _) (List.mem_cons_of_mem _ counted)
        · refine ⟨(met.1 + bytes, op.token :: name :: met.2),
            by simp [before, occupies, own, counted, apart], ⟨?_, ?_⟩, ?_,
            fun _ => List.mem_cons_self⟩
          · have more : account.tokens.filter (· ∈ op.token :: name :: met.2) =
                insert op.token (account.tokens.filter (· ∈ met.2)) := by
              have without : account.tokens.filter (· ∈ name :: met.2) =
                  account.tokens.filter (· ∈ met.2) := filter_cons_of_not_mem notToken
              rw [← without]
              ext token
              simp only [Finset.mem_filter, Finset.mem_insert, List.mem_cons]
              constructor
              · rintro ⟨inside, here | here⟩
                · exact .inl here
                · exact .inr ⟨inside, here⟩
              · rintro (here | ⟨inside, here⟩)
                · exact ⟨here ▸ isToken, .inl here⟩
                · exact ⟨inside, .inr here⟩
            rw [more, Finset.sum_insert (by simp [counted]), ← sums.total,
              current.largest_eq balanced member listed found occupies, Nat.add_comm]
          · intro other inside
            rcases List.mem_cons.mp inside with rfl | inside
            · exact .inl isToken
            · exact meets _ (fun token within => List.mem_cons_of_mem _ (List.mem_cons_of_mem _ within))
                List.mem_cons_self other inside
          · exact fun token within => List.mem_cons_of_mem _ (List.mem_cons_of_mem _ within)

/-- All names are met, with the sum of all tokens. -/
theorem sums_thread (current : Current inspect account) (balanced : Balanced account events)
    {items : List (Operation × String)} (within : ∀ item ∈ items, item.1 ∈ account.ops ∧ item.2 ∈ item.1.names)
    {met : Nat × List String} (sums : Sums inspect account met) :
    ∃ final, thread (inspectName inspect) met items = .ok final ∧ Sums inspect account final ∧
      met.2 ⊆ final.2 ∧
      ∀ item ∈ items, (inspect item.2).isSome = true → item.1.token ∈ final.2 := by
  induction items generalizing met with
  | nil => exact ⟨met, rfl, sums, List.Subset.refl _, by simp⟩
  | cons item items ih =>
      obtain ⟨member, listed⟩ := within item List.mem_cons_self
      obtain ⟨next, stepped, sumsNext, grown, own⟩ := sums.step current balanced member listed
      obtain ⟨final, rest, sumsFinal, grownFinal, others⟩ :=
        ih (fun other inside => within other (List.mem_cons_of_mem _ inside)) sumsNext
      refine ⟨final, by simp [stepped, rest], sumsFinal, fun token inside => grownFinal (grown inside), ?_⟩
      intro other inside present
      rcases List.mem_cons.mp inside with rfl | inside
      · exact grownFinal (own present)
      · exact others other inside present

/-- `_allocated` gives the sum of what is recorded, where the account is current. -/
theorem allocated_eq (current : Current inspect account) (balanced : Balanced account events) :
    allocated inspect account.ops = .ok (∑ token ∈ account.tokens, largest (account.recorded token)) := by
  have within : ∀ item ∈ account.ops.flatMap fun op => op.names.map (op, ·),
      item.1 ∈ account.ops ∧ item.2 ∈ item.1.names := by
    intro item inside
    obtain ⟨op, member, named⟩ := List.mem_flatMap.mp inside
    obtain ⟨name, listed, rfl⟩ := List.mem_map.mp named
    exact ⟨member, listed⟩
  have begins : Sums inspect account (0, []) := ⟨by simp, by simp⟩
  obtain ⟨final, ran, sums, _, met⟩ := sums_thread current balanced within begins
  rw [allocated, ran]
  refine congrArg Except.ok (sums.total.trans ?_)
  apply Finset.sum_subset (Finset.filter_subset _ _)
  intro token inside unmet
  have absent : ∀ name : String, (account.recorded token)[name]? = none := by
    intro name
    by_contra some
    obtain ⟨op, member, same, listed⟩ := mem_namesOf.mp (balanced.known token name some)
    subst same
    rw [current.recorded op member name listed] at some
    have present : (inspect name).isSome = true := by
      cases found : inspect name with
      | none => simp [found] at some
      | some object => rfl
    have among : (op, name) ∈ account.ops.flatMap fun op => op.names.map (op, ·) :=
      List.mem_flatMap.mpr ⟨op, member, List.mem_map_of_mem listed⟩
    exact unmet (Finset.mem_filter.mpr ⟨inside, by simpa using met _ among present⟩)
  have empty : account.recorded token = ∅ := Dict.ext_lookup fun name => by
    rw [absent name, Dict.lookup_empty]
  rw [empty, largest_empty]

end Recomputing

/-- After every sequence of looks at names of journaled operations the counter is the sum over the journaled
    tokens of what is recorded, which is what their names were last seen to occupy; it is not negative; and
    where the record is current, adding up the whole journal again gives the same. -/
theorem counter_eq (events : List Account.Event)
    (permitted : Permitted Account.step Account.allowed .start events) :
    let account := run Account.step .start events
    account.allocatedBytes = ∑ token ∈ account.tokens, (largest (account.recorded token) : Int) ∧
      account.allocatedBytes = ∑ token ∈ account.tokens, (occupied account events token : Int) ∧
      0 ≤ account.allocatedBytes ∧
      ∀ inspect, Current inspect account →
        ∃ total : Nat, allocated inspect account.ops = .ok total ∧ account.allocatedBytes = total := by
  intro account
  have balanced : Balanced account events := balanced_run permitted
  refine ⟨balanced.total, ?_, ?_, ?_⟩
  · simp only [balanced.total, balanced.largest_recorded]
  · rw [balanced.total]
    exact Finset.sum_nonneg fun token _ => Int.natCast_nonneg _
  · intro inspect current
    refine ⟨_, allocated_eq current balanced, ?_⟩
    rw [balanced.total, Nat.cast_sum]

/-- A file grows under its temporary name, is published and loses the temporary name. -/
def sampleEvents : List Account.Event :=
  let op : Operation := ⟨"m/a", false, "t", some "m/.slice-t"⟩
  let grown (bytes : Nat) : Option ObjectInfo := some ⟨false, some "t", some bytes⟩
  [.journal op, .observe "m/.slice-t" op (grown 0), .observe "m/.slice-t" op (grown 4096),
    .observe "m/a" op (grown 4096), .observe "m/.slice-t" op none]

/-- What the destination holds at the end. -/
def sampleInspect (path : String) : Option ObjectInfo :=
  if path = "m/a" then some ⟨false, some "t", some 4096⟩ else none

theorem sample_current : Current sampleInspect (run Account.step .start sampleEvents) where
  owned := by
    have all : ∀ op ∈ (run Account.step .start sampleEvents).ops, ∀ name ∈ op.names,
        (sampleInspect name).all (fun object =>
          decide (object.token = some op.token ∧ object.allocated.isSome = true)) = true := by decide
    intro op member name among object found
    have own := all op member name among
    rwa [found, Option.all_some, decide_eq_true_eq] at own
  recorded := by decide
  oneObject := by
    intro name other object twin found found' _
    unfold sampleInspect at found found'
    split at found <;> split at found' <;> simp_all
  fresh := by decide

theorem counter_eq_sample :
    0 ≤ (run Account.step .start sampleEvents).allocatedBytes ∧
      (run Account.step .start sampleEvents).allocatedBytes = 4096 ∧
      ∃ total : Nat, allocated sampleInspect (run Account.step .start sampleEvents).ops = .ok total ∧
        (run Account.step .start sampleEvents).allocatedBytes = total := by
  obtain ⟨_, _, natural, again⟩ := counter_eq sampleEvents (by decide)
  exact ⟨natural, by decide, again sampleInspect sample_current⟩

end Modelark.Slice.Allocation
