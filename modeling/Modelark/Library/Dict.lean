import Modelark.Library.Sorting

/-!
# Dictionaries

A finite map with extensional equality over keys in a linear order. `ofPairs` inserts pairs from
left to right, a later pair replacing an earlier one with the same key, so that with distinct keys
the map does not depend on the order of the pairs.
-/

namespace Modelark.Library

variable {κ β : Type*} [LinearOrder κ]

abbrev Dict (κ β : Type*) [LinearOrder κ] := Std.ExtTreeMap κ β compare

namespace Dict

instance transCmp : Std.TransCmp (compare : κ → κ → Ordering) := inferInstance

/-- `{key: value for key, value in pairs}`. -/
def ofPairs (pairs : List (κ × β)) : Dict κ β :=
  pairs.foldl (fun dict pair => dict.insert pair.1 pair.2) ∅

@[simp] theorem ofPairs_nil : ofPairs ([] : List (κ × β)) = ∅ := rfl

@[simp] theorem ofPairs_append_singleton (pairs : List (κ × β)) (pair : κ × β) :
    ofPairs (pairs ++ [pair]) = (ofPairs pairs).insert pair.1 pair.2 := by
  simp only [ofPairs, List.foldl_append, List.foldl_cons, List.foldl_nil]

theorem lookup_insert (dict : Dict κ β) (key other : κ) (value : β) :
    (dict.insert key value)[other]? = if key = other then some value else dict[other]? := by
  rw [Std.ExtTreeMap.getElem?_insert]
  simp only [compare_eq_iff_eq]

@[simp] theorem lookup_insert_self (dict : Dict κ β) (key : κ) (value : β) :
    (dict.insert key value)[key]? = some value := by
  rw [lookup_insert, if_pos rfl]

theorem lookup_insert_of_ne (dict : Dict κ β) {key other : κ} (value : β) (apart : key ≠ other) :
    (dict.insert key value)[other]? = dict[other]? := by
  rw [lookup_insert, if_neg apart]

theorem lookup_erase (dict : Dict κ β) (key other : κ) :
    (dict.erase key)[other]? = if key = other then none else dict[other]? := by
  rw [Std.ExtTreeMap.getElem?_erase]
  simp only [compare_eq_iff_eq]

@[simp] theorem lookup_empty (key : κ) : (∅ : Dict κ β)[key]? = none :=
  Std.ExtTreeMap.getElem?_empty

theorem mem_iff_isSome {dict : Dict κ β} {key : κ} : key ∈ dict ↔ dict[key]?.isSome = true :=
  Std.ExtTreeMap.mem_iff_isSome_getElem?

theorem mem_of_lookup {dict : Dict κ β} {key : κ} {value : β} (found : dict[key]? = some value) :
    key ∈ dict := by
  rw [mem_iff_isSome, found]
  rfl

theorem exists_lookup_of_mem {dict : Dict κ β} {key : κ} (member : key ∈ dict) :
    ∃ value, dict[key]? = some value :=
  Option.isSome_iff_exists.mp (mem_iff_isSome.mp member)

theorem not_mem_iff_lookup {dict : Dict κ β} {key : κ} : key ∉ dict ↔ dict[key]? = none := by
  rw [mem_iff_isSome, Bool.not_eq_true, Option.isSome_eq_false_iff, Option.isNone_iff_eq_none]

theorem ext_lookup {left right : Dict κ β} (same : ∀ key : κ, left[key]? = right[key]?) :
    left = right :=
  Std.ExtTreeMap.ext_getElem? same

theorem getD_eq (dict : Dict κ β) (key : κ) (fallback : β) :
    dict.getD key fallback = dict[key]?.getD fallback :=
  Std.ExtTreeMap.getD_eq_getD_getElem?

/-- Erasing a key that was absent undoes its insertion. -/
theorem erase_insert_of_not_mem {dict : Dict κ β} {key : κ} (value : β) (fresh : key ∉ dict) :
    (dict.insert key value).erase key = dict := by
  apply ext_lookup
  intro other
  rw [lookup_erase, lookup_insert]
  by_cases same : key = other
  · subst same
    rw [if_pos rfl, not_mem_iff_lookup.mp fresh]
  · rw [if_neg same, if_neg same]

/-- Writing the previous value back undoes an insertion. -/
theorem insert_insert_of_lookup {dict : Dict κ β} {key : κ} {old : β} (value : β)
    (found : dict[key]? = some old) : (dict.insert key value).insert key old = dict := by
  apply ext_lookup
  intro other
  rw [lookup_insert, lookup_insert]
  by_cases same : key = other
  · subst same
    rw [if_pos rfl, found]
  · rw [if_neg same, if_neg same]

/-- A value found in a dictionary comes from one of its pairs. -/
theorem mem_of_lookup_ofPairs {pairs : List (κ × β)} {key : κ} {value : β}
    (found : (ofPairs pairs)[key]? = some value) : (key, value) ∈ pairs := by
  induction pairs using List.reverseRecOn with
  | nil =>
      rw [ofPairs_nil, lookup_empty] at found
      cases found
  | append_singleton front pair ih =>
      rw [ofPairs_append_singleton, lookup_insert] at found
      by_cases same : pair.1 = key
      · rw [if_pos same] at found
        have last : pair = (key, value) := Prod.ext same (Option.some.inj found)
        exact List.mem_append_right front (by rw [last]; exact List.mem_singleton_self _)
      · rw [if_neg same] at found
        exact List.mem_append_left _ (ih found)

theorem mem_ofPairs {pairs : List (κ × β)} {key : κ} :
    key ∈ ofPairs pairs ↔ ∃ value, (key, value) ∈ pairs := by
  constructor
  · intro member
    obtain ⟨value, found⟩ := exists_lookup_of_mem member
    exact ⟨value, mem_of_lookup_ofPairs found⟩
  · rintro ⟨value, member⟩
    induction pairs using List.reverseRecOn with
    | nil => exact absurd member List.not_mem_nil
    | append_singleton front pair ih =>
        rw [ofPairs_append_singleton, mem_iff_isSome, lookup_insert]
        by_cases same : pair.1 = key
        · rw [if_pos same]
          rfl
        · rw [if_neg same, ← mem_iff_isSome]
          rcases List.mem_append.mp member with early | last
          · exact ih early
          · rw [List.mem_singleton] at last
            exact absurd (congrArg Prod.fst last).symm same

theorem not_mem_ofPairs {pairs : List (κ × β)} {key : κ} :
    key ∉ ofPairs pairs ↔ key ∉ pairs.map Prod.fst := by
  rw [mem_ofPairs, List.mem_map]
  constructor
  · rintro absent ⟨pair, member, rfl⟩
    exact absent ⟨pair.2, member⟩
  · rintro absent ⟨value, member⟩
    exact absent ⟨(key, value), member, rfl⟩

theorem lookup_ofPairs_map {γ : Type*} (f : β → γ) (pairs : List (κ × β)) (key : κ) :
    (ofPairs (pairs.map fun pair => (pair.1, f pair.2)))[key]? = (ofPairs pairs)[key]?.map f := by
  induction pairs using List.reverseRecOn with
  | nil => simp
  | append_singleton front pair ih =>
      rw [List.map_append, List.map_singleton, ofPairs_append_singleton, ofPairs_append_singleton,
        lookup_insert, lookup_insert, ih]
      split <;> rfl

/-- A dictionary built from records answers, for the key of a record, from some record with it. -/
theorem exists_lookup_of_record {α : Type*} {key : α → κ} {value : α → β} {records : List α}
    {pairs : List (κ × β)} (built : pairs.Perm (records.map fun record => (key record, value record)))
    {record : α} (member : record ∈ records) :
    ∃ other ∈ records, key other = key record ∧ (ofPairs pairs)[key record]? = some (value other) := by
  have listed : (key record, value record) ∈ pairs :=
    built.mem_iff.mpr (List.mem_map_of_mem (f := fun record => (key record, value record)) member)
  obtain ⟨found, lookup⟩ := exists_lookup_of_mem (mem_ofPairs.mpr ⟨_, listed⟩)
  obtain ⟨other, among, same⟩ :=
    List.mem_map.mp (built.mem_iff.mp (mem_of_lookup_ofPairs lookup))
  obtain ⟨sameKey, rfl⟩ := Prod.mk.inj same
  exact ⟨other, among, sameKey, lookup⟩

/-- With distinct keys, looking a key up is membership of its pair. -/
theorem lookup_ofPairs {pairs : List (κ × β)} (distinct : (pairs.map Prod.fst).Nodup)
    {key : κ} {value : β} : (ofPairs pairs)[key]? = some value ↔ (key, value) ∈ pairs := by
  constructor
  · exact mem_of_lookup_ofPairs
  · intro member
    obtain ⟨found, lookup⟩ := exists_lookup_of_mem (mem_ofPairs.mpr ⟨value, member⟩)
    have also := mem_of_lookup_ofPairs lookup
    have same : (key, found) = (key, value) :=
      List.inj_on_of_nodup_map distinct also member rfl
    rw [lookup, (Prod.mk.inj same).2]

/-- With distinct keys, the order of the pairs does not matter. -/
theorem ofPairs_perm {left right : List (κ × β)} (permuted : left.Perm right)
    (distinct : (left.map Prod.fst).Nodup) : ofPairs left = ofPairs right := by
  have distinctRight : (right.map Prod.fst).Nodup :=
    (permuted.map Prod.fst).nodup_iff.mp distinct
  apply ext_lookup
  intro key
  ext value
  rw [lookup_ofPairs distinct, lookup_ofPairs distinctRight, permuted.mem_iff]

theorem mem_toList {dict : Dict κ β} {key : κ} {value : β} :
    (key, value) ∈ dict.toList ↔ dict[key]? = some value :=
  Std.ExtTreeMap.mem_toList_iff_getElem?_eq_some

theorem sorted_toList (dict : Dict κ β) :
    dict.toList.Pairwise fun left right => left.1 < right.1 := by
  have ordered := @Std.ExtTreeMap.ordered_keys_toList _ _ _ dict _
  simpa only [compare_lt_iff_lt] using ordered

theorem nodup_keys_toList (dict : Dict κ β) : (dict.toList.map Prod.fst).Nodup := by
  rw [List.Nodup, List.pairwise_map]
  exact (sorted_toList dict).imp fun below => ne_of_lt below

/-- Reading a dictionary back lists the pairs it was built from. -/
theorem toList_ofPairs_perm {pairs : List (κ × β)} (distinct : (pairs.map Prod.fst).Nodup) :
    (ofPairs pairs).toList.Perm pairs := by
  rw [List.perm_ext_iff_of_nodup (nodup_keys_toList _).of_map distinct.of_map]
  rintro ⟨key, value⟩
  rw [mem_toList, lookup_ofPairs distinct]

theorem size_ofPairs {pairs : List (κ × β)} (distinct : (pairs.map Prod.fst).Nodup) :
    (ofPairs pairs).size = pairs.length := by
  rw [← Std.ExtTreeMap.length_toList]
  exact (toList_ofPairs_perm distinct).length_eq

end Dict

section Find

variable {α ι : Type*} [DecidableEq ι] {key : α → ι}

/-- With distinct keys, searching by key finds the item that carries it. -/
theorem find?_key_eq_some {items : List α} (distinct : (items.map key).Nodup) {wanted : ι}
    {item : α} : items.find? (fun x => key x == wanted) = some item ↔
      item ∈ items ∧ key item = wanted := by
  constructor
  · intro found
    have carries : (key item == wanted) = true := @List.find?_some _ (key · == wanted) _ _ found
    exact ⟨List.mem_of_find?_eq_some found, eq_of_beq carries⟩
  · rintro ⟨member, carries⟩
    cases found : items.find? (fun x => key x == wanted) with
    | none => exact absurd (beq_iff_eq.mpr carries) (List.find?_eq_none.mp found item member)
    | some other =>
        have also : (key other == wanted) = true := @List.find?_some _ (key · == wanted) _ _ found
        have same : key other = key item := (eq_of_beq also).trans carries.symm
        rw [List.inj_on_of_nodup_map distinct (List.mem_of_find?_eq_some found) member same]

theorem find?_key_perm {left right : List α} (permuted : left.Perm right)
    (distinct : (left.map key).Nodup) (wanted : ι) :
    left.find? (fun x => key x == wanted) = right.find? (fun x => key x == wanted) := by
  have distinctRight : (right.map key).Nodup := (permuted.map key).nodup_iff.mp distinct
  ext item
  rw [find?_key_eq_some distinct, find?_key_eq_some distinctRight, permuted.mem_iff]

omit [DecidableEq ι] in
/-- What is made of items with distinct keys and keeps their keys has distinct keys. -/
theorem nodup_keys_filterMap {γ : Type*} {make : α → Option γ} {key' : γ → ι}
    (keeps : ∀ item made, make item = some made → key' made = key item) {items : List α}
    (distinct : (items.map key).Nodup) : ((items.filterMap make).map key').Nodup := by
  apply List.Nodup.sublist _ distinct
  clear distinct
  induction items with
  | nil => simp
  | cons item items ih =>
      cases made : make item with
      | none =>
          rw [List.filterMap_cons_none made]
          exact ih.cons (key item)
      | some other =>
          rw [List.filterMap_cons_some made, List.map_cons, List.map_cons, keeps item other made]
          exact ih.cons_cons (key item)

end Find

end Modelark.Library
