import Modelark.Publication.MetadataTree

/-!
# Leaves of metadata branches

A snapshot that is taken holds the files of the tree of its commit, each once, and its trees are canonical; so the
files alone determine the tree.
-/

namespace Modelark.Publication.MapTree

open Library Revision Conversion

/-- Records and the bytes of a tree. -/
inductive Encoded : List TreeRecord → Bytes → Prop where
  | nil : Encoded [] []
  | cons {isDirectory : Bool} {name oid bytes : Bytes} {listed : List TreeRecord} (some' : name ≠ [])
      (plain : 47 ∉ name) (whole : oid.length = 20) (rest : Encoded listed bytes) :
      Encoded (⟨isDirectory, name, hexText oid⟩ :: listed)
        (modeText isDirectory ++ 32 :: (name ++ 0 :: (oid ++ bytes)))

/-- The records of a tree. -/
def records : Nat → Bytes → Option (List TreeRecord)
  | 0, raw => if raw.isEmpty then some [] else none
  | fuel + 1, raw =>
      if raw.isEmpty then some []
      else match readRecord raw with
        | .ok (record, rest) => (records fuel rest).map (record :: ·)
        | .error _ => none

section Records

theorem splitAt_eq_some {separator : UInt8} {raw before after : Bytes}
    (found : splitAt [separator] raw = some (before, after)) : raw = before ++ separator :: after := by
  induction raw generalizing before with
  | nil => cases found
  | cons byte raw ih =>
      unfold splitAt at found
      split at found
      · rename_i first
        cases found
        have same : separator = byte := by simpa using first
        simp [same]
      · obtain ⟨⟨start, rest⟩, later, same⟩ := Option.map_eq_some_iff.mp found
        cases same
        rw [ih later, List.cons_append]

theorem readRecord_eq_ok {raw rest : Bytes} {record : TreeRecord} (read : readRecord raw = .ok (record, rest)) :
    ∃ oid : Bytes, record.oid = hexText oid ∧ oid.length = 20 ∧ record.name ≠ [] ∧ 47 ∉ record.name ∧
      raw = modeText record.isDirectory ++ 32 :: (record.name ++ 0 :: (oid ++ rest)) := by
  unfold readRecord at read
  split at read
  · cases read
  · rename_i header after framed
    obtain ⟨_, long, read⟩ := bind_eq_ok.mp read
    split at read
    · cases read
    · rename_i mode name moded
      simp only [bind_eq_ok, require_eq_ok, pure_eq_ok, Bool.and_eq_true, Bool.or_eq_true, beq_iff_eq, bne_iff_ne,
        Bool.not_eq_true', exists_const] at read
      obtain ⟨⟨⟨modes, some'⟩, plain⟩, same⟩ := read
      cases same
      have kept : modeText (mode == modeText true) = mode := by
        rcases modes with rfl | rfl
        · simp
        · have other : (modeText false == modeText true) = false := by decide +kernel
          rw [other]
      refine ⟨after.take 20, rfl, ?_, some', by simpa using plain, ?_⟩
      · rw [List.length_take]
        have := of_decide_eq_true (require_eq_ok.mp long)
        omega
      · rw [kept, List.take_append_drop, splitAt_eq_some framed, splitAt_eq_some moded]
        simp

theorem digitChar_injective {a b : Nat} (less : a < 16) (less' : b < 16) (same : Nat.digitChar a = Nat.digitChar b) :
    a = b := by
  have all : ∀ a : Fin 16, ∀ b : Fin 16, Nat.digitChar a = Nat.digitChar b → a = b := by decide
  exact congrArg Fin.val (all ⟨a, less⟩ ⟨b, less'⟩ same)

theorem hexText_injective : Function.Injective hexText := by
  intro left right same
  have chars := String.ofList_injective same
  clear same
  induction left generalizing right with
  | nil =>
      cases right with
      | nil => rfl
      | cons other right => simp at chars
  | cons byte left ih =>
      cases right with
      | nil => simp at chars
      | cons other right =>
          simp only [List.flatMap_cons, List.cons_append, List.nil_append, List.cons.injEq] at chars
          obtain ⟨high, low, rest⟩ := chars
          have bound := byte.toNat_lt
          have bound' := other.toNat_lt
          have highs := digitChar_injective (by omega) (by omega) high
          have lows := digitChar_injective (by omega) (by omega) low
          have equal : byte = other := UInt8.toNat_inj.mp (by omega)
          rw [equal, ih rest]

/-- Records are those of one tree alone. -/
theorem Encoded.unique {listed : List TreeRecord} {raw raw' : Bytes} (encoded : Encoded listed raw)
    (encoded' : Encoded listed raw') : raw = raw' := by
  induction encoded generalizing raw' with
  | nil =>
      cases encoded'
      rfl
  | cons some' plain whole rest ih =>
      rename_i isDirectory name oid bytes listed
      generalize text : hexText oid = hex at encoded'
      cases encoded' with
      | cons some'' plain' whole' rest' =>
          cases hexText_injective text
          rw [ih rest']

end Records

/-- What a record names. -/
def TreeRecord.child (record : TreeRecord) : Bytes × Child String String :=
  (record.name, if record.isDirectory then .directory record.oid else .file record.oid)

/-- The order of records. -/
def Before (one other : Bytes × Bool) : Prop := orderKey one.1 one.2 < orderKey other.1 other.2

instance : Std.Asymm Before := ⟨fun _ _ less => List.lt_asymm less⟩

/-- The path of names. -/
def pathOf (names : List Bytes) : Bytes := [47].intercalate names

section Trees

variable (repository : QualifiedRepository)

/-- The records of a tree object. -/
def recordsOf (oid : String) : List TreeRecord :=
  match repository.content "tree" oid with
  | .ok raw => (records raw.length raw).getD []
  | .error _ => []

/-- The trees and the blobs that a tree lists. -/
def listings : Listings String Bytes String :=
  fun oid => (recordsOf repository oid).map TreeRecord.child

/-- A tree object that is what its name says, made of whole records, and small enough. -/
structure ValidTree (oid : String) : Prop where
  read : ∃ raw, repository.content "tree" oid = .ok raw ∧ objectOid "tree" raw = oid ∧
    Encoded (recordsOf repository oid) raw ∧ raw.length ≤ treeLimit

/-- A tree of a repository, and all trees below it, as they may be. -/
abbrev IsCanonical (oid : String) : Prop :=
  Canonical (listings repository) (ValidTree repository) Before oid

/-- A file of a tree, by the names on the way to it. -/
abbrev IsLeaf (root : String) (names : List Bytes) (oid : String) : Prop :=
  Reaches (listings repository) root names oid

end Trees

section Trees

variable {repository repository' : QualifiedRepository} {root root' name : String}

theorem child_injective : Function.Injective TreeRecord.child := by
  intro one other same
  obtain ⟨isDirectory, name, oid⟩ := one
  obtain ⟨isDirectory', name', oid'⟩ := other
  cases isDirectory <;> cases isDirectory' <;> simp_all [TreeRecord.child]

@[simp] theorem name_child (record : TreeRecord) : record.child.1 = record.name := rfl

@[simp] theorem isDirectory_child (record : TreeRecord) : record.child.2.isDirectory = record.isDirectory := by
  cases directory : record.isDirectory <;> simp [TreeRecord.child, Child.isDirectory, directory]

/-- A tree is determined by what it lists. -/
theorem ValidTree.eq_of_listings (valid : ValidTree repository root) (valid' : ValidTree repository' root')
    (same : listings repository root = listings repository' root') : root = root' := by
  obtain ⟨raw, _, named, encoded, _⟩ := valid.read
  obtain ⟨raw', _, named', encoded', _⟩ := valid'.read
  rw [(List.map_injective_iff.mpr child_injective) same] at encoded
  rw [← named, ← named', encoded.unique encoded']

theorem Encoded.plain {listed : List TreeRecord} {raw : Bytes} (encoded : Encoded listed raw) :
    ∀ record ∈ listed, 47 ∉ record.name := by
  induction encoded with
  | nil => simp
  | cons _ plain _ _ ih => simpa using ⟨plain, ih⟩

theorem plain_of_listed {entry : Bytes × Child String String} (valid : ValidTree repository root)
    (listed : entry ∈ listings repository root) : 47 ∉ entry.1 := by
  obtain ⟨raw, _, _, encoded, _⟩ := valid.read
  obtain ⟨record, member, rfl⟩ := List.mem_map.mp listed
  exact encoded.plain record member

theorem plain_of_isLeaf {names : List Bytes} {oid : String} (canonical : IsCanonical repository root)
    (leaf : IsLeaf repository root names oid) : ∀ name ∈ names, 47 ∉ name := by
  induction leaf with
  | file listed => simpa using plain_of_listed canonical.holds listed
  | directory listed below ih =>
      simpa using ⟨plain_of_listed canonical.holds listed, ih (canonical.canonical_child listed)⟩

/-- Names without separators are known by their path. -/
theorem splitOn_pathOf {names : List Bytes} (plain : ∀ name ∈ names, 47 ∉ name) (some' : names ≠ []) :
    (pathOf names).splitOn 47 = names :=
  List.splitOn_intercalate 47 plain some'

theorem pathOf_cons {name : Bytes} {names : List Bytes} (some' : names ≠ []) :
    pathOf (name :: names) = name ++ 47 :: pathOf names := by
  cases names with
  | nil => exact absurd rfl some'
  | cons next names => simp [pathOf, List.intercalate]

end Trees

section Objects

variable {repository : QualifiedRepository} {kind oid : String} {limit : Nat} {raw : Bytes}

theorem object_eq_ok (read : object repository kind oid limit = .ok raw) :
    repository.content kind oid = .ok raw ∧ objectOid kind raw = oid ∧ raw.length ≤ limit := by
  simp only [object, bind_eq_ok] at read
  obtain ⟨_, _, _, _, text, _, read⟩ := read
  split at read
  · rename_i size parsed
    simp only [bind_eq_ok, require_eq_ok, pure_eq_ok, decide_eq_true_eq, beq_iff_eq, exists_const] at read
    obtain ⟨small, content, found, whole, named, rfl⟩ := read
    exact ⟨found, named, by omega⟩
  · cases read

theorem utf8_append (left right : String) : utf8 (left ++ right) = utf8 left ++ utf8 right := by
  simp [utf8]

theorem recordPath_eq_ok {pathPrefix path : String} {name : Bytes} (read : recordPath pathPrefix name = .ok path) :
    utf8 path = utf8 pathPrefix ++ name := by
  unfold recordPath at read
  split at read
  · cases read
  · rename_i text decoded
    obtain ⟨_, _, same⟩ := bind_eq_ok.mp read
    cases same
    unfold String.fromUTF8? at decoded
    split at decoded
    · cases decoded
      rw [utf8_append]
      rfl
    · cases decoded

@[simp] theorem run_lift {α : Type} (result : Except Failure α) (state : Walked) :
    (lift result).run state = (state, result) := rfl

end Objects

/-- Files of a repository and the paths that were read of them. -/
structure Found (repository : QualifiedRepository) (leaves : List Bytes → String → Prop) (pathPrefix : String)
    (entries : List MetadataBlob) : Prop where
  sound : ∀ entry ∈ entries, ∃ names, utf8 entry.path = utf8 pathPrefix ++ pathOf names ∧ leaves names entry.oid
  complete : ∀ names oid, leaves names oid →
    ∃ entry ∈ entries, utf8 entry.path = utf8 pathPrefix ++ pathOf names ∧ entry.oid = oid
  stored : ∀ entry ∈ entries, repository.content "blob" entry.oid = .ok entry.data ∧
    objectOid "blob" entry.data = entry.oid ∧ entry.data.length ≤ blobLimit

/-- The files of one record. -/
def LeafOf (repository : QualifiedRepository) (record : TreeRecord) (names : List Bytes) (oid : String) : Prop :=
  if record.isDirectory then ∃ below, names = record.name :: below ∧ IsLeaf repository record.oid below oid
  else names = [record.name] ∧ oid = record.oid

/-- The files of records. -/
def LeafAmong (repository : QualifiedRepository) (listed : List TreeRecord) (names : List Bytes) (oid : String) : Prop :=
  ∃ record ∈ listed, LeafOf repository record names oid

section Found

variable {repository : QualifiedRepository} {pathPrefix : String} {entries more : List MetadataBlob}
  {leaves others : List Bytes → String → Prop}

theorem Found.congr (found : Found repository leaves pathPrefix entries)
    (same : ∀ names oid, leaves names oid ↔ others names oid) : Found repository others pathPrefix entries := by
  have equal : leaves = others := funext fun names => funext fun oid => propext (same names oid)
  exact equal ▸ found

theorem Found.append (found : Found repository leaves pathPrefix entries)
    (found' : Found repository others pathPrefix more) :
    Found repository (fun names oid => leaves names oid ∨ others names oid) pathPrefix (entries ++ more) := by
  constructor
  · intro entry member
    rcases List.mem_append.mp member with member | member
    · obtain ⟨names, path, leaf⟩ := found.sound entry member
      exact ⟨names, path, .inl leaf⟩
    · obtain ⟨names, path, leaf⟩ := found'.sound entry member
      exact ⟨names, path, .inr leaf⟩
  · intro names oid leaf
    rcases leaf with leaf | leaf
    · obtain ⟨entry, member, same⟩ := found.complete names oid leaf
      exact ⟨entry, List.mem_append_left more member, same⟩
    · obtain ⟨entry, member, same⟩ := found'.complete names oid leaf
      exact ⟨entry, List.mem_append_right entries member, same⟩
  · intro entry member
    rcases List.mem_append.mp member with member | member
    · exact found.stored entry member
    · exact found'.stored entry member

theorem leafAmong_cons {record : TreeRecord} {listed : List TreeRecord} {names : List Bytes} {oid : String} :
    LeafAmong repository (record :: listed) names oid ↔
      LeafOf repository record names oid ∨ LeafAmong repository listed names oid := by
  simp [LeafAmong]

theorem isLeaf_iff_leafAmong {root : String} {names : List Bytes} {oid : String} :
    IsLeaf repository root names oid ↔ LeafAmong repository (recordsOf repository root) names oid := by
  constructor
  · intro leaf
    cases leaf with
    | file listed =>
        obtain ⟨record, member, same⟩ := List.mem_map.mp listed
        refine ⟨record, member, ?_⟩
        cases directory : record.isDirectory <;> simp [TreeRecord.child, directory] at same
        simp [LeafOf, directory, same]
    | directory listed below =>
        obtain ⟨record, member, same⟩ := List.mem_map.mp listed
        refine ⟨record, member, ?_⟩
        cases directory : record.isDirectory <;> simp [TreeRecord.child, directory] at same
        simpa [LeafOf, directory, same] using below
  · rintro ⟨record, member, leaf⟩
    have listed : record.child ∈ listings repository root := List.mem_map_of_mem member
    cases directory : record.isDirectory with
    | false =>
        obtain ⟨rfl, rfl⟩ : names = [record.name] ∧ oid = record.oid := by simpa [LeafOf, directory] using leaf
        exact .file (by simpa [TreeRecord.child, directory] using listed)
    | true =>
        obtain ⟨below, rfl, further⟩ :
            ∃ below, names = record.name :: below ∧ IsLeaf repository record.oid below oid := by
          simpa [LeafOf, directory] using leaf
        exact .directory (by simpa [TreeRecord.child, directory] using listed) further

end Found

section Walk

variable {repository : QualifiedRepository} {pathPrefix path oid : String} {state after : Walked}

/-- A file that is added. -/
theorem addBlob_eq_ok (ran : (addBlob repository path oid).run state = (after, .ok ())) :
    ∃ data, after.entries = state.entries ++ [⟨path, oid, data⟩] ∧ repository.content "blob" oid = .ok data ∧
      objectOid "blob" data = oid ∧ data.length ≤ blobLimit := by
  obtain ⟨_, s1, counted, ran⟩ := Raising.bind_eq_ok ran
  obtain ⟨_, s2, keyed, ran⟩ := Raising.bind_eq_ok ran
  obtain ⟨data, s3, read, ran⟩ := Raising.bind_eq_ok ran
  obtain ⟨_, s4, totalled, ran⟩ := Raising.bind_eq_ok ran
  obtain ⟨_, s5, checked, ran⟩ := Raising.bind_eq_ok ran
  obtain ⟨rfl, _⟩ := Raising.look_eq_ok counted
  obtain ⟨rfl, _⟩ := Raising.look_eq_ok keyed
  obtain ⟨rfl, got⟩ := Raising.look_eq_ok read
  cases Raising.attempt_eq_ok totalled
  obtain ⟨rfl, _⟩ := Raising.look_eq_ok checked
  cases Raising.attempt_eq_ok ran
  obtain ⟨content, named, small⟩ := object_eq_ok got
  exact ⟨data, rfl, content, named, by omega⟩

theorem Found.none : Found repository (LeafAmong repository []) pathPrefix [] := by
  constructor <;> simp [LeafAmong]

/-- What a walk of a tree shows. -/
structure Shown (repository : QualifiedRepository) (depth : Nat) (oid pathPrefix : String) (state after : Walked) :
    Prop where
  canonical : IsCanonical repository oid
  filled : pathPrefix ≠ "" → listings repository oid ≠ []
  shallow : ∀ names leaf, IsLeaf repository oid names leaf → names.length ≤ depth
  read : ∃ entries, after.entries = state.entries ++ entries ∧
    Found repository (IsLeaf repository oid) pathPrefix entries

/-- What a walk of some records shows. -/
structure ShownRecords (repository : QualifiedRepository) (depth : Nat) (pathPrefix : String) (listed : List TreeRecord)
    (names : List Bytes) (last : Option Bytes) (state after : Walked) : Prop where
  distinct : (listed.map TreeRecord.name).Nodup
  fresh : ∀ record ∈ listed, record.name ∉ names
  ordered : listed.Pairwise fun one other => orderKey one.name one.isDirectory < orderKey other.name other.isDirectory
  later : ∀ record ∈ listed, ∀ last' ∈ last, last' < orderKey record.name record.isDirectory
  below : ∀ record ∈ listed, record.isDirectory = true → IsCanonical repository record.oid ∧
    listings repository record.oid ≠ [] ∧
      ∀ names leaf, IsLeaf repository record.oid names leaf → names.length ≤ depth
  read : ∃ entries, after.entries = state.entries ++ entries ∧
    Found repository (LeafAmong repository listed) pathPrefix entries

variable {depth : Nat} {descend : String → String → Raising Walked Failure Unit}

/-- A record that is read. -/
theorem visit_eq_ok {record : TreeRecord} (descends : ∀ oid path state after,
      path ≠ "" → (descend oid path).run state = (after, .ok ()) → Shown repository depth oid path state after)
    (placed : recordPath pathPrefix record.name = .ok path)
    (ran : (visit repository descend path record).run state = (after, .ok ())) :
    (record.isDirectory = true → IsCanonical repository record.oid ∧ listings repository record.oid ≠ [] ∧
      ∀ names leaf, IsLeaf repository record.oid names leaf → names.length ≤ depth) ∧
    ∃ entries, after.entries = state.entries ++ entries ∧
      Found repository (LeafOf repository record) pathPrefix entries := by
  have path' := recordPath_eq_ok placed
  unfold visit at ran
  cases directory : record.isDirectory with
  | true =>
      rw [directory, if_pos rfl] at ran
      have some' : path ++ "/" ≠ "" := by simp
      obtain ⟨canonical, filled, shallow, entries, appended, found⟩ := descends _ _ _ _ some' ran
      refine ⟨fun _ => ⟨canonical, filled some', shallow⟩, entries, appended, ?_⟩
      have joined (below : List Bytes) (some' : below ≠ []) :
          utf8 (path ++ "/") ++ pathOf below = utf8 pathPrefix ++ pathOf (record.name :: below) := by
        rw [utf8_append, path', pathOf_cons some', List.append_assoc, List.append_assoc]
        rfl
      constructor
      · intro entry member
        obtain ⟨names, path, leaf⟩ := found.sound entry member
        refine ⟨record.name :: names, path.trans (joined names leaf.ne_nil), ?_⟩
        simpa [LeafOf, directory] using leaf
      · intro names oid leaf
        obtain ⟨below, rfl, further⟩ :
            ∃ below, names = record.name :: below ∧ IsLeaf repository record.oid below oid := by
          simpa [LeafOf, directory] using leaf
        obtain ⟨entry, member, path, same⟩ := found.complete below oid further
        exact ⟨entry, member, path.trans (joined below further.ne_nil), same⟩
      · exact found.stored
  | false =>
      rw [directory, if_neg Bool.false_ne_true] at ran
      obtain ⟨data, appended, content, named, small⟩ := addBlob_eq_ok ran
      refine ⟨fun absurd' => absurd absurd' Bool.false_ne_true, _, appended, ?_⟩
      have single : pathOf [record.name] = record.name := by simp [pathOf]
      constructor
      · intro entry member
        rw [List.mem_singleton] at member
        subst member
        exact ⟨[record.name], by rw [single, path'], by simp [LeafOf, directory]⟩
      · intro names oid leaf
        obtain ⟨rfl, rfl⟩ : names = [record.name] ∧ oid = record.oid := by simpa [LeafOf, directory] using leaf
        exact ⟨_, List.mem_singleton_self _, by rw [single, path'], rfl⟩
      · intro entry member
        rw [List.mem_singleton] at member
        subst member
        exact ⟨content, named, small⟩

theorem records_of_isEmpty {fuel : Nat} {raw : Bytes} (empty : raw.isEmpty = true) : records fuel raw = some [] := by
  cases fuel <;> simp [records, empty]

theorem ShownRecords.none {names : List Bytes} {last : Option Bytes} :
    ShownRecords repository depth pathPrefix [] names last state state :=
  ⟨.nil, by simp, .nil, by simp, by simp, [], by simp, .none⟩

theorem walkRecords_eq_ok (descends : ∀ oid path state after,
      path ≠ "" → (descend oid path).run state = (after, .ok ()) → Shown repository depth oid path state after)
    {fuel : Nat} {raw : Bytes} {names : List Bytes} {last : Option Bytes} (enough : raw.length ≤ fuel)
    (ran : (walkRecords repository descend pathPrefix fuel raw names last).run state = (after, .ok ())) :
    ∃ listed, records fuel raw = some listed ∧ Encoded listed raw ∧
      ShownRecords repository depth pathPrefix listed names last state after := by
  induction fuel generalizing raw names last state with
  | zero =>
      obtain rfl : raw = [] := List.length_eq_zero_iff.mp (by omega)
      cases ran
      exact ⟨[], rfl, .nil, .none⟩
  | succ fuel ih =>
      unfold walkRecords at ran
      split at ran
      · rename_i empty
        cases ran
        exact ⟨[], records_of_isEmpty empty, List.isEmpty_iff.mp empty ▸ .nil, .none⟩
      · rename_i more
        obtain ⟨⟨record, rest⟩, _, read, ran⟩ := Raising.bind_eq_ok ran
        obtain ⟨rfl, parses⟩ := Raising.look_eq_ok read
        obtain ⟨_, _, fresh, ran⟩ := Raising.bind_eq_ok ran
        obtain ⟨rfl, isFresh⟩ := Raising.look_eq_ok fresh
        obtain ⟨_, _, later, ran⟩ := Raising.bind_eq_ok ran
        obtain ⟨rfl, isLater⟩ := Raising.look_eq_ok later
        obtain ⟨path, _, placed, ran⟩ := Raising.bind_eq_ok ran
        obtain ⟨rfl, isPlaced⟩ := Raising.look_eq_ok placed
        obtain ⟨_, middle, first, ran⟩ := Raising.bind_eq_ok ran
        obtain ⟨oid, named, whole, some', plain, bytes⟩ := readRecord_eq_ok parses
        have shorter : rest.length ≤ fuel := by
          have total := congrArg List.length bytes
          simp only [List.length_append, List.length_cons] at total
          omega
        obtain ⟨listed, parsed, encoded, shown⟩ := ih shorter ran
        obtain ⟨below, entries, appended, found⟩ := visit_eq_ok descends isPlaced first
        obtain ⟨entries', appended', found'⟩ := shown.read
        refine ⟨record :: listed, ?_, ?_, ?_⟩
        · simp [records, more, parses, parsed]
        · rw [bytes]
          have made : record = ⟨record.isDirectory, record.name, hexText oid⟩ := by rw [← named]
          rw [made]
          exact .cons some' plain whole encoded
        · have isFresh : record.name ∉ names := by simpa using isFresh
          have isLater : ∀ last' ∈ last, last' < orderKey record.name record.isDirectory := by
            intro last' is
            have all := require_eq_ok.mp isLater
            rw [Option.mem_def.mp is] at all
            exact of_decide_eq_true all
          have after' (other : TreeRecord) (member : other ∈ listed) :
              orderKey record.name record.isDirectory < orderKey other.name other.isDirectory :=
            shown.later other member _ rfl
          constructor
          · have apart : record.name ∉ listed.map TreeRecord.name := by
              intro member
              obtain ⟨other, member, same⟩ := List.mem_map.mp member
              exact shown.fresh other member (same ▸ List.mem_cons_self)
            simpa using ⟨by simpa using apart, shown.distinct⟩
          · simp only [List.mem_cons, forall_eq_or_imp]
            exact ⟨isFresh, fun other member known => shown.fresh other member (List.mem_cons_of_mem _ known)⟩
          · exact List.pairwise_cons.mpr ⟨after', shown.ordered⟩
          · simp only [List.mem_cons, forall_eq_or_imp]
            exact ⟨isLater, fun other member last' is => List.lt_trans (isLater last' is) (after' other member)⟩
          · simp only [List.mem_cons, forall_eq_or_imp]
            exact ⟨below, shown.below⟩
          · refine ⟨entries ++ entries', by rw [appended', appended, List.append_assoc], ?_⟩
            exact (found.append found').congr fun names oid => leafAmong_cons.symm

/-- A tree that is walked is canonical, and its files are added. -/
theorem walk_eq_ok (ran : (walk repository depth oid pathPrefix).run state = (after, .ok ())) :
    Shown repository depth oid pathPrefix state after := by
  induction depth generalizing oid pathPrefix state after with
  | zero => cases ran
  | succ depth ih =>
      obtain ⟨raw, _, read, ran⟩ := Raising.bind_eq_ok ran
      obtain ⟨rfl, got⟩ := Raising.look_eq_ok read
      obtain ⟨_, _, filled, ran⟩ := Raising.bind_eq_ok ran
      obtain ⟨rfl, isFilled⟩ := Raising.look_eq_ok filled
      obtain ⟨_, middle, counted, ran⟩ := Raising.bind_eq_ok ran
      cases Raising.attempt_eq_ok counted
      obtain ⟨content, named, small⟩ := object_eq_ok got
      obtain ⟨listed, parsed, encoded, shown⟩ := walkRecords_eq_ok (fun oid path state after _ => ih) le_rfl ran
      have same : recordsOf repository oid = listed := by simp [recordsOf, content, parsed]
      subst same
      obtain ⟨entries, appended, found⟩ := shown.read
      have directories {name : Bytes} {child : String} (listed : (name, .directory child) ∈ listings repository oid) :
          ∃ record ∈ recordsOf repository oid, record.isDirectory = true ∧ record.oid = child := by
        obtain ⟨record, member, same⟩ := List.mem_map.mp listed
        refine ⟨record, member, ?_⟩
        cases directory : record.isDirectory <;> simp [TreeRecord.child, directory] at same
        exact ⟨rfl, same.2⟩
      constructor
      · constructor
        · exact ⟨raw, content, named, encoded, by omega⟩
        · rw [listings, List.pairwise_map]
          simpa only [Before, name_child, isDirectory_child] using shown.ordered
        · rw [listings, List.map_map]
          exact shown.distinct
        · intro name child listed
          obtain ⟨record, member, directory, rfl⟩ := directories listed
          exact (shown.below record member directory).2.1
        · intro name child listed
          obtain ⟨record, member, directory, rfl⟩ := directories listed
          exact (shown.below record member directory).1
      · intro some' empty
        rw [List.map_eq_nil_iff.mp empty] at encoded
        cases encoded
        simp [some'] at isFilled
      · intro names leaf reached
        cases reached with
        | file => simp
        | directory listed further =>
            obtain ⟨record, member, directory, rfl⟩ := directories listed
            exact Nat.succ_le_succ ((shown.below record member directory).2.2 _ _ further)
      · exact ⟨entries, appended, found.congr fun names oid => isLeaf_iff_leafAmong.symm⟩

end Walk

/-- What has been read is within its limits. -/
structure Within (state : Walked) : Prop where
  entries : state.entries.length ≤ entryLimit
  tree : state.tree ≤ treeTotalLimit
  blob : state.blob ≤ blobTotalLimit

section Limits

variable {repository : QualifiedRepository} {pathPrefix path oid : String} {state : Walked}

/-- A look at a state leaves it as it is, for what comes next. -/
theorem leaves_look {α : Type} {see : Walked → Except Failure α} {next : α → Raising Walked Failure Unit}
    (within : Within state) (rest : ∀ value, see state = .ok value → Within ((next value).run state).1) :
    Within ((Raising.look see >>= next).run state).1 := by
  rw [Raising.run_bind, Raising.run_look]
  cases seen : see state with
  | error => exact within
  | ok value => exact rest value seen

theorem addBlob_within : Raising.Leaves Within (addBlob repository path oid) := by
  intro state within
  refine leaves_look within fun _ counted => leaves_look within fun _ _ => leaves_look within fun data got => ?_
  have few := of_decide_eq_true (require_eq_ok.mp counted)
  have small := (object_eq_ok got).2.2
  have grown : Within { state with blob := state.blob + data.length } :=
    ⟨within.entries, within.tree, show state.blob + data.length ≤ blobTotalLimit by have := within.blob; omega⟩
  refine leaves_look grown fun _ _ => ?_
  exact ⟨show (state.entries ++ [_]).length ≤ entryLimit by simpa using Nat.succ_le_of_lt few, grown.tree, grown.blob⟩

theorem walkRecords_within {descend : String → String → Raising Walked Failure Unit}
    (descends : ∀ oid path, Raising.Leaves Within (descend oid path)) {fuel : Nat} {raw : Bytes} {names : List Bytes}
    {last : Option Bytes} : Raising.Leaves Within (walkRecords repository descend pathPrefix fuel raw names last) := by
  induction fuel generalizing raw names last with
  | zero => exact fun _ within => within
  | succ fuel ih =>
      unfold walkRecords
      split
      · exact fun _ within => within
      · refine .bind (.look _) fun read => .bind (.look _) fun _ => .bind (.look _) fun _ => .bind (.look _) fun path =>
          .bind ?_ fun _ => ih
        unfold visit
        split
        · exact descends _ _
        · exact addBlob_within

/-- Whether it is accepted or refused, a walk stays within the limits. -/
theorem walk_within {depth : Nat} : Raising.Leaves Within (walk repository depth oid pathPrefix) := by
  induction depth generalizing oid pathPrefix with
  | zero => exact fun _ within => within
  | succ depth ih =>
      intro state within
      refine leaves_look within fun raw got => leaves_look within fun _ _ => ?_
      have small := (object_eq_ok got).2.2
      have grown : Within { state with tree := state.tree + raw.length } :=
        ⟨within.entries, show state.tree + raw.length ≤ treeTotalLimit by have := within.tree; omega, within.blob⟩
      exact walkRecords_within (fun oid path => ih) _ grown

end Limits

/-- The names on the way to an entry. -/
def MetadataBlob.names (entry : MetadataBlob) : List Bytes := (utf8 entry.path).splitOn 47

/-- The entries of a snapshot are the files of its tree, each once and none above another, within the limits. -/
structure Exact (repository : QualifiedRepository) (snapshot : MetadataSnapshot) : Prop where
  leaves : ∀ names oid, IsLeaf repository snapshot.treeOid names oid ↔
    ∃ entry ∈ snapshot.entries, entry.names = names ∧ entry.oid = oid
  stored : ∀ entry ∈ snapshot.entries, repository.content "blob" entry.oid = .ok entry.data ∧
    objectOid "blob" entry.data = entry.oid
  once : (snapshot.entries.map MetadataBlob.path).Nodup
  apart : ∀ entry ∈ snapshot.entries, ∀ other ∈ snapshot.entries, entry.names <+: other.names → entry = other
  shallow : ∀ entry ∈ snapshot.entries, entry.names.length ≤ depthLimit + 1
  small : ∀ entry ∈ snapshot.entries, entry.data.length ≤ blobLimit
  few : snapshot.entries.length ≤ entryLimit
  total : (snapshot.entries.map fun entry => entry.data.length).sum ≤ blobTotalLimit

section Snapshots

variable {repository repository' : QualifiedRepository} {ref ref' bindingDigest bindingDigest' : String}
  {expectedOid expectedOid' : Option String} {snapshot snapshot' : MetadataSnapshot}

theorem capture_eq_ok (captured : capture repository ref bindingDigest expectedOid = .ok snapshot) :
    ∃ walked, (walk repository (depthLimit + 1) snapshot.treeOid "").run ⟨[], 0, 0⟩ = (walked, .ok ()) ∧
      snapshot.entries = sortBy MetadataBlob.path walked.entries ∧ snapshot.check = .ok () := by
  simp only [capture, bind_eq_ok] at captured
  obtain ⟨_, _, _, _, _, _, _, _, _, _, oid, _, _, _, _, _, ⟨treeOid, parents⟩, _, _, walks, _, _, _, _, _, _, _, _, _,
    _, _, checked, same⟩ := captured
  cases same
  exact ⟨_, Prod.ext rfl walks, rfl, checked⟩

theorem utf8_injective : Function.Injective utf8 := by
  intro left right same
  exact String.toByteArray_inj.mp (ByteArray.ext (Array.toList_inj.mp same))

theorem names_injective {entry other : MetadataBlob} (same : entry.names = other.names) : entry.path = other.path := by
  have bytes := congrArg ([47].intercalate) same
  rw [MetadataBlob.names, MetadataBlob.names, List.intercalate_splitOn, List.intercalate_splitOn] at bytes
  exact utf8_injective bytes

theorem MetadataSnapshot.check_eq_ok (checked : snapshot.check = .ok ()) :
    (snapshot.entries.map MetadataBlob.path).Nodup ∧ snapshot.entries.length ≤ entryLimit ∧
      (snapshot.entries.map fun entry => entry.data.length).sum ≤ blobTotalLimit := by
  simp only [MetadataSnapshot.check, bind_eq_ok, require_eq_ok, Bool.and_eq_true, beq_iff_eq, decide_eq_true_eq,
    List.length_map] at checked
  obtain ⟨_, _, _, _, _, _, _, _, _, _, _, _, _, ⟨⟨⟨_, distinct⟩, few⟩, total⟩, _⟩ := checked
  have whole := (List.dedup_sublist (snapshot.entries.map MetadataBlob.path)).eq_of_length (by simpa using distinct)
  exact ⟨whole ▸ List.nodup_dedup _, few, total⟩

/-- What is captured is what is stored. -/
theorem exact_of_capture (captured : capture repository ref bindingDigest expectedOid = .ok snapshot) :
    IsCanonical repository snapshot.treeOid ∧ Exact repository snapshot := by
  obtain ⟨walked, ran, sorted, checked⟩ := capture_eq_ok captured
  obtain ⟨canonical, _, shallow, entries, appended, found⟩ := walk_eq_ok ran
  obtain ⟨once, few, total⟩ := MetadataSnapshot.check_eq_ok checked
  have members (entry : MetadataBlob) : entry ∈ snapshot.entries ↔ entry ∈ entries := by
    rw [sorted, mem_sortBy, appended, List.nil_append]
  -- The names of an entry are those on the way to its file.
  have known {entry : MetadataBlob} {names : List Bytes} {oid : String} (path : utf8 entry.path = utf8 "" ++ pathOf names)
      (leaf : IsLeaf repository snapshot.treeOid names oid) : entry.names = names := by
    rw [MetadataBlob.names, path]
    exact splitOn_pathOf (plain_of_isLeaf canonical leaf) leaf.ne_nil
  have reached {entry : MetadataBlob} (member : entry ∈ snapshot.entries) :
      IsLeaf repository snapshot.treeOid entry.names entry.oid := by
    obtain ⟨names, path, leaf⟩ := found.sound entry ((members entry).mp member)
    rwa [known path leaf]
  refine ⟨canonical, ?_, ?_, once, ?_, ?_, ?_, few, total⟩
  · intro names oid
    constructor
    · intro leaf
      obtain ⟨entry, member, path, same⟩ := found.complete names oid leaf
      exact ⟨entry, (members entry).mpr member, known path leaf, same⟩
    · rintro ⟨entry, member, rfl, rfl⟩
      exact reached member
  · intro entry member
    obtain ⟨content, named, _⟩ := found.stored entry ((members entry).mp member)
    exact ⟨content, named⟩
  · rintro entry member other member' ⟨more, same⟩
    have below := reached member'
    rw [← same] at below
    obtain ⟨rfl, _⟩ := canonical.apart (reached member) below
    rw [List.append_nil] at same
    exact List.inj_on_of_nodup_map once member member' (names_injective same)
  · exact fun entry member => shallow _ _ (reached member)
  · exact fun entry member => (found.stored entry ((members entry).mp member)).2.2

/-- The entries of a snapshot determine its tree: what is captured are the files of a canonical tree, and no walk
    exceeds its limits. -/
theorem tree_determined (captured : capture repository ref bindingDigest expectedOid = .ok snapshot)
    (captured' : capture repository' ref' bindingDigest' expectedOid' = .ok snapshot') :
    (snapshot.entries = snapshot'.entries → snapshot.treeOid = snapshot'.treeOid) ∧
      IsCanonical repository snapshot.treeOid ∧ Exact repository snapshot ∧
      ∀ oid depth, Within ((walk repository depth oid "").run ⟨[], 0, 0⟩).1 := by
  obtain ⟨canonical, exact'⟩ := exact_of_capture captured
  obtain ⟨canonical', exact''⟩ := exact_of_capture captured'
  refine ⟨fun same => ?_, canonical, exact', fun oid depth => walk_within _ ?_⟩
  · apply canonical.eq_of_reaches (fun node node' => ValidTree.eq_of_listings) canonical'
    intro names oid
    have leaves := exact'.leaves names oid
    rw [same] at leaves
    exact leaves.trans (exact''.leaves names oid).symm
  · exact ⟨Nat.zero_le _, Nat.zero_le _, Nat.zero_le _⟩

/-- A repository of objects, with a commit as its reference. -/
def stored (objects : List (String × Bytes)) (head : Bytes) : QualifiedRepository where
  first := attached
  last := attached
  size oid := (found oid).map fun entry => utf8 (toString entry.2.length ++ "\n")
  content kind oid := (found oid).bind fun entry =>
    if entry.1 == kind then .ok entry.2 else .error (refused "PUBLICATION_NATIVE_READ_FAILED")
where
  found (oid : String) : Except Failure (String × Bytes) :=
    (((("commit", head) :: objects).find? fun entry => objectOid entry.1 entry.2 == oid).map Except.ok).getD
      (.error (refused "PUBLICATION_NATIVE_READ_FAILED"))
  attached : Attachment :=
    ⟨.ok (), (1, 2, 3), 4, String.ofList (List.replicate 64 'a'), fun _ => .ok (utf8 (objectOid "commit" head ++ "\n"))⟩

/-- The empty file `b/a` in a directory of its own. -/
def nested : QualifiedRepository :=
  stored [("blob", []),
    ("tree", utf8 "100644 a" ++ [0,
      0xe6, 0x9d, 0xe2, 0x9b, 0xb2, 0xd1, 0xd6, 0x43, 0x4b, 0x8b,
      0x29, 0xae, 0x77, 0x5a, 0xd8, 0xc2, 0xe4, 0x8c, 0x53, 0x91]),
    ("tree", utf8 "40000 b" ++ [0,
      0x49, 0x6d, 0x64, 0x28, 0xb9, 0xcf, 0x92, 0x98, 0x1d, 0xc9,
      0x49, 0x52, 0x11, 0xe6, 0xe1, 0x12, 0x0f, 0xb6, 0xf2, 0xba])]
    (utf8 "tree 08b870bb8ca0b96eb54c25d7f1533249cfab27f4\n\n")

theorem tree_determined_nested : ∃ snapshot,
    capture nested "refs/heads/git-annex" (String.ofList (List.replicate 64 'b')) none = .ok snapshot ∧
      snapshot.entries.map MetadataBlob.path = ["b/a"] ∧ IsCanonical nested snapshot.treeOid ∧
      Exact nested snapshot := by
  have captured : (capture nested "refs/heads/git-annex" (String.ofList (List.replicate 64 'b')) none).toOption.map
      (fun snapshot => snapshot.entries.map MetadataBlob.path) = some ["b/a"] := by decide +kernel
  obtain ⟨snapshot, accepted, paths⟩ := Option.map_eq_some_iff.mp captured
  obtain ⟨_, canonical, exact', _⟩ := tree_determined (toOption_eq_some.mp accepted) (toOption_eq_some.mp accepted)
  exact ⟨snapshot, toOption_eq_some.mp accepted, paths, canonical, exact'⟩

end Snapshots

end Modelark.Publication.MapTree
