import Modelark.Publication.MapFiles.Objects

/-!
# A Git that keeps the laws

The native commands of a publication on lists of objects, with any injective names.
-/

namespace Modelark.Publication.MapFiles

open Library
open Revision (Failure)

variable {O : Type} [DecidableEq O]

/-- How objects are named, and what a commit at a moment says of its time. -/
structure Names (O : Type) where
  name : GitObject O → O
  injective : Function.Injective name
  date : Nat → String

namespace Names

variable (names : Names O)

def lookup (objects : List (GitObject O)) (oid : O) : Option (GitObject O) :=
  objects.find? fun object => names.name object == oid

/-- An object with all that it names, none of it missing. -/
def closure (objects : List (GitObject O)) : Nat → O → Except Failure (List (GitObject O))
  | 0, _ => .error commandFailed
  | fuel + 1, oid =>
      match names.lookup objects oid with
      | none => .error commandFailed
      | some (.blob data) => .ok [.blob data]
      | some (.tree entries) => do
          let blobs ← entries.mapM fun entry => closure objects fuel entry.oid
          return .tree entries :: blobs.flatten
      | some (.commit tree parents message date) => do
          let content ← closure objects fuel tree
          let history ← parents.mapM fun parent => closure objects fuel parent
          return .commit tree parents message date :: (content ++ history.flatten)

/-- Objects that are there already are not written again. -/
def add (objects new : List (GitObject O)) : List (GitObject O) :=
  new.foldl (fun objects object => if object ∈ objects then objects else objects ++ [object]) objects

def fetch (x : Scratch O) (source : Repository O) (oid : O) (ref : String) : Except Failure (Scratch O) := do
  let objects ← names.closure source.objects (source.objects.length + 1) oid
  return { x with refs := x.refs.insert ref oid, objects := add x.objects objects }

/-- An entry in the place of all that are at its path, above or below it. -/
def put (index : List (TreeEntry O)) (entry : TreeEntry O) : List (TreeEntry O) :=
  entry :: index.filter fun other => other.path != entry.path &&
    !(directories entry.path).contains other.path && !(directories other.path).contains entry.path

def updateIndex (x : Scratch O) (rows : List (TreeEntry O)) : Except Failure (Scratch O) :=
  .ok { x with index := sortBy TreeEntry.path (rows.foldl put x.index) }

def writeTree (x : Scratch O) : Except Failure (Scratch O × O) := do
  require (x.index.all fun entry => (names.lookup x.objects entry.oid).isSome) commandFailed
  let tree := GitObject.tree (sortBy TreeEntry.path x.index)
  return ({ x with objects := add x.objects [tree] }, names.name tree)

def commitTree (x : Scratch O) (tree parent : O) (message : String) : Except Failure (Scratch O × O) :=
  match names.lookup x.objects tree, names.lookup x.objects parent with
  | some (.tree _), some (.commit _ _ _ _) =>
      let commit := GitObject.commit tree [parent] (message ++ "\n") (names.date x.moment)
      .ok ({ x with objects := add x.objects [commit], moment := x.moment + 1 }, names.name commit)
  | _, _ => .error commandFailed

end Names

variable {names : Names O} {before after new : List (GitObject O)} {oid : O} {object : GitObject O}

theorem mem_add : object ∈ Names.add before new ↔ object ∈ before ∨ object ∈ new := by
  rw [Names.add]
  induction new generalizing before with
  | nil => simp
  | cons first new ih =>
      rw [List.foldl_cons, ih]
      split
      · rename_i member
        simp only [List.mem_cons]
        constructor
        · rintro (old | later)
          · exact .inl old
          · exact .inr (.inr later)
        · rintro (old | rfl | later)
          · exact .inl old
          · exact .inl member
          · exact .inr later
      · simp [or_assoc]

theorem add_of_mem (member : object ∈ before) : Names.add before [object] = before := by
  simp [Names.add, member]

theorem lookup_eq_some : names.lookup before oid = some object ↔ object ∈ before ∧ names.name object = oid := by
  constructor
  · intro found
    have holds := List.find?_some found
    exact ⟨List.mem_of_find?_eq_some found, eq_of_beq holds⟩
  · rintro ⟨member, rfl⟩
    cases found : names.lookup before (names.name object) with
    | none => exact absurd (beq_self_eq_true _) (List.find?_eq_none.mp found object member)
    | some other =>
        have holds := List.find?_some found
        rw [names.injective (eq_of_beq holds)]

/-- No object is hidden by one that is added. -/
theorem lookup_add (found : names.lookup before oid = some object) :
    names.lookup (Names.add before new) oid = some object := by
  rw [lookup_eq_some] at found ⊢
  exact ⟨mem_add.mpr (.inl found.1), found.2⟩

theorem lookup_added : names.lookup (Names.add before [object]) (names.name object) = some object :=
  lookup_eq_some.mpr ⟨mem_add.mpr (.inr (List.mem_singleton_self object)), rfl⟩

theorem commitTree_eq_ok {x y : Scratch O} {tree parent head : O} {message : String} :
    names.commitTree x tree parent message = .ok (y, head) ↔
      (∃ entries, names.lookup x.objects tree = some (.tree entries)) ∧
        (∃ content parents body date, names.lookup x.objects parent = some (.commit content parents body date)) ∧
        y = { x with
          objects := Names.add x.objects [.commit tree [parent] (message ++ "\n") (names.date x.moment)]
          moment := x.moment + 1 } ∧
        head = names.name (.commit tree [parent] (message ++ "\n") (names.date x.moment)) := by
  constructor
  · intro made
    unfold Names.commitTree at made
    split at made
    · rename_i entries content parents body date found found'
      cases made
      exact ⟨⟨entries, found⟩, ⟨content, parents, body, date, found'⟩, rfl, rfl⟩
    · cases made
  · rintro ⟨⟨entries, found⟩, ⟨content, parents, body, date, found'⟩, rfl, rfl⟩
    rw [Names.commitTree, found, found']

/-- The native commands under such names. -/
def Names.git (names : Names O) : Git O where
  lookup := names.lookup
  fetch := names.fetch
  updateIndex := Names.updateIndex
  writeTree := names.writeTree
  commitTree := names.commitTree
  fetchAdds {x y source oid ref} absent fetched := by
    simp only [Names.fetch, bind_eq_ok, pure_eq_ok] at fetched
    obtain ⟨objects, _, rfl⟩ := fetched
    refine ⟨rfl, fun other oid found => ?_, fun _ _ found => lookup_add found⟩
    have apart : ref ≠ other := by
      rintro rfl
      rw [absent] at found
      cases found
    exact (Dict.lookup_insert_of_ne _ _ apart).trans found
  updateIndexAdds {x y rows} updated := by
    cases updated
    exact ⟨fun _ _ found => found, fun _ _ found => found⟩
  writeTreeAdds {x y tree} wrote := by
    simp only [Names.writeTree, bind_eq_ok, pure_eq_ok, Prod.mk.injEq] at wrote
    obtain ⟨_, _, rfl, _⟩ := wrote
    exact ⟨rfl, fun _ _ found => found, fun _ _ found => lookup_add found⟩
  writeTreeAgain {x y tree} wrote := by
    simp only [Names.writeTree, bind_eq_ok, require_eq_ok, pure_eq_ok, Prod.mk.injEq, List.all_eq_true] at wrote ⊢
    obtain ⟨_, present, rfl, rfl⟩ := wrote
    refine ⟨(), fun entry member => ?_, ?_, rfl⟩
    · obtain ⟨object, found⟩ := Option.isSome_iff_exists.mp (present entry member)
      rw [lookup_add found]
      rfl
    · rw [add_of_mem (mem_add.mpr (.inr (List.mem_singleton_self _)))]
  commitTreeAdds {x y tree parent head message} made := by
    obtain ⟨_, _, rfl, _⟩ := commitTree_eq_ok.mp made
    exact ⟨rfl, fun _ _ found => found, fun _ _ found => lookup_add found⟩
  commitTreeAgain {x y later tree parent head content message body date parents} made read adds := by
    obtain ⟨⟨entries, found⟩, ⟨_, _, _, _, found'⟩, rfl, rfl⟩ := commitTree_eq_ok.mp made
    rw [lookup_added] at read
    cases read
    exact ⟨_, _, _, commitTree_eq_ok.mpr ⟨⟨entries, adds.objects _ _ found⟩,
      ⟨_, _, _, _, adds.objects _ _ found'⟩, rfl, rfl⟩, lookup_added⟩

end Modelark.Publication.MapFiles
