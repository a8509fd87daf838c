import Mathlib

/-!
# Trees that are known by their leaves

Stored directories list named files and further directories. Where every listing is in one strict order, no
name is listed twice and no directory below the root is empty, what is stored is determined by the files that are
reached and the names on the way to them.
-/

namespace Modelark.Library

/-- What a directory lists under a name. -/
inductive Child (Node Leaf : Type*) where
  | file (leaf : Leaf)
  | directory (node : Node)

variable {Node Name Leaf : Type*}

def Child.isDirectory : Child Node Leaf → Bool
  | .file _ => false
  | .directory _ => true

abbrev Listings (Node Name Leaf : Type*) := Node → List (Name × Child Node Leaf)

/-- A file and the names on the way to it. -/
inductive Reaches (listings : Listings Node Name Leaf) : Node → List Name → Leaf → Prop where
  | file {node : Node} {name : Name} {leaf : Leaf} (listed : (name, .file leaf) ∈ listings node) :
      Reaches listings node [name] leaf
  | directory {node child : Node} {name : Name} {path : List Name} {leaf : Leaf}
      (listed : (name, .directory child) ∈ listings node) (below : Reaches listings child path leaf) :
      Reaches listings node (name :: path) leaf

/-- The listings from a node on are in order, without a name listed twice or an empty directory. -/
inductive Canonical (listings : Listings Node Name Leaf) (valid : Node → Prop) (before : Name × Bool → Name × Bool → Prop) :
    Node → Prop where
  | node {node : Node} (holds : valid node)
      (ordered : (listings node).Pairwise fun one other =>
        before (one.1, one.2.isDirectory) (other.1, other.2.isDirectory))
      (distinct : ((listings node).map Prod.fst).Nodup)
      (filled : ∀ name child, (name, .directory child) ∈ listings node → listings child ≠ [])
      (below : ∀ name child, (name, .directory child) ∈ listings node → Canonical listings valid before child) :
      Canonical listings valid before node

section Paths

variable {listings : Listings Node Name Leaf} {valid : Node → Prop} {before : Name × Bool → Name × Bool → Prop}
  {node child : Node} {name : Name} {path : List Name} {leaf other : Leaf}

theorem Reaches.ne_nil (reached : Reaches listings node path leaf) : path ≠ [] := by
  cases reached <;> exact List.cons_ne_nil _ _

theorem reaches_single : Reaches listings node [name] leaf ↔ (name, .file leaf) ∈ listings node := by
  constructor
  · intro reached
    cases reached with
    | file listed => exact listed
    | directory listed below => exact absurd rfl below.ne_nil
  · exact Reaches.file

theorem reaches_cons (some' : path ≠ []) : Reaches listings node (name :: path) leaf ↔
    ∃ child, (name, .directory child) ∈ listings node ∧ Reaches listings child path leaf := by
  constructor
  · intro reached
    cases reached with
    | file listed => exact absurd rfl some'
    | directory listed below => exact ⟨_, listed, below⟩
  · rintro ⟨child, listed, below⟩
    exact .directory listed below

theorem Canonical.holds (canonical : Canonical listings valid before node) : valid node := by
  cases canonical with
  | node holds => exact holds

theorem Canonical.canonical_child (canonical : Canonical listings valid before node)
    (listed : (name, .directory child) ∈ listings node) : Canonical listings valid before child := by
  cases canonical with
  | node _ _ _ _ below => exact below name child listed

theorem Canonical.filled (canonical : Canonical listings valid before node)
    (listed : (name, .directory child) ∈ listings node) : listings child ≠ [] := by
  cases canonical with
  | node _ _ _ filled _ => exact filled name child listed

theorem Canonical.distinct (canonical : Canonical listings valid before node) :
    ((listings node).map Prod.fst).Nodup := by
  cases canonical with
  | node _ _ distinct => exact distinct

theorem Canonical.ordered (canonical : Canonical listings valid before node) :
    (listings node).Pairwise fun one other =>
      before (one.1, one.2.isDirectory) (other.1, other.2.isDirectory) := by
  cases canonical with
  | node _ ordered => exact ordered

/-- One name stands for one child. -/
theorem Canonical.unique {one another : Child Node Leaf} (canonical : Canonical listings valid before node)
    (listed : (name, one) ∈ listings node) (listed' : (name, another) ∈ listings node) : one = another := by
  cases canonical with
  | node _ _ distinct =>
      have same := List.inj_on_of_nodup_map distinct listed listed' rfl
      exact congrArg Prod.snd same

/-- A directory that lists something has a file somewhere below it. -/
theorem Canonical.exists_reaches (canonical : Canonical listings valid before node) (some' : listings node ≠ []) :
    ∃ path leaf, Reaches listings node path leaf := by
  induction canonical with
  | node holds ordered distinct filled below ih =>
      obtain ⟨⟨name, child⟩, listed⟩ := List.exists_mem_of_ne_nil _ some'
      cases child with
      | file leaf => exact ⟨[name], leaf, .file listed⟩
      | directory child =>
          obtain ⟨path, leaf, reached⟩ := ih name child listed (filled name child listed)
          exact ⟨name :: path, leaf, .directory listed reached⟩

/-- No file is above another, and one path leads to one file. -/
theorem Canonical.apart (canonical : Canonical listings valid before node) (reached : Reaches listings node path leaf)
    {more : List Name} (reached' : Reaches listings node (path ++ more) other) : more = [] ∧ leaf = other := by
  induction reached with
  | file listed =>
      cases more with
      | nil =>
          have equal := canonical.unique listed (reaches_single.mp reached')
          exact ⟨rfl, Child.file.inj equal⟩
      | cons next more =>
          obtain ⟨child, listed', _⟩ := (reaches_cons (List.cons_ne_nil next more)).mp reached'
          cases canonical.unique listed listed'
  | directory listed below ih =>
      obtain ⟨child, listed', reached'⟩ := (reaches_cons (by simp [below.ne_nil])).mp reached'
      cases canonical.unique listed listed'
      exact ih (canonical.canonical_child listed) reached'

end Paths

section Same

variable {listings listings' : Listings Node Name Leaf} {valid valid' : Node → Prop}
  {before : Name × Bool → Name × Bool → Prop}

/-- One listing holds what the other does, when directories with the same files are the same. -/
theorem Canonical.mem_of_reaches {node node' : Node} (canonical : Canonical listings valid before node)
    (canonical' : Canonical listings' valid' before node')
    (same : ∀ path leaf, Reaches listings node path leaf ↔ Reaches listings' node' path leaf)
    (children : ∀ name child child', (name, .directory child) ∈ listings node →
      (name, .directory child') ∈ listings' node' →
      (∀ path leaf, Reaches listings child path leaf ↔ Reaches listings' child' path leaf) → child = child')
    {entry : Name × Child Node Leaf} (listed : entry ∈ listings node) : entry ∈ listings' node' := by
  obtain ⟨name, child⟩ := entry
  cases child with
  | file leaf => exact reaches_single.mp ((same [name] leaf).mp (.file listed))
  | directory child =>
      obtain ⟨path, leaf, reached⟩ := (canonical.canonical_child listed).exists_reaches (canonical.filled listed)
      have some' := reached.ne_nil
      obtain ⟨child', listed', _⟩ := (reaches_cons some').mp ((same (name :: path) leaf).mp (.directory listed reached))
      -- What is reached through the name on one side is what is reached through it on the other.
      have below : ∀ path leaf, Reaches listings child path leaf ↔ Reaches listings' child' path leaf := by
        intro path leaf
        constructor
        · intro reached
          have other := (same (name :: path) leaf).mp (.directory listed reached)
          obtain ⟨middle, listed'', reached'⟩ := (reaches_cons reached.ne_nil).mp other
          cases canonical'.unique listed' listed''
          exact reached'
        · intro reached
          have other := (same (name :: path) leaf).mpr (.directory listed' reached)
          obtain ⟨middle, listed'', reached'⟩ := (reaches_cons reached.ne_nil).mp other
          cases canonical.unique listed listed''
          exact reached'
      rw [children name child child' listed listed' below]
      exact listed'

/-- Canonical nodes from which the same files are reached are the same, when a node is determined by its listing. -/
theorem Canonical.eq_of_reaches [Std.Asymm before]
    (determined : ∀ node node', valid node → valid' node' → listings node = listings' node' → node = node')
    {node node' : Node} (canonical : Canonical listings valid before node)
    (canonical' : Canonical listings' valid' before node')
    (same : ∀ path leaf, Reaches listings node path leaf ↔ Reaches listings' node' path leaf) : node = node' := by
  induction canonical generalizing node' with
  | node holds ordered distinct filled below ih =>
      rename_i node
      have canonical : Canonical listings valid before node := .node holds ordered distinct filled below
      apply determined node node' holds canonical'.holds
      have members : ∀ entry, entry ∈ listings node ↔ entry ∈ listings' node' := by
        intro entry
        constructor
        · exact canonical.mem_of_reaches canonical' same fun name child child' listed listed' below =>
            ih name child listed (canonical'.canonical_child listed') below
        · refine canonical'.mem_of_reaches canonical (fun path leaf => (same path leaf).symm) ?_
          intro name child' child listed' listed below
          exact (ih name child listed (canonical'.canonical_child listed') fun path leaf => (below path leaf).symm).symm
      have permuted := (List.perm_ext_iff_of_nodup distinct.of_map canonical'.distinct.of_map).mpr members
      refine permuted.eq_of_pairwise ?_ ordered canonical'.ordered
      intro one other _ _ first second
      exact absurd second (Std.Asymm.asymm _ _ first)

end Same

end Modelark.Library
