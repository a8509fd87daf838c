import Modelark.Slice.Fat32Namespace

/-!
# Output paths

Paths as they are written below a destination root. A path that is canonical is the join of its parts, and joining
canonical paths only puts their parts one after another.
-/

namespace Modelark.Slice.Domain

open Library Proposal Archive
open Conversion (parts parts_append parts_of_notMem parts_ne_nil)
open Fat32Layout (intercalate_parts plain_of_parts Plain)

/-- A relative path without an empty part or a dot. -/
def Canonical (path : String) : Prop :=
  ∀ part ∈ parts path, part ≠ "" ∧ part ≠ "."

section Canonical

variable {path left right third : String}

theorem Canonical.join (first : Canonical left) (second : Canonical right) : Canonical (left ++ "/" ++ right) := by
  intro part member
  rw [parts_append, List.mem_append] at member
  exact member.elim (first part) (second part)

theorem canonical_of_name {name : String} (plain : Plain name) (some' : name ≠ "") (solid : name ≠ ".") :
    Canonical name := by
  intro part member
  rw [parts_of_notMem plain, List.mem_singleton] at member
  exact member ▸ ⟨some', solid⟩

theorem Canonical.ne_empty (canonical : Canonical path) : path ≠ "" := by
  rintro rfl
  exact (canonical "" (by decide)).1 rfl

theorem Canonical.startsWith (canonical : Canonical path) : path.startsWith "/" = false := by
  rw [String.startsWith_string_eq_false_iff]
  rintro ⟨rest, same⟩
  have split : path = "" ++ "/" ++ String.ofList rest := by
    apply String.toList_injective
    rw [← same]
    simp
  refine (canonical "" ?_).1 rfl
  rw [split, parts_append]
  exact List.mem_append_left _ (by decide)

theorem Canonical.startsWith_root (canonical : Canonical path) : path.startsWith "//" = false := by
  rw [String.startsWith_string_eq_false_iff]
  intro above
  have single := canonical.startsWith
  rw [String.startsWith_string_eq_false_iff] at single
  exact single (List.IsPrefix.trans (by decide) above)

theorem Canonical.endsWith (canonical : Canonical path) : path.endsWith "/" = false := by
  have ends : path.endsWith "/" = path.toSlice.endsWith "/" := rfl
  rw [ends, String.Slice.endsWith_string_eq_false_iff, String.copy_toSlice]
  rintro ⟨rest, same⟩
  have split : path = String.ofList rest ++ "/" ++ "" := by
    apply String.toList_injective
    rw [← same]
    simp
  refine (canonical "" ?_).1 rfl
  rw [split, parts_append]
  exact List.mem_append_right _ (by decide)

/-- A canonical path is written as it is. -/
theorem purePath_of_joined {segments : List String} (canonical : Canonical path)
    (joined : segments.foldl (fun path segment => if segment.startsWith "/" then segment
      else if path = "" || path.endsWith "/" then path ++ segment else path ++ "/" ++ segment) "" = path) :
    purePath segments = path := by
  have names : (parts path).filter (fun part => part != "" && part != ".") = parts path := by
    rw [List.filter_eq_self]
    intro part member
    simp [canonical part member]
  simp only [purePath, joined, canonical.startsWith, canonical.startsWith_root, Bool.false_and, Bool.false_eq_true,
    if_false, names, parts_ne_nil, and_false]
  rw [String.empty_append, intercalate_parts]

theorem purePath_three (first : Canonical left) (second : Canonical right) (last : Canonical third) :
    purePath [left, right, third] = left ++ "/" ++ right ++ "/" ++ third := by
  have middle := first.join second
  apply purePath_of_joined (middle.join last)
  have some' : left ++ "/" ++ right ≠ "" := middle.ne_empty
  have closed : (left ++ "/" ++ right).endsWith "/" = false := middle.endsWith
  simp only [List.foldl_cons, List.foldl_nil, first.startsWith, second.startsWith, last.startsWith, first.endsWith,
    first.ne_empty, some', closed, Bool.false_eq_true, if_false, decide_true, decide_false, Bool.true_or, Bool.or_self,
    if_true, String.empty_append]

end Canonical

end Modelark.Slice.Domain
