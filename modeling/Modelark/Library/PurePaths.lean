import Mathlib

/-!
# Pure paths

Paths of POSIX as their root and their names, which is how they compare.
-/

namespace Modelark.Library

/-- `PurePosixPath`. -/
structure PurePath where
  root : String
  names : List String
  deriving Repr, DecidableEq

namespace PurePath

/-- Two slashes are a root of their own. -/
def rootOf : List Char → String
  | '/' :: '/' :: '/' :: _ => "/"
  | '/' :: '/' :: _ => "//"
  | '/' :: _ => "/"
  | _ => ""

/-- `PurePosixPath(…)`. -/
def ofText (text : String) : PurePath where
  root := rootOf text.toList
  names := ((text.toList.splitOn '/').map String.ofList).filter fun name => name != "" && name != "."

/-- `as_posix`. -/
def text (path : PurePath) : String :=
  if path.root = "" ∧ path.names = [] then "." else path.root ++ "/".intercalate path.names

def isAbsolute (path : PurePath) : Bool :=
  path.root != ""

def parent (path : PurePath) : PurePath :=
  { path with names := path.names.dropLast }

/-- `/`: an absolute path replaces what comes before it. -/
def join (left right : PurePath) : PurePath :=
  if right.isAbsolute then right else { left with names := left.names ++ right.names }

end PurePath

/-- `PureWindowsPath(…).drive`, of a text without a root and without backslashes. -/
def hasWindowsDrive (text : String) : Bool :=
  text.toList[1]? == some ':'

/-- A path relative to an archive in the one spelling that is accepted, the body of `_safe_relative`. -/
def safeRelative? (value : String) : Option PurePath :=
  let path := PurePath.ofText value
  if value == "" || value.toList.contains '\\' || path.isAbsolute || hasWindowsDrive value ||
      path.names.contains ".." || path.names.contains "." || value != path.text then none
  else some path

/-- An accepted path is relative and never leaves the directory it is taken from. -/
theorem safeRelative?_eq_some {value : String} {path : PurePath} (accepted : safeRelative? value = some path) :
    path.root = "" ∧ ".." ∉ path.names ∧ path.text = value ∧ path = .ofText value := by
  unfold safeRelative? at accepted
  dsimp only at accepted
  split at accepted
  · cases accepted
  · rename_i clean
    cases accepted
    simp only [Bool.or_eq_true, not_or, PurePath.isAbsolute, bne_iff_ne, List.contains_iff_mem, ne_eq,
      Decidable.not_not] at clean
    exact ⟨clean.1.1.1.1.2, clean.1.1.2, clean.2.symm, rfl⟩

end Modelark.Library
