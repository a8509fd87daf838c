import Modelark.Archive.Evidence
import Modelark.Conversion.Archive

/-!
# Payload paths

The paths under which payloads are kept. Paths with hidden components are kept under names of their own, and no
two payloads get in each other's way.
-/

namespace Modelark.Publication

open Library Revision Conversion

/-- One path is a directory above the other. -/
def IsAncestor (upper lower : String) : Prop :=
  parts upper <+: parts lower ∧ parts upper ≠ parts lower

/-- The text of a hidden component starts with a dot. -/
def isHidden (part : String) : Bool :=
  part.toList.head? == some '.'

section Results

variable {tools : Digests} {logical other result second : String}

/-- The name under which a path with hidden components is kept. -/
def payloadName (tools : Digests) (logical : String) : String :=
  "p-" ++ tools.sha256Text logical ++ ".blob"

theorem not_mem_digest {digest : String} {c : Char} (hex : isDigest digest = true)
    (plain : Modelark.Archive.isHex c = false) : c ∉ digest.toList := by
  intro member
  simp only [isDigest, Bool.and_eq_true, List.all_eq_true] at hex
  rw [hex.2 c member] at plain
  cases plain

theorem not_mem_payloadName {c : Char} (plain : Modelark.Archive.isHex c = false)
    (apart : c ∉ "p-.blob".toList) : c ∉ (payloadName tools logical).toList := by
  have hashed := not_mem_digest (tools.hex logical.toUTF8.data.toList) plain
  simp only [payloadName, Digests.sha256Text, String.toList_append, List.mem_append]
  rintro ((first | second) | last)
  · exact apart (List.mem_append_left ".blob".toList first)
  · exact hashed second
  · exact apart (List.mem_append_right "p-".toList last)

theorem parts_payloadName : parts (payloadNamespace ++ "/" ++ payloadName tools logical) =
    [payloadNamespace, payloadName tools logical] := by
  rw [parts_append, parts_of_notMem (by decide), parts_of_notMem (not_mem_payloadName (by decide) (by decide))]
  rfl

/-- A path is kept as it is, or under a name of its own when a component is hidden. -/
theorem payloadRelativePath_eq_ok (kept : tools.payloadRelativePath logical = .ok result) :
    relativePath logical = .ok logical ∧ payloadNamespace ∉ parts logical ∧
      (result = logical ∧ (∀ part ∈ parts logical, isHidden part = false) ∨
        result = payloadNamespace ++ "/" ++ payloadName tools logical) := by
  simp only [Digests.payloadRelativePath, bind_eq_ok, require_eq_ok] at kept
  obtain ⟨path, accepted, _, apart, chosen⟩ := kept
  have same : path = logical := by
    simp only [relativePath, bind_eq_ok, pure_eq_ok] at accepted
    obtain ⟨_, _, same⟩ := accepted
    exact same.symm
  subst same
  refine ⟨accepted, by simpa using apart, ?_⟩
  split at chosen
  · right
    rw [pure_eq_ok] at chosen
    rw [← chosen]
    apply String.toList_injective
    simp [payloadName]
  · left
    rename_i visible
    rw [pure_eq_ok] at chosen
    refine ⟨chosen.symm, fun part member => ?_⟩
    simpa [isHidden] using fun hidden => visible (List.any_eq_true.mpr ⟨part, member, hidden⟩)

theorem relativePath_payloadName : relativePath (payloadNamespace ++ "/" ++ payloadName tools logical) =
    .ok (payloadNamespace ++ "/" ++ payloadName tools logical) := by
  have first : (payloadName tools logical).toList.head? = some 'p' := by
    simp [payloadName]
  have named : ["", ".", "..", ".git"].contains (payloadName tools logical) = false := by
    rw [List.contains_eq_mem, decide_eq_false_iff_not]
    intro listed
    simp only [List.mem_cons, List.not_mem_nil, or_false] at listed
    rcases listed with same | same | same | same <;> simp [same] at first
  have nul := @not_mem_payloadName tools logical '\x00' (by decide) (by decide)
  have backslash := @not_mem_payloadName tools logical '\\' (by decide) (by decide)
  have chars : (payloadNamespace ++ "/" ++ payloadName tools logical).toList =
      payloadNamespace.toList ++ '/' :: (payloadName tools logical).toList := by simp
  simp only [relativePath, bind_eq_ok, require_eq_ok, pure_eq_ok]
  refine ⟨(), ?_, trivial⟩
  rw [parts_payloadName, hasDrive, chars]
  simp only [Bool.and_eq_true, bne_iff_ne, List.all_cons, List.all_nil, named]
  refine ⟨⟨⟨⟨?_, ?_⟩, ?_⟩, ?_⟩, ?_⟩
  · intro empty
    have none' := congrArg String.toList empty
    rw [chars] at none'
    simp at none'
  · have apart : '\x00' ∉ payloadNamespace.toList := by decide
    simp [nul, apart]
  · have apart : '\\' ∉ payloadNamespace.toList := by decide
    simp [backslash, apart]
  · rfl
  · decide

/-- What is kept is a relative path without empty, dot or hidden components. -/
theorem payloadRelativePath_valid (kept : tools.payloadRelativePath logical = .ok result) :
    relativePath result = .ok result ∧ ∀ part ∈ parts result, part ≠ "" ∧ isHidden part = false := by
  obtain ⟨accepted, _, ⟨rfl, visible⟩ | rfl⟩ := payloadRelativePath_eq_ok kept
  · refine ⟨accepted, fun part member => ⟨?_, visible part member⟩⟩
    rintro rfl
    simp only [relativePath, bind_eq_ok, require_eq_ok, Bool.and_eq_true, List.all_eq_true] at accepted
    obtain ⟨_, ⟨_, named⟩, _⟩ := accepted
    simpa using named "" member
  · refine ⟨relativePath_payloadName, fun part member => ?_⟩
    rw [parts_payloadName] at member
    simp only [List.mem_cons, List.not_mem_nil, or_false] at member
    rcases member with rfl | rfl
    · decide
    · refine ⟨fun empty => ?_, by simp [isHidden, payloadName]⟩
      have none' := congrArg String.toList empty
      simp [payloadName] at none'

theorem payloadName_injective (same : payloadName tools logical = payloadName tools other) :
    tools.sha256Text logical = tools.sha256Text other := by
  have chars := congrArg String.toList same
  simp only [payloadName, String.toList_append] at chars
  rw [List.append_left_inj, List.append_right_inj] at chars
  exact String.toList_injective chars

/-- What two paths are kept under is the same, or one above the other, only if they are. -/
theorem payloadRelativePath_apart (kept : tools.payloadRelativePath logical = .ok result)
    (kept' : tools.payloadRelativePath other = .ok second)
    (injective : tools.sha256Text logical = tools.sha256Text other → logical = other)
    (above : parts result <+: parts second) : parts logical <+: parts other := by
  obtain ⟨_, apart, ⟨rfl, _⟩ | rfl⟩ := payloadRelativePath_eq_ok kept <;>
    obtain ⟨_, apart', ⟨rfl, _⟩ | rfl⟩ := payloadRelativePath_eq_ok kept'
  · exact above
  · -- No prefix of a mapped path is empty or leaves the namespace out.
    rw [parts_payloadName] at above
    obtain ⟨rest, same⟩ := above
    cases shape : parts result with
    | nil => exact absurd shape (by simp [parts, List.splitOn_ne_nil])
    | cons first others =>
        rw [shape, List.cons_append] at same
        exact absurd (by rw [shape, (List.cons.inj same).1]; exact List.mem_cons_self) apart
  · rw [parts_payloadName] at above
    exact absurd (above.subset List.mem_cons_self) apart'
  · rw [parts_payloadName, parts_payloadName] at above
    have same := List.IsPrefix.eq_of_length above rfl
    have names : payloadName tools logical = payloadName tools other := by simpa using same
    obtain rfl := injective (payloadName_injective names)
    exact List.prefix_refl _

end Results

/-- Payload paths are valid, and apart wherever the logical paths are, among paths whose digests do not
    collide. -/
theorem payload_paths_apart (tools : Digests) (logicals : Set String) (injective : Set.InjOn tools.sha256Text logicals) :
    (∀ logical result, tools.payloadRelativePath logical = .ok result →
      relativePath result = .ok result ∧ ∀ part ∈ parts result, part ≠ "" ∧ isHidden part = false) ∧
    ∀ logical ∈ logicals, ∀ other ∈ logicals, ∀ result second, tools.payloadRelativePath logical = .ok result →
      tools.payloadRelativePath other = .ok second →
        (result = second → logical = other) ∧ (IsAncestor result second → IsAncestor logical other) := by
  refine ⟨fun logical result kept => payloadRelativePath_valid kept, ?_⟩
  intro logical member other member' result second kept kept'
  have equal : result = second → logical = other := by
    rintro rfl
    have below := payloadRelativePath_apart kept kept' (injective member member') (List.prefix_refl _)
    have above := payloadRelativePath_apart kept' kept (injective member' member) (List.prefix_refl _)
    exact parts_injective (below.eq_of_length_le above.length_le)
  refine ⟨equal, fun above => ⟨payloadRelativePath_apart kept kept' (injective member member') above.1, ?_⟩⟩
  intro same
  have alike := parts_injective same
  subst alike
  rw [kept] at kept'
  cases kept'
  exact above.2 rfl

/-- The digest of the standard library. -/
def hashlibTools : Digests where
  sha256 := Library.sha256
  hex bytes := by simpa [isDigest] using Modelark.Archive.hex_sha256 bytes

theorem payload_paths_apart_dotted :
    hashlibTools.payloadRelativePath ".gitattributes" ≠ hashlibTools.payloadRelativePath "docs/.index" := by
  have differ : hashlibTools.sha256Text ".gitattributes" ≠ hashlibTools.sha256Text "docs/.index" := by
    decide +kernel
  have injective : Set.InjOn hashlibTools.sha256Text {".gitattributes", "docs/.index"} := by
    rintro _ (rfl | rfl) _ (rfl | rfl) same
    · rfl
    · exact absurd same differ
    · exact absurd same.symm differ
    · rfl
  have accepted : (hashlibTools.payloadRelativePath ".gitattributes").toOption.isSome = true := by
    decide +kernel
  obtain ⟨result, kept⟩ := Option.isSome_iff_exists.mp accepted
  rw [toOption_eq_some] at kept
  intro same
  have equal := ((payload_paths_apart hashlibTools _ injective).2 ".gitattributes" (.inl rfl) "docs/.index"
    (.inr rfl) result result kept (same.symm.trans kept)).1 rfl
  exact absurd equal (by decide)

end Modelark.Publication
