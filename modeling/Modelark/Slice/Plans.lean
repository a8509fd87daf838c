import Modelark.Library.Json
import Modelark.Proposal.Assembly

/-!
# Transfer plans

What a transfer plan claims of a destination: a whole drive, or one folder of a filesystem. Two running
transactions must not write into one another's tree, so their claims are compared before a reservation.
-/

namespace Modelark.Slice

open Library Proposal

/-- `TransferRefusal`. -/
structure TransferRefusal where
  code : String
  detail : String
  deriving Repr, DecidableEq

def TransferRefusal.text (refusal : TransferRefusal) : String :=
  refusal.code ++ ": " ++ refusal.detail

/-- A refusal, or an exception of the interpreter. -/
inductive Failure where
  | refused (refusal : TransferRefusal)
  | raised
  deriving Repr, DecidableEq

def refuse (code : String) (detail : String) : Failure :=
  .refused ⟨code, detail⟩

inductive FolderProfile where
  | nativeExt4
  | fat32Session
  deriving Repr, DecidableEq

def FolderProfile.value : FolderProfile → String
  | .nativeExt4 => "native-ext4-folder.v1"
  | .fat32Session => "fat32-folder-session.v1"

/-- The characters of a FAT32 component. -/
def isAsciiName (c : Char) : Bool :=
  c.isAlphanum || c == '_' || c == '.' || c == ' ' || c == '-'

/-- The target of a folder plan: `FolderTarget` of a native plan, `Fat32Intent` of a FAT32 plan. -/
structure FolderTarget where
  profile : FolderProfile
  filesystemScope : String
  parentParts : List String
  /-- Inode and birth time of a native parent. -/
  parentIdentity : Nat × Nat
  childName : String
  ascii : profile = .fat32Session →
    ∀ part ∈ parentParts ++ [childName], ∀ c ∈ part.toList, isAsciiName c = true

namespace FolderTarget

variable (target : FolderTarget)

def parts : List String :=
  target.parentParts ++ [target.childName]

def fields : List (String × Json) :=
  [("profile", .str target.profile.value), ("filesystem_scope", .str target.filesystemScope),
    ("parent_parts", .arr (target.parentParts.map .str)), ("child_name", .str target.childName)]

/-- `target_id` of either kind of target. -/
def targetId (sha : Digester) : String :=
  match target.profile with
  | .nativeExt4 => "folder-target-v1:" ++ sha.hash (Json.dict (target.fields ++
      [("version", .str "modelark.slice.folder-target.v1"),
        ("parent_identity", .arr [.int target.parentIdentity.1, .int target.parentIdentity.2])])).dumps
  | .fat32Session => "fat32-intent-v1:" ++ sha.hash (Json.dict (target.fields ++
      [("version", .str "modelark.slice.fat32-intent.v1")])).dumps

end FolderTarget

/-- The destination of a plan, with the backing identities of a folder. -/
inductive Destination where
  | wholeDrive (deviceId filesystemId : String)
  | folder (target : FolderTarget) (backingIds : List String)

/-- A sealed plan. Its stored text decodes to itself. -/
structure TransferPlan where
  destination : Destination
  sealHash : String

namespace TransferPlan

variable (plan : TransferPlan)

/-- A FAT32 plan has a single attempt. -/
def sessionOnly : Bool :=
  match plan.destination with
  | .wholeDrive .. => false
  | .folder target _ => target.profile = .fat32Session

def deviceId (sha : Digester) : String :=
  match plan.destination with
  | .wholeDrive deviceId _ => deviceId
  | .folder target _ => target.targetId sha

end TransferPlan

/-- The paths agree as far as the shorter one goes. -/
def agree (left right : List String) : Bool :=
  let common := min left.length right.length
  left.take common == right.take common

/-- `folder_contract.overlaps`. -/
def overlaps (first second : FolderTarget) : Except Failure Bool :=
  if first.filesystemScope ≠ second.filesystemScope then .ok false
  else if first.profile ≠ second.profile then
    .error (refuse "FOLDER_CONTRACT_INVALID" "inconsistent profiles for one filesystem scope")
  else if agree first.parts second.parts then .ok true
  else if first.profile = .fat32Session then
    .error (refuse "FOLDER_CONTRACT_INVALID"
      "FAT32 disjointness requires qualified driver name/alias semantics")
  else .ok false

/-- Lower case of ASCII letters. -/
def lower (text : String) : String :=
  text.map Char.toLower

section Overlap

variable (casefold : String → String)

/-- A folder and a whole drive: the drive or its filesystem backs the folder. -/
def backs (backingIds : List String) (deviceId filesystemId : String) : Bool :=
  let keys := backingIds.map casefold
  keys.contains (casefold deviceId) || keys.contains (casefold ("filesystem:" ++ filesystemId))

/-- `_claims_overlap`. -/
def claimsOverlap (first second : TransferPlan) : Except Failure Bool :=
  match first.destination, second.destination with
  | .folder left _, .folder right _ =>
      if first.sessionOnly || second.sessionOnly then
        if left.filesystemScope ≠ right.filesystemScope then .ok false
        else if left.profile ≠ right.profile then
          .error (refuse "DESTINATION_UNPROVEN" "mixed filesystem profiles")
        else .ok (agree (left.parts.map lower) (right.parts.map lower))
      else overlaps left right
  | .wholeDrive left _, .wholeDrive right _ => .ok (left == right)
  | .folder _ backing, .wholeDrive device filesystem
  | .wholeDrive device filesystem, .folder _ backing => .ok (backs casefold backing device filesystem)

/-- One path is the other or leads to it. -/
def Nested (left right : List String) : Prop :=
  left <+: right ∨ right <+: left

/-- What two claims must not share: a drive, a folder of a filesystem, or what backs it. -/
def Conflict (first second : TransferPlan) : Prop :=
  match first.destination, second.destination with
  | .wholeDrive left _, .wholeDrive right _ => left = right
  | .folder left _, .folder right _ =>
      left.filesystemScope = right.filesystemScope ∧ left.profile = right.profile ∧
        match left.profile with
        | .nativeExt4 => Nested left.parts right.parts
        | .fat32Session => Nested (left.parts.map lower) (right.parts.map lower)
  | .folder _ backing, .wholeDrive device filesystem
  | .wholeDrive device filesystem, .folder _ backing =>
      ∃ key ∈ backing, casefold key = casefold device ∨
        casefold key = casefold ("filesystem:" ++ filesystem)

/-- Folders of one filesystem with different profiles: their paths cannot be compared. -/
def Mixed (first second : TransferPlan) : Prop :=
  match first.destination, second.destination with
  | .folder left _, .folder right _ =>
      left.filesystemScope = right.filesystemScope ∧ left.profile ≠ right.profile
  | _, _ => False

theorem agree_comm (left right : List String) : agree left right = agree right left := by
  simp only [agree, Nat.min_comm left.length right.length]
  rw [Bool.eq_iff_iff, beq_iff_eq, beq_iff_eq, eq_comm]

theorem agree_of_le {left right : List String} (short : left.length ≤ right.length) :
    agree left right = true ↔ left <+: right := by
  rw [agree, Nat.min_eq_left short, List.take_length, beq_iff_eq, List.prefix_iff_eq_take]

theorem nested_of_le {left right : List String} (short : left.length ≤ right.length) :
    Nested left right ↔ left <+: right := by
  constructor
  · rintro (first | second)
    · exact first
    · have same : right = left := second.eq_of_length_le short
      exact same ▸ List.prefix_rfl
  · exact .inl

theorem nested_comm {left right : List String} : Nested left right ↔ Nested right left :=
  or_comm

theorem agree_iff {left right : List String} : agree left right = true ↔ Nested left right := by
  rcases Nat.le_total left.length right.length with short | short
  · rw [agree_of_le short, nested_of_le short]
  · rw [agree_comm, nested_comm, agree_of_le short, nested_of_le short]

theorem overlaps_comm (first second : FolderTarget) : overlaps first second = overlaps second first := by
  unfold overlaps
  by_cases scope : first.filesystemScope = second.filesystemScope
  · by_cases profile : first.profile = second.profile
    · simp [scope, profile, agree_comm first.parts]
    · simp [scope, profile, Ne.symm profile]
  · simp [scope, Ne.symm scope]

/-- The comparison does not depend on the order of its arguments. -/
theorem claimsOverlap_comm (first second : TransferPlan) :
    claimsOverlap casefold first second = claimsOverlap casefold second first := by
  unfold claimsOverlap
  cases left : first.destination with
  | wholeDrive device filesystem =>
      cases right : second.destination with
      | wholeDrive device' filesystem' => simp [eq_comm]
      | folder target backing => rfl
  | folder target backing =>
      cases right : second.destination with
      | wholeDrive device filesystem => rfl
      | folder target' backing' =>
          dsimp only
          rw [Bool.or_comm, overlaps_comm target']
          by_cases scope : target.filesystemScope = target'.filesystemScope
          · by_cases profile : target.profile = target'.profile
            · simp [scope, profile, agree_comm (target.parts.map lower)]
            · simp [scope, profile, Ne.symm profile]
          · simp [scope, Ne.symm scope]

theorem sessionOnly_folder {plan : TransferPlan} {target : FolderTarget} {backing : List String}
    (folder : plan.destination = .folder target backing) :
    plan.sessionOnly = true ↔ target.profile = .fat32Session := by
  simp [TransferPlan.sessionOnly, folder]

theorem backs_iff {backing : List String} {device filesystem : String} :
    backs casefold backing device filesystem = true ↔
      ∃ key ∈ backing, casefold key = casefold device ∨
        casefold key = casefold ("filesystem:" ++ filesystem) := by
  simp only [backs, Bool.or_eq_true, List.contains_iff_mem, List.mem_map]
  constructor
  · rintro (⟨key, listed, same⟩ | ⟨key, listed, same⟩)
    · exact ⟨key, listed, .inl same⟩
    · exact ⟨key, listed, .inr same⟩
  · rintro ⟨key, listed, same | same⟩
    · exact .inl ⟨key, listed, same⟩
    · exact .inr ⟨key, listed, same⟩

/-- Claims that can be compared overlap exactly when they conflict; the others are refused. -/
theorem claimsOverlap_spec (first second : TransferPlan) :
    (Mixed first second → ∃ refusal, claimsOverlap casefold first second = .error refusal) ∧
      (¬Mixed first second → ∃ answer, claimsOverlap casefold first second = .ok answer ∧
        (answer = true ↔ Conflict casefold first second)) := by
  unfold claimsOverlap Mixed Conflict
  cases left : first.destination with
  | wholeDrive device filesystem =>
      cases right : second.destination with
      | wholeDrive device' filesystem' => simp
      | folder target backing => simp [backs_iff]
  | folder target backing =>
      cases right : second.destination with
      | wholeDrive device filesystem => simp [backs_iff]
      | folder target' backing' =>
          dsimp only
          have firstOnly := sessionOnly_folder left
          have secondOnly := sessionOnly_folder right
          by_cases scope : target.filesystemScope = target'.filesystemScope
          · by_cases profile : target.profile = target'.profile
            · rw [← profile] at secondOnly
              cases kind : target.profile with
              | nativeExt4 =>
                  have neither : (first.sessionOnly || second.sessionOnly) = false := by
                    simp [Bool.eq_false_iff, firstOnly, secondOnly, kind]
                  rw [if_neg (by simp [neither]), overlaps]
                  by_cases nested : agree target.parts target'.parts = true
                  · simp [scope, ← profile, kind, nested, agree_iff.mp nested]
                  · have apart : ¬Nested target.parts target'.parts :=
                      fun both => nested (agree_iff.mpr both)
                    simp [scope, ← profile, kind, nested, apart]
              | fat32Session =>
                  simp [firstOnly.mpr kind, scope, ← profile, kind, agree_iff]
            · have session : (first.sessionOnly || second.sessionOnly) = true := by
                cases kind : target.profile with
                | nativeExt4 =>
                    cases kind' : target'.profile with
                    | nativeExt4 => simp [kind, kind'] at profile
                    | fat32Session => simp [secondOnly.mpr kind']
                | fat32Session => simp [firstOnly.mpr kind]
              simp [session, scope, profile]
          · simp [scope, overlaps]

end Overlap

end Modelark.Slice
