import Modelark.Conversion.Archive
import Modelark.Library.JsonLayout
import Modelark.Revision.Evidence

/-!
# Conversion plans

The census of the archived copies that have no annex key, and its text when it is frozen. What is frozen
is read back, as long as the text fits into the one read that is made of it.
-/

namespace Modelark.Conversion

open Library Revision

/-- A candidate of a plan: the columns of its row, and what the census says of it. -/
structure Candidate where
  row : ArchivedRow
  state : String
  proposedStoredRelpath : String
  deriving Repr, DecidableEq

structure Plan where
  inspectedAt : String
  /-- The library and its map. -/
  identity : Option (String × String)
  drive : Option String
  repos : Option (List String)
  candidates : List Candidate
  deriving Repr, DecidableEq

def ofNat? (value : Option Nat) : Json :=
  Json.ofInt (value.map Int.ofNat)

namespace Candidate

def fields (candidate : Candidate) : List (String × Json) :=
  [("drive_label", .str candidate.row.driveLabel), ("repo_id", .str candidate.row.repoId),
    ("rfilename", .str candidate.row.rfilename), ("orig_sha256", .ofText candidate.row.origSha256),
    ("orig_bytes", ofNat? candidate.row.origBytes), ("stored_relpath", .ofText candidate.row.storedRelpath),
    ("stored_name", .ofText candidate.row.storedName), ("annex_key", .ofText candidate.row.annexKey),
    ("compressed", .int (if candidate.row.compressed then 1 else 0)),
    ("stored_bytes", ofNat? candidate.row.storedBytes),
    ("orig_sha256_provenance", .ofText candidate.row.origSha256Provenance),
    ("state", .str candidate.state), ("proposed_stored_relpath", .str candidate.proposedStoredRelpath)]

def json (candidate : Candidate) : Json :=
  .dict candidate.fields

end Candidate

def textOf : Json → Option String
  | .str text => some text
  | _ => none

def textOf? : Json → Option (Option String)
  | .str text => some (some text)
  | .null => some none
  | _ => none

def natOf? : Json → Option (Option Nat)
  | .int (.ofNat n) => some (some n)
  | .null => some none
  | _ => none

def flagOf : Json → Option Bool
  | .int value => some (value != 0)
  | _ => none

/-- The candidate of a dictionary. -/
def Candidate.ofJson (json : Json) : Option Candidate := do
  let driveLabel ← (json.get? "drive_label").bind textOf
  let repoId ← (json.get? "repo_id").bind textOf
  let rfilename ← (json.get? "rfilename").bind textOf
  let origSha256 ← (json.get? "orig_sha256").bind textOf?
  let origBytes ← (json.get? "orig_bytes").bind natOf?
  let storedRelpath ← (json.get? "stored_relpath").bind textOf?
  let storedName ← (json.get? "stored_name").bind textOf?
  let annexKey ← (json.get? "annex_key").bind textOf?
  let compressed ← (json.get? "compressed").bind flagOf
  let storedBytes ← (json.get? "stored_bytes").bind natOf?
  let origSha256Provenance ← (json.get? "orig_sha256_provenance").bind textOf?
  let state ← (json.get? "state").bind textOf
  let proposedStoredRelpath ← (json.get? "proposed_stored_relpath").bind textOf
  return ⟨⟨repoId, rfilename, driveLabel, storedName, storedRelpath, origSha256, origBytes, storedBytes,
    compressed, annexKey, origSha256Provenance⟩, state, proposedStoredRelpath⟩

/-- `counts`, of the states in the order in which they occur. -/
def Plan.counts (plan : Plan) : List (String × Json) :=
  let states := plan.candidates.map Candidate.state
  states.dedup.map fun state => (state, .int (states.count state))

/-- The plan as a dictionary. -/
def Plan.fields (plan : Plan) : List (String × Json) :=
  [("kind", .str "annex-migrate-inspect"), ("inspected_at", .str plan.inspectedAt),
    ("library_id", .ofText (plan.identity.map Prod.fst)), ("map_uuid", .ofText (plan.identity.map Prod.snd)),
    ("drive", .ofText plan.drive),
    ("repos", plan.repos.elim .null fun repos => .arr (repos.map .str)),
    ("counts", .dict plan.counts), ("candidates", .arr (plan.candidates.map Candidate.json)),
    ("apply", .str "disabled-until-explicit-cutover")]

/-- `_ENVELOPE`. -/
def envelope : List String := ["frozen", "seal", "apply", "plan_path"]

/-- `_census`. -/
def census (fields : List (String × Json)) : List (String × Json) :=
  fields.filter fun field => !envelope.contains field.1

/-- `_seal`. -/
def planSeal (tools : Tools) (fields : List (String × Json)) : String :=
  tools.sha256Text (Json.obj (census fields)).sortKeys.dumps

namespace Plan

variable (tools : Tools) (plan : Plan)

/-- What `apply_conversion` freezes. -/
def frozen : List (String × Json) :=
  census plan.fields ++
    [("frozen", .bool true), ("seal", .str (planSeal tools plan.fields)), ("apply", .str "frozen-inspect-only")]

/-- `plan_json` of the frozen plan. -/
def text : String :=
  (Json.obj (plan.frozen tools)).sortKeys.pretty ++ "\n"

/-- What the name of the plan's file is made of. -/
def stem : String := String.ofList ((planSeal tools plan.fields).toList.take 12)

end Plan

/-- The most that one `os.read` takes. -/
def readLimit : Nat := 4194304

/-- `json.loads(_read_private(…))`. -/
def readPlan (text : String) : Except Failure (List (String × Json)) :=
  match Json.loads (String.ofList (text.toList.take readLimit)) with
  | some (.obj fields) => .ok fields
  | some _ => .error (.raised "AttributeError")
  | none => .error (.raised "JSONDecodeError")

/-- The candidates of a plan that has been read. -/
def candidatesOf (frozen : List (String × Json)) : Except Failure (List Candidate) :=
  match (Json.obj frozen).get? "candidates" with
  | some (.arr items) =>
      match items.mapM Candidate.ofJson with
      | some candidates => .ok candidates
      | none => .error (.raised "KeyError")
  | some .null | none => .ok []
  | some _ => .error (.raised "TypeError")

/-- `frozen.get("seal")`. -/
def sealOf (frozen : List (String × Json)) : Option String :=
  ((Json.obj frozen).get? "seal").bind textOf

@[simp] theorem natOf?_ofNat? (value : Option Nat) : natOf? (ofNat? value) = some value := by
  cases value <;> rfl

@[simp] theorem textOf?_ofText (text : Option String) : textOf? (.ofText text) = some text := by
  cases text <;> rfl

theorem Candidate.ofJson_json (candidate : Candidate) : Candidate.ofJson candidate.json = some candidate := by
  have distinct : (candidate.fields.map Prod.fst).Nodup := by
    simp [Candidate.fields]
  have read {key : String} {value : Json} (member : (key, value) ∈ candidate.fields) :
      candidate.json.get? key = some value := Json.get?_dict distinct member
  have flag : flagOf (.int (if candidate.row.compressed then 1 else 0)) = some candidate.row.compressed := by
    cases candidate.row.compressed <;> rfl
  have driveLabel : candidate.json.get? "drive_label" = some (.str candidate.row.driveLabel) :=
    read (by simp [Candidate.fields])
  have repoId : candidate.json.get? "repo_id" = some (.str candidate.row.repoId) :=
    read (by simp [Candidate.fields])
  have rfilename : candidate.json.get? "rfilename" = some (.str candidate.row.rfilename) :=
    read (by simp [Candidate.fields])
  have origSha256 : candidate.json.get? "orig_sha256" = some (.ofText candidate.row.origSha256) :=
    read (by simp [Candidate.fields])
  have origBytes : candidate.json.get? "orig_bytes" = some (ofNat? candidate.row.origBytes) :=
    read (by simp [Candidate.fields])
  have storedRelpath : candidate.json.get? "stored_relpath" = some (.ofText candidate.row.storedRelpath) :=
    read (by simp [Candidate.fields])
  have storedName : candidate.json.get? "stored_name" = some (.ofText candidate.row.storedName) :=
    read (by simp [Candidate.fields])
  have annexKey : candidate.json.get? "annex_key" = some (.ofText candidate.row.annexKey) :=
    read (by simp [Candidate.fields])
  have compressed : candidate.json.get? "compressed" =
      some (.int (if candidate.row.compressed then 1 else 0)) :=
    read (by simp [Candidate.fields])
  have storedBytes : candidate.json.get? "stored_bytes" = some (ofNat? candidate.row.storedBytes) :=
    read (by simp [Candidate.fields])
  have provenance : candidate.json.get? "orig_sha256_provenance" =
      some (.ofText candidate.row.origSha256Provenance) :=
    read (by simp [Candidate.fields])
  have state : candidate.json.get? "state" = some (.str candidate.state) :=
    read (by simp [Candidate.fields])
  have proposed : candidate.json.get? "proposed_stored_relpath" =
      some (.str candidate.proposedStoredRelpath) :=
    read (by simp [Candidate.fields])
  simp only [Candidate.ofJson, driveLabel, repoId, rfilename, origSha256, origBytes, storedRelpath,
    storedName, annexKey, compressed, storedBytes, provenance, state, proposed, flag, Option.bind_some,
    textOf, textOf?_ofText, natOf?_ofNat?, Option.bind_eq_bind, Option.pure_def]

theorem Candidate.sortKeys_json (candidate : Candidate) : candidate.json.sortKeys = candidate.json := by
  apply Json.sortKeys_dict
  simp [Candidate.fields, ofNat?, Json.sortKeys]

/-- Every value of a plan is in order. -/
theorem Plan.fields_sorted (plan : Plan) : ∀ field ∈ plan.fields, field.2.sortKeys = field.2 := by
  have repos : (plan.repos.elim Json.null fun repos => .arr (repos.map .str)).sortKeys =
      plan.repos.elim .null fun repos => .arr (repos.map .str) := by
    cases plan.repos with
    | none => rfl
    | some repos =>
        apply Json.sortKeys_arr
        simp [Json.sortKeys]
  have counts : (Json.dict plan.counts).sortKeys = .dict plan.counts := by
    apply Json.sortKeys_dict
    simp [Plan.counts, Json.sortKeys]
  have candidates : Json.sortItems (plan.candidates.map Candidate.json) =
      plan.candidates.map Candidate.json := by
    apply Json.sortItems_of_sorted
    simp [Candidate.sortKeys_json]
  simp [Plan.fields, Json.sortKeys, repos, counts, candidates]

section Frozen

variable (tools : Tools) (plan : Plan)

theorem frozen_sorted : ∀ field ∈ plan.frozen tools, field.2.sortKeys = field.2 := by
  intro field member
  rcases List.mem_append.mp member with listed | added
  · exact plan.fields_sorted field (List.mem_filter.mp listed).1
  · simp only [List.mem_cons, List.not_mem_nil, or_false] at added
    rcases added with rfl | rfl | rfl <;> rfl

theorem frozen_keys : (plan.frozen tools).map Prod.fst =
    ["kind", "inspected_at", "library_id", "map_uuid", "drive", "repos", "counts", "candidates", "frozen",
      "seal", "apply"] := by
  simp [Plan.frozen, census, Plan.fields, envelope]

theorem frozen_distinct : ((plan.frozen tools).map Prod.fst).Nodup := by
  rw [frozen_keys]
  decide

/-- A plan as it is read back. -/
def Plan.kept : List (String × Json) :=
  sortBy Prod.fst (plan.frozen tools)

/-- The text of a plan is read back as what was frozen, if it is read whole. -/
theorem readPlan_text (whole : (plan.text tools).length ≤ readLimit) :
    readPlan (plan.text tools) = .ok (plan.kept tools) := by
  have all : (plan.text tools).toList.take readLimit = (plan.text tools).toList :=
    List.take_of_length_le (by rwa [String.length_toList])
  have read := Json.loads_pretty (Json.obj (plan.frozen tools)).sortKeys
  rw [readPlan, all, String.ofList_toList, Plan.text, read, Json.sortKeys_obj (frozen_sorted tools plan)]
  rfl

theorem sealOf_kept : sealOf (plan.kept tools) = some (planSeal tools plan.fields) := by
  have member : ("seal", Json.str (planSeal tools plan.fields)) ∈ plan.frozen tools := by
    simp [Plan.frozen]
  have read := Json.get?_dict (frozen_distinct tools plan) member
  rw [Json.dict] at read
  rw [sealOf, Plan.kept, read]
  rfl

theorem planSeal_kept : planSeal tools (plan.kept tools) = planSeal tools plan.fields := by
  have census_frozen : census (plan.frozen tools) = census plan.fields := by
    simp [Plan.frozen, census, envelope, List.filter_append, List.filter_filter]
  have sorted : ∀ field ∈ census plan.fields, field.2.sortKeys = field.2 :=
    fun field member => plan.fields_sorted field (List.mem_filter.mp member).1
  have sorted' : ∀ field ∈ sortBy Prod.fst (census plan.fields), field.2.sortKeys = field.2 :=
    fun field member => sorted field (mem_sortBy.mp member)
  have kept : census (plan.kept tools) = sortBy Prod.fst (census plan.fields) := by
    rw [census, Plan.kept, Json.filter_dict (frozen_distinct tools plan)]
    rw [← census_frozen]
    rfl
  rw [planSeal, planSeal, kept, Json.sortKeys_obj sorted, Json.sortKeys_obj sorted', Json.dict, Json.dict,
    sortBy_of_pairwise (pairwise_sortBy Prod.fst _)]

theorem decoded_candidates : (plan.candidates.map Candidate.json).mapM Candidate.ofJson = some plan.candidates := by
  induction plan.candidates with
  | nil => rfl
  | cons candidate candidates ih => simp [Candidate.ofJson_json, ih]

theorem listed_candidates :
    ("candidates", Json.arr (plan.candidates.map Candidate.json)) ∈ plan.frozen tools := by
  simp [Plan.frozen, census, Plan.fields, envelope]

theorem candidatesOf_frozen : candidatesOf (plan.frozen tools) = .ok plan.candidates := by
  rw [candidatesOf, Json.get?_obj (frozen_distinct tools plan) (listed_candidates tools plan)]
  simp only [decoded_candidates]

theorem candidatesOf_kept : candidatesOf (plan.kept tools) = .ok plan.candidates := by
  have read := Json.get?_dict (frozen_distinct tools plan) (listed_candidates tools plan)
  rw [Json.dict] at read
  rw [candidatesOf, Plan.kept, read]
  simp only [decoded_candidates]

end Frozen

end Modelark.Conversion
