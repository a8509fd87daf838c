import Modelark.Slice.OutputPaths
import Modelark.Slice.Reserves

/-!
# Estimates

The reserve of a folder plan is estimated before there is a plan: an allowance for every file and directory, and
three times the length of what is known. A plan with the estimated reserve passes the check of its own reserve,
although the digits of the reserve are themselves written into the receipt.
-/

namespace Modelark.Slice.Domain

open Library Proposal Archive
open Conversion (parts)

/-- A folder plan without its reserve. -/
structure FolderDraft (τ : Type) where
  proposal : SlicePreview
  destination : FolderBinding τ
  catalog : String
  parentPath : String
  backingIds : List String
  capacity : CapacityObservation
  decodePolicy : Option DecodePolicy

def FolderDraft.plan {τ : Type} (draft : FolderDraft τ) (reserve : Nat) : FolderPlan τ :=
  ⟨draft.proposal, draft.destination, draft.catalog, draft.parentPath, draft.backingIds, draft.capacity, reserve,
    draft.decodePolicy⟩

/-- The path of an artifact below the root. -/
def artifactPath (destinationRoot : String) (artifact : Artifact) : Except Failure String := do
  let repoId ← (artifact.repoId.str?).elim (.error .raised) .ok
  let rfilename ← (artifact.rfilename.str?).elim (.error .raised) .ok
  return purePath [destinationRoot, repoId, rfilename]

/-- The directories above all artifacts. -/
def outputDirectories (proposal : SlicePreview) : Except Failure (List String) := do
  let paths ← proposal.closure.mapM (artifactPath proposal.spec.destinationRoot)
  return (paths.flatMap parents).dedup

namespace FolderKind

variable {τ : Type} (kind : FolderKind τ) (u : Unicode) (sha : Digester)

/-- What is known before the plan. -/
def draftRecord (draft : FolderDraft τ) (store : String) : Json :=
  .dict [("proposal", draft.proposal.record), ("destination", kind.bindingRecord draft.destination),
    ("catalog", .str draft.catalog), ("parent_path", .str draft.parentPath),
    ("backing_ids", .arr (draft.backingIds.map .str)), ("capacity", draft.capacity.record), ("store", .str store)]

/-- `estimate_metadata`, with the allowance for an object and what is checked at last. -/
def estimateMetadata (objectBytes : Nat) (recheck : FolderPlan τ → Except Failure Unit) (draft : FolderDraft τ)
    (store : String) : Except Failure Nat := do
  let directories ← outputDirectories draft.proposal
  let objects := draft.proposal.closure.length + directories.length + 2
  let allowance := 256 * 1024 + objects * objectBytes
  let reserve := allowance + 3 * (kind.draftRecord draft store).dumps.length
  let plan := draft.plan reserve
  kind.check u sha plan
  let sizes ← kind.metadataSizes sha plan store
  recheck plan
  return max reserve (sizes.1 + sizes.2 + allowance)

end FolderKind

/-- `estimate_metadata` of native folders. -/
def nativeEstimate (u : Unicode) (sha : Digester) (draft : FolderDraft FolderTarget) (store : String) :
    Except Failure Nat :=
  (nativeKind u sha).estimateMetadata u sha (16 * 1024) (fun _ => .ok ()) draft store

/-- `estimate_metadata` of FAT32 folders. -/
def fat32Estimate (u : Unicode) (sha : Digester) (draft : FolderDraft Fat32Intent) (store : String) :
    Except Failure Nat :=
  (fat32Kind u sha).estimateMetadata u sha (128 * 1024)
    (fun plan => ((fat32Kind u sha).requiredBytesFor sha plan store).map fun _ => ()) draft store

section Digits

theorem Json.size_int_mono {m n : Nat} (le : m ≤ n) : (Json.int m).size ≤ (Json.int n).size := by
  have some' := Json.one_le_size_int n
  rw [Json.size_int, Nat.length_toDigits_le_iff (by omega) some']
  have own := (Nat.length_toDigits_le_iff (n := n) (by omega : 1 < 10) some').mp (Json.size_int n).ge
  omega

theorem Json.size_int_ten (n : Nat) : (Json.int (10 * n : Nat)).size ≤ (Json.int n).size + 1 := by
  have some' := Json.one_le_size_int n
  rw [Json.size_int, Nat.length_toDigits_le_iff (by omega) (by omega), pow_succ]
  have own := (Nat.length_toDigits_le_iff (n := n) (by omega : 1 < 10) some').mp (Json.size_int n).ge
  omega

end Digits

section Drafts

variable {τ : Type} {kind : FolderKind τ} {u : Unicode} {sha : Digester} {draft : FolderDraft τ} {store : String}
variable {first reserve : Nat}

/-- Only what is required reads the reserve. -/
theorem FolderKind.check_plan (checked : kind.check u sha (draft.plan first) = .ok ()) {required : Int}
    (charged : kind.requiredBytes sha (draft.plan reserve) = .ok required) :
    kind.check u sha (draft.plan reserve) = .ok () := by
  simp only [check, FolderDraft.plan, bind_eq_ok, pure_eq_ok] at checked charged ⊢
  obtain ⟨_, verified, _, ready, _, backing, expected, bound, _, admitted, _, changed, _⟩ := checked
  exact ⟨_, verified, _, ready, _, backing, expected, bound, _, admitted, _, changed, required, charged, trivial⟩

theorem FolderKind.record_size (plan : FolderPlan τ) : (kind.record plan).size =
    124 + plan.proposal.record.size + (kind.bindingRecord plan.destination).size + Json.escaped plan.catalog +
      Json.escaped plan.parentPath + (Json.arr (plan.backingIds.map .str)).size + plan.capacity.record.size +
      (Json.int plan.metadataReserveBytes).size + Json.escaped (kind.versionOf plan.decodePolicy) +
      plan.decodePolicy.elim 0 fun policy => 17 + policy.record.size := by
  have keys : Json.escaped "proposal" = 8 ∧ Json.escaped "destination" = 11 ∧ Json.escaped "catalog" = 7 ∧
      Json.escaped "parent_path" = 11 ∧ Json.escaped "backing_ids" = 11 ∧ Json.escaped "capacity" = 8 ∧
      Json.escaped "metadata_reserve_bytes" = 22 ∧ Json.escaped "version" = 7 ∧
      Json.escaped "decode_policy" = 13 := by
    and_intros <;> exact Json.escaped_literal rfl
  cases policy : plan.decodePolicy <;>
    simp only [record, policy, Option.elim_none, Option.elim_some, List.append_nil, List.cons_append, List.nil_append,
      Json.size_dict, ne_eq, List.cons_ne_nil, not_false_eq_true, Json.sumFields_cons, Json.sumFields_nil,
      Json.size_str, keys] <;> omega

/-- What an accepted plan requires has been computed. -/
theorem FolderKind.charged_of_check {plan : FolderPlan τ} (checked : kind.check u sha plan = .ok ()) :
    ∃ bounds total, kind.metadataSizes sha plan "" = .ok bounds ∧
      kind.checkLayout plan.proposal plan.parentPath (kind.childName plan.destination.target) bounds.1 bounds.2 =
        .ok () ∧ bounds.1 + bounds.2 ≤ plan.metadataReserveBytes ∧ totalBytes plan.proposal = .ok total := by
  simp only [check, bind_eq_ok, pure_eq_ok, requiredBytes_for, requiredBytesFor, charge, require_eq_ok,
    decide_eq_true_eq] at checked
  obtain ⟨_, _, _, _, _, _, _, _, _, _, _, _, _, ⟨bounds, sized, _, layout, _, room, total, summed, _⟩, _⟩ := checked
  exact ⟨bounds, total, sized, layout, room, summed⟩

/-- The control record grows with the store, and the receipt with the digits of the reserve, by nothing else. -/
theorem FolderKind.metadataSizes_plan (digests : ∀ text, isHexText 64 (sha.hash text) = true) {bounds : Nat × Nat}
    (sized : kind.metadataSizes sha (draft.plan first) store = .ok bounds) (reserve : Nat) (store' : String) :
    ∃ bounds', kind.metadataSizes sha (draft.plan reserve) store' = .ok bounds' ∧
      bounds'.1 + Json.escaped store = bounds.1 + Json.escaped store' ∧
      bounds'.2 + (Json.int first).size = bounds.2 + (Json.int reserve).size := by
  simp only [metadataSizes, FolderDraft.plan, bind_eq_ok, pure_eq_ok] at sized ⊢
  obtain ⟨files, listed, rfl⟩ := sized
  refine ⟨_, ⟨files, listed, rfl⟩, ?_, ?_⟩
  · simp only [controlRecord, sealHash, Json.length_dumps, Json.size_dict, ne_eq, List.cons_ne_nil, not_false_eq_true,
      Json.sumFields_cons, Json.sumFields_nil, Json.size_str, escaped_hex (digests _)]
    omega
  · simp only [receiptOf, sealHash, Json.length_dumps, List.cons_append, List.nil_append, Json.size_dict, ne_eq,
      List.cons_ne_nil, not_false_eq_true, Json.sumFields_cons, Json.size_str, escaped_hex (digests _), record_size]
    omega

theorem FolderKind.sizes_of_plans (digests : ∀ text, isHexText 64 (sha.hash text) = true) {bounds bounds' : Nat × Nat}
    {store' : String} (sized : kind.metadataSizes sha (draft.plan first) store = .ok bounds)
    (resized : kind.metadataSizes sha (draft.plan reserve) store' = .ok bounds') :
    bounds'.1 + Json.escaped store = bounds.1 + Json.escaped store' ∧
      bounds'.2 + (Json.int first).size = bounds.2 + (Json.int reserve).size := by
  obtain ⟨other, same, grown⟩ := metadataSizes_plan digests sized reserve store'
  obtain rfl := Except.ok.inj (same.symm.trans resized)
  exact grown

/-- The reserve that is known first covers what is written at least three times. -/
theorem FolderKind.store_le (draft : FolderDraft τ) (store : String) :
    Json.escaped store ≤ (kind.draftRecord draft store).dumps.length := by
  simp only [draftRecord, Json.length_dumps, Json.size_dict, ne_eq, List.cons_ne_nil, not_false_eq_true,
    Json.sumFields_cons, Json.sumFields_nil, Json.size_str]
  omega

/-- The reserve has at most one digit more than the first one. -/
theorem FolderKind.digits_le (digests : ∀ text, isHexText 64 (sha.hash text) = true) {sizes : Nat × Nat}
    {allowance : Nat} (checked : kind.check u sha (draft.plan first) = .ok ())
    (sized : kind.metadataSizes sha (draft.plan first) store = .ok sizes)
    (known : first = allowance + 3 * (kind.draftRecord draft store).dumps.length)
    (final : reserve = max first (sizes.1 + sizes.2 + allowance)) :
    (Json.int reserve).size ≤ (Json.int first).size + 1 := by
  have short := kind.store_le draft store
  obtain ⟨bounds, _, counted, _, room, _⟩ := charged_of_check checked
  have room : bounds.1 + bounds.2 ≤ first := room
  have empty : Json.escaped "" = 0 := rfl
  obtain ⟨control, receipt⟩ := sizes_of_plans digests counted sized
  have larger : reserve ≤ 10 * first := by omega
  exact (Json.size_int_mono larger).trans (Json.size_int_ten first)

/-- A larger reserve is accepted with the digits that it adds, where the layout takes them. -/
theorem FolderKind.accepted_of_first (digests : ∀ text, isHexText 64 (sha.hash text) = true)
    (laid : ∀ bounds, kind.metadataSizes sha (draft.plan reserve) "" = .ok bounds →
      kind.checkLayout draft.proposal draft.parentPath (kind.childName draft.destination.target) bounds.1 bounds.2 =
        .ok ())
    {sizes : Nat × Nat} {allowance : Nat} (some' : 0 < allowance)
    (checked : kind.check u sha (draft.plan first) = .ok ())
    (sized : kind.metadataSizes sha (draft.plan first) store = .ok sizes)
    (known : first = allowance + 3 * (kind.draftRecord draft store).dumps.length)
    (final : reserve = max first (sizes.1 + sizes.2 + allowance)) :
    kind.check u sha (draft.plan reserve) = .ok () := by
  have digits := digits_le digests checked sized known final
  obtain ⟨bounds, total, counted, _, _, summed⟩ := charged_of_check checked
  obtain ⟨control, receipt⟩ := sizes_of_plans digests counted sized
  obtain ⟨after, resized, control', receipt'⟩ := metadataSizes_plan digests counted reserve ""
  have empty : Json.escaped "" = 0 := rfl
  have fits : after.1 + after.2 ≤ reserve := by omega
  have layout := laid after resized
  have charged : kind.requiredBytes sha (draft.plan reserve) =
      .ok (total + reserve + draft.capacity.headroomBytes) := by
    simp only [FolderDraft.plan] at resized summed ⊢
    simp only [requiredBytes_for, requiredBytesFor, resized, ok_bind, charge, layout, require, fits, decide_true,
      if_true, summed]
    rfl
  exact check_plan checked charged

/-- An estimate is made where the plan with the first reserve is accepted. -/
theorem FolderKind.estimateMetadata_eq_ok {recheck : FolderPlan τ → Except Failure Unit} {sizes : Nat × Nat}
    {objects objectBytes length : Nat} (named : (outputDirectories draft.proposal).map List.length = .ok objects)
    (known : (kind.draftRecord draft store).size = length)
    (sum : 256 * 1024 + (draft.proposal.closure.length + objects + 2) * objectBytes + 3 * length = first)
    (checked : kind.check u sha (draft.plan first) = .ok ())
    (sized : kind.metadataSizes sha (draft.plan first) store = .ok sizes)
    (rechecked : recheck (draft.plan first) = .ok ()) :
    ∃ reserve, kind.estimateMetadata u sha objectBytes recheck draft store = .ok reserve := by
  obtain ⟨directories, listed, rfl⟩ := map_eq_ok.mp named
  simp only [estimateMetadata, listed, ok_bind, Json.length_dumps, known, sum, checked, sized, rechecked]
  exact ⟨_, rfl⟩

end Drafts

/-- The estimate of a native folder is a reserve that its plan accepts. -/
theorem native_accepted {u : Unicode} {sha : Digester} {draft : FolderDraft FolderTarget} {store : String}
    {reserve : Nat} (digests : ∀ text, isHexText 64 (sha.hash text) = true)
    (estimated : nativeEstimate u sha draft store = .ok reserve) :
    (nativeKind u sha).check u sha (draft.plan reserve) = .ok () := by
  simp only [nativeEstimate, FolderKind.estimateMetadata, bind_eq_ok, pure_eq_ok] at estimated
  obtain ⟨directories, _, _, checked, sizes, sized, _, _, final⟩ := estimated
  exact FolderKind.accepted_of_first digests (fun _ _ => rfl) (by omega) checked sized rfl final.symm

section Sizes

theorem Record.names_le {α : Type} [Record α] [ReadableRecord α] (record : α)
    (some' : ReadableRecord.names α ≠ []) :
    1 + Json.sumNames (ReadableRecord.names α) ≤ (Record.json record).size := by
  have names := Record.keys_json record
  have fields : (Record.fields record).map (Prod.map id Scalar.json) ≠ [] := by
    intro none
    rw [none] at names
    exact some' names.symm
  rw [Record.json, Json.size_obj fields, ← names]
  have := Json.sumNames_le ((Record.fields record).map (Prod.map id Scalar.json))
  omega

/-- A source has three records with all their names. -/
theorem SourceEvidence.size_ge (source : SourceEvidence) : 550 ≤ source.record.size := by
  have copied : 0 + Json.sumNames CopyFact.names = 165 := by
    repeat apply Json.sumNames_literal rfl
    rfl
  have driven : 0 + Json.sumNames DriveFact.names = 199 := by
    repeat apply Json.sumNames_literal rfl
    rfl
  have anchored : 0 + Json.sumNames AnchorFact.names = 139 := by
    repeat apply Json.sumNames_literal rfl
    rfl
  have keys : Json.escaped "copy" = 4 ∧ Json.escaped "drive" = 5 ∧ Json.escaped "anchor" = 6 ∧
      Json.escaped "digest_provenance" = 17 := by
    and_intros <;> exact Json.escaped_literal rfl
  have copy : 1 + Json.sumNames CopyFact.names ≤ _ := Record.names_le source.copy (by decide)
  have drive : 1 + Json.sumNames DriveFact.names ≤ _ := Record.names_le source.drive (by decide)
  have anchor : 1 + Json.sumNames AnchorFact.names ≤ _ := Record.names_le source.anchor (by decide)
  simp only [record, Json.size_dict, ne_eq, List.cons_ne_nil, not_false_eq_true, Json.sumFields_cons,
    Json.sumFields_nil, Json.size_str]
  omega

theorem longestSource_mem {sources : List SourceEvidence} {source : SourceEvidence}
    (found : longestSource sources = some source) : source ∈ sources := by
  have among : ∀ (others : List SourceEvidence) (start : SourceEvidence),
      others.foldl (fun longest other =>
        if longest.record.dumps.length < other.record.dumps.length then other else longest) start ∈ start :: others := by
    intro others
    induction others with
    | nil => simp
    | cons other others ih =>
        intro start
        rw [List.foldl_cons]
        split
        · exact List.mem_cons_of_mem _ (ih other)
        · rcases List.mem_cons.mp (ih start) with same | later
          · exact List.mem_cons.mpr (.inl same)
          · exact List.mem_cons_of_mem _ (List.mem_cons_of_mem _ later)
  cases sources with
  | nil => cases found
  | cons start others =>
      cases found
      exact among others start

/-- The entry of an artifact in a receipt takes little more than the artifact, which has a source. -/
theorem receiptFile_le {root repoId rfilename : String} {artifact : Artifact} {entry : Json}
    (short : Json.escaped root ≤ 255) (canonical : Canonical root) (repo : artifact.repoId = .str repoId)
    (name : artifact.rfilename = .str rfilename) (canonical' : Canonical repoId) (canonical'' : Canonical rfilename)
    (listed : receiptFile root artifact = .ok entry) : entry.size ≤ artifact.record.size + 255 ∧
      640 + Json.escaped repoId + Json.escaped rfilename ≤ artifact.record.size := by
  have keys : Json.escaped "path" = 4 ∧ Json.escaped "size" = 4 ∧ Json.escaped "sha256" = 6 ∧
      Json.escaped "source" = 6 ∧ Json.escaped "repo_id" = 7 ∧ Json.escaped "rfilename" = 9 ∧
      Json.escaped "size_bytes" = 10 ∧ Json.escaped "format" = 6 ∧ Json.escaped "quant" = 5 ∧
      Json.escaped "sources" = 7 ∧ Json.escaped "/" = 1 := by
    and_intros <;> exact Json.escaped_literal rfl
  cases found : longestSource artifact.sources with
  | none =>
      simp only [receiptFile, found, repo, name, Scalar.str?, Option.elim_some, Option.elim_none, ok_bind,
        error_bind] at listed
      cases listed
  | some source =>
      simp only [receiptFile, found, repo, name, Scalar.str?, Option.elim_some, ok_bind, pure_eq_ok] at listed
      subst listed
      have member : source ∈ artifact.sources := longestSource_mem found
      have counted := Json.size_lt_sumItems (List.mem_map_of_mem (f := SourceEvidence.record) member)
      have all := (Json.size_arr_bounds (artifact.sources.map SourceEvidence.record)).1
      have least := source.size_ge
      have size := Json.one_le_size artifact.sizeBytes.json
      have format := Json.one_le_size artifact.format.json
      have quant := Json.one_le_size artifact.quant.json
      have text (value : String) : (Scalar.str value).json = .str value := rfl
      rw [purePath_three canonical canonical' canonical'']
      simp only [Artifact.record, repo, name, text, Json.size_dict, ne_eq, List.cons_ne_nil, not_false_eq_true,
        Json.sumFields_cons, Json.sumFields_nil, Json.size_str, Json.escaped_append]
      omega

end Sizes

section Layouts

open Fat32Layout

variable {u : Unicode} {sha : Digester}

theorem plain_of_isAsciiName {c : Char} (named : isAsciiName c = true) : Json.Plain c := by
  have values : 'A'.val.toNat = 65 ∧ 'Z'.val.toNat = 90 ∧ 'a'.val.toNat = 97 ∧ 'z'.val.toNat = 122 ∧
      '0'.val.toNat = 48 ∧ '9'.val.toNat = 57 ∧ ' '.val.toNat = 32 ∧ '~'.val.toNat = 126 := by decide
  simp only [isAsciiName, Char.isAlphanum, Char.isAlpha, Char.isUpper, Char.isLower, Char.isDigit, Bool.or_eq_true,
    Bool.and_eq_true, decide_eq_true_eq, beq_iff_eq, ge_iff_le, UInt32.le_iff_toNat_le] at named
  rcases named with (((range | rfl) | rfl) | rfl) | rfl
  · apply Json.plain_of_range
    · rw [Char.le_def, UInt32.le_iff_toNat_le]
      omega
    · rw [Char.le_def, UInt32.le_iff_toNat_le]
      omega
    · rintro rfl
      have quoted : Json.quote.val.toNat = 34 := by decide
      omega
    · rintro rfl
      have slashed : Json.backslash.val.toNat = 92 := by decide
      omega
  all_goals decide

theorem ValidName.escaped_le {name : String} (valid : ValidName name) : Json.escaped name ≤ 255 := by
  rw [Json.escaped_of_plain fun c member => plain_of_isAsciiName (valid.2.1 c member)]
  exact valid.2.2.2.2.2.2.2.1

theorem ValidName.canonical {name : String} (valid : ValidName name) : Canonical name :=
  canonical_of_name valid.plain valid.1 valid.2.2.1

/-- What an accepted layout has checked of its root, its names and its own files. -/
theorem admitLayout_bounds {files : List (String × Scalar)} {outputRoot parentPath : String} {control receipt : Nat}
    (admitted : admitLayout files outputRoot parentPath control receipt = .ok ()) :
    ValidName outputRoot ∧ control < 2 ^ 32 ∧ receipt < 2 ^ 32 ∧
      ∀ file ∈ files, ∀ name ∈ parts file.1, ValidName name := by
  simp only [admitLayout, bind_eq_ok, require_eq_ok, checkName_eq_ok, checkSize_eq_ok, checkFiles_eq_ok, pure_eq_ok,
    exists_const, mapError_eq_ok] at admitted
  obtain ⟨root, _, _, ⟨_, controlled, _, control'⟩, ⟨_, received, _, receipt'⟩, _, ⟨names, _⟩, _⟩ := admitted
  cases controlled
  cases received
  exact ⟨root, by omega, by omega, names⟩

/-- Of the two sizes a layout only asks that they fit 32 bits. -/
theorem admitLayout_resized {files : List (String × Scalar)} {outputRoot parentPath : String}
    {control receipt receipt' : Nat} (admitted : admitLayout files outputRoot parentPath control receipt = .ok ())
    (fits : receipt' < 2 ^ 32) : admitLayout files outputRoot parentPath control receipt' = .ok () := by
  simp only [admitLayout, bind_eq_ok] at admitted ⊢
  obtain ⟨_, root, _, parent, _, controlled, _, _, rest⟩ := admitted
  exact ⟨_, root, _, parent, _, controlled, (), checkSize_eq_ok.mpr ⟨_, rfl, by omega, by exact_mod_cast fits⟩, rest⟩

/-- Every artifact of an accepted layout has canonical paths. -/
theorem named_of_layout {artifacts : List Artifact} {files : List (String × Scalar)}
    (listed : artifacts.mapM layoutFile = .ok files) (valid : ∀ file ∈ files, ∀ name ∈ parts file.1, ValidName name) :
    ∀ artifact ∈ artifacts, ∃ repoId rfilename, artifact.repoId = .str repoId ∧
      artifact.rfilename = .str rfilename ∧ Canonical repoId ∧ Canonical rfilename := by
  intro artifact member
  obtain ⟨file, among, laid⟩ := exists_of_mapM listed member
  simp only [layoutFile, bind_eq_ok, pure_eq_ok] at laid
  obtain ⟨repoId, repo, rfilename, name, rfl⟩ := laid
  have texts : ∀ {value : Scalar} {text : String}, value.str?.elim (.error .raised) .ok = (.ok text : Except Failure String) →
      value = .str text := by
    intro value text found
    cases value <;> cases found
    rfl
  have all := valid _ among
  rw [Conversion.parts_append] at all
  refine ⟨repoId, rfilename, texts repo, texts name, ?_, ?_⟩
  · intro part listed
    have own := all part (List.mem_append_left _ listed)
    exact ⟨own.1, own.2.2.1⟩
  · intro part listed
    have own := all part (List.mem_append_right _ listed)
    exact ⟨own.1, own.2.2.1⟩

end Layouts

section Bounds

variable {u : Unicode} {sha : Digester}

theorem FolderKind.draftRecord_size {τ : Type} (kind : FolderKind τ) (draft : FolderDraft τ) (store : String) :
    (kind.draftRecord draft store).size = 96 + draft.proposal.record.size +
      (kind.bindingRecord draft.destination).size + Json.escaped draft.catalog + Json.escaped draft.parentPath +
      (Json.arr (draft.backingIds.map .str)).size + draft.capacity.record.size + Json.escaped store := by
  have keys : Json.escaped "proposal" = 8 ∧ Json.escaped "destination" = 11 ∧ Json.escaped "catalog" = 7 ∧
      Json.escaped "parent_path" = 11 ∧ Json.escaped "backing_ids" = 11 ∧ Json.escaped "capacity" = 8 ∧
      Json.escaped "store" = 5 := by
    and_intros <;> exact Json.escaped_literal rfl
  simp only [draftRecord, Json.size_dict, ne_eq, List.cons_ne_nil, not_false_eq_true, Json.sumFields_cons,
    Json.sumFields_nil, Json.size_str, keys]
  omega

theorem controlRecord_eq {tx planSeal : String} (transaction : isHexText 32 tx = true)
    (digest : isHexText 64 planSeal = true) (store : String) (destination : Json) :
    (controlRecord tx planSeal store destination).size = 150 + Json.escaped store + destination.size := by
  have keys : Json.escaped "transaction" = 11 ∧ Json.escaped "seal" = 4 ∧ Json.escaped "store" = 5 ∧
      Json.escaped "destination" = 11 := by
    and_intros <;> exact Json.escaped_literal rfl
  simp only [controlRecord, Json.size_dict, ne_eq, List.cons_ne_nil, not_false_eq_true, Json.sumFields_cons,
    Json.sumFields_nil, Json.size_str, keys, escaped_hex transaction, escaped_hex digest]
  omega

/-- The receipt of a folder plan, of which only the files and the plan are long. -/
theorem FolderKind.receiptOf_size {τ : Type} (kind : FolderKind τ)
    (digests : ∀ text, isHexText 64 (sha.hash text) = true) (plan : FolderPlan τ) (files : List Json) :
    (kind.receiptOf sha plan emptyTransaction files).size = 356 + Json.escaped (kind.versionOf plan.decodePolicy) +
      Json.escaped (kind.profile plan.destination.target).value + Json.escaped kind.layout +
      Json.sumFields kind.receiptFields + (Json.int files.length).size +
      (kind.bindingRecord plan.destination).size + (Json.arr files).size + (kind.record plan).size := by
  have empty : isHexText 32 emptyTransaction = true := by decide
  have keys : Json.escaped "version" = 7 ∧ Json.escaped "transaction" = 11 ∧ Json.escaped "seal" = 4 ∧
      Json.escaped "destination" = 11 ∧ Json.escaped "files" = 5 ∧ Json.escaped "plan" = 4 ∧
      Json.escaped "topology" = 8 ∧ Json.escaped "profile" = 7 ∧ Json.escaped "capacity_evidence" = 17 ∧
      Json.escaped "verification" = 12 ∧ Json.escaped "folder" = 6 ∧
      Json.escaped "advisory-shared-space-not-reserved" = 34 ∧ Json.escaped "content" = 7 ∧
      Json.escaped "layout" = 6 ∧ Json.escaped "result" = 6 ∧ Json.escaped "file_count" = 10 ∧
      Json.escaped "sha256-original-bytes" = 21 ∧ Json.escaped "verified" = 8 := by
    and_intros <;> exact Json.escaped_literal rfl
  simp only [receiptOf, sealHash, verification, List.cons_append, List.nil_append, Json.size_dict, ne_eq,
    List.cons_ne_nil, not_false_eq_true, Json.sumFields_cons, Json.sumFields_nil, Json.size_str,
    escaped_hex (digests _), escaped_hex empty, keys]
  omega

theorem versionOf_size (policy : Option DecodePolicy) : Json.escaped ((fat32Kind u sha).versionOf policy) = 35 := by
  have texts : Json.escaped "modelark.slice.fat32-transaction.v1" = 35 ∧
      Json.escaped "modelark.slice.fat32-transaction.v2" = 35 := by
    and_intros <;> exact Json.escaped_literal rfl
  cases policy with
  | none => exact texts.1
  | some policy => exact texts.2

theorem receiptFields_size : Json.sumFields (fat32Kind u sha).receiptFields = 141 := by
  have texts : Json.escaped "status" = 6 ∧ Json.escaped "export-verified" = 15 ∧
      Json.escaped "resume_policy" = 13 ∧ Json.escaped "new-root" = 8 ∧
      Json.escaped "host_transaction_completion" = 27 ∧ Json.escaped "not-claimed" = 11 ∧
      Json.escaped "receipt_persistence" = 19 ∧ Json.escaped "not-self-certified" = 18 := by
    and_intros <;> exact Json.escaped_literal rfl
  simp only [fat32Kind, Json.sumFields_cons, Json.sumFields_nil, Json.size_str, texts]

/-- What is not long in a FAT32 receipt has one size. -/
theorem fat32_receipt_size (digests : ∀ text, isHexText 64 (sha.hash text) = true) {plan : Fat32Plan}
    (profiled : plan.destination.target.profile = .fat32Session) (files : List Json) :
    ((fat32Kind u sha).receiptOf sha plan emptyTransaction files).size = 581 + (Json.int files.length).size +
      ((fat32Kind u sha).bindingRecord plan.destination).size + (Json.arr files).size +
      ((fat32Kind u sha).record plan).size := by
  have version : Json.escaped ((fat32Kind u sha).versionOf plan.decodePolicy) = 35 := versionOf_size plan.decodePolicy
  have kept : (fat32Kind u sha).profile plan.destination.target = .fat32Session := profiled
  have layout : Json.escaped (fat32Kind u sha).layout = 26 := Json.escaped_literal rfl
  have profile : Json.escaped FolderProfile.fat32Session.value = 23 := Json.escaped_literal rfl
  rw [FolderKind.receiptOf_size _ digests, version, kept, layout, profile, receiptFields_size]

/-- The record of a proposal that was verified. -/
theorem SlicePreview.size_eq (digests : ∀ text, isHexText 64 (sha.hash text) = true) {proposal : SlicePreview}
    (verified : verify sha proposal = .ok ()) : proposal.record.size =
      243 + Json.escaped proposal.spec.destinationId + Json.escaped proposal.spec.destinationRoot +
        Json.escaped proposal.snapshotId + (Json.arr (proposal.spec.repoIds.map .str)).size +
        (Json.arr (proposal.closure.map Artifact.record)).size + (Json.arr (proposal.gaps.map Record.json)).size := by
  have keys : Json.escaped "spec" = 4 ∧ Json.escaped "snapshot_id" = 11 ∧ Json.escaped "closure" = 7 ∧
      Json.escaped "gaps" = 4 ∧ Json.escaped "seal" = 4 ∧ Json.escaped "version" = 7 ∧
      Json.escaped "repo_ids" = 8 ∧ Json.escaped "destination_id" = 14 ∧ Json.escaped "destination_root" = 16 ∧
      Json.escaped "consumer_profile" = 16 ∧ Json.escaped profile = 10 ∧ Json.escaped domainVersion = 24 := by
    and_intros <;> exact Json.escaped_literal rfl
  simp only [verify, require_eq_ok, Bool.and_eq_true, beq_iff_eq] at verified
  have sealed' : Json.escaped proposal.sealHash = 64 := by
    rw [verified.2]
    exact escaped_hex (digests _)
  simp only [record, SliceSpec.json, verified.1, sealed', Json.size_dict, ne_eq, List.cons_ne_nil, not_false_eq_true,
    Json.sumFields_cons, Json.sumFields_nil, Json.size_str, keys]
  omega

/-- A proposal is longer than the records of its artifacts. -/
theorem SlicePreview.size_ge (digests : ∀ text, isHexText 64 (sha.hash text) = true) {proposal : SlicePreview}
    (verified : verify sha proposal = .ok ()) :
    246 + Json.sumItems (proposal.closure.map Artifact.record) ≤ proposal.record.size := by
  have repos := (Json.size_arr_bounds (proposal.spec.repoIds.map .str)).1
  have closure := (Json.size_arr_bounds (proposal.closure.map Artifact.record)).1
  have gaps := (Json.size_arr_bounds (proposal.gaps.map Record.json)).1
  rw [size_eq digests verified]
  omega

/-- Python writes no number of more digits. -/
def DecodePolicy.Printable (policy : DecodePolicy) : Prop :=
  ∀ bytes ∈ [policy.storedFrameBytes, policy.decodedFrameBytes, policy.readBytes, policy.zstdWindowBytes,
    policy.addressSpaceBytes, policy.reserveBytes], (Json.int bytes).size ≤ 4300

theorem DecodePolicy.size_le {policy : DecodePolicy} (printable : policy.Printable) :
    policy.record.size ≤ 26047 := by
  have keys : Json.escaped "version" = 7 ∧ Json.escaped "limits" = 6 ∧ Json.escaped "memory" = 6 ∧
      Json.escaped "zstd_window_unit" = 16 ∧ Json.escaped "stored_frame_bytes" = 18 ∧
      Json.escaped "decoded_frame_bytes" = 19 ∧ Json.escaped "read_bytes" = 10 ∧
      Json.escaped "zstd_window_bytes" = 17 ∧ Json.escaped "address_space_bytes" = 19 ∧
      Json.escaped "reserve_bytes" = 13 ∧ Json.escaped "modelark.original-decode.v1" = 27 ∧
      Json.escaped "modelark.codec-memory.v1" = 24 ∧ Json.escaped "bytes" = 5 := by
    and_intros <;> exact Json.escaped_literal rfl
  simp only [Printable, List.forall_mem_cons] at printable
  obtain ⟨stored, decoded, read, window, space, reserve, _⟩ := printable
  simp only [record, Json.size_dict, ne_eq, List.cons_ne_nil, not_false_eq_true, Json.sumFields_cons,
    Json.sumFields_nil, Json.size_str, keys]
  omega

theorem length_splitOn_le {separator : Char} (chars : List Char) :
    (chars.splitOn separator).length ≤ chars.length + 1 := by
  induction chars with
  | nil => simp
  | cons c chars ih =>
      rw [List.splitOn_cons_eq_if_modifyHead, List.length_cons]
      split
      · rw [List.length_cons]
        omega
      · rw [List.length_modifyHead]
        omega

theorem length_parents_le (path : String) : (parents path).length ≤ Json.escaped path := by
  have split : (path.toList.splitOn '/').length ≤ path.toList.length + 1 := length_splitOn_le path.toList
  have shorter := Json.length_le_escaped path
  rw [String.length_toList] at split
  simp only [parents, parts, List.length_map, List.length_range]
  omega

/-- The entries of a receipt take little more than the artifacts, which take more than there are directories. -/
theorem outputs_le {root : String} {artifacts : List Artifact} {paths : List String} {files : List Json}
    (short : Json.escaped root ≤ 255) (canonical : Canonical root)
    (named : ∀ artifact ∈ artifacts, ∃ repoId rfilename, artifact.repoId = .str repoId ∧
      artifact.rfilename = .str rfilename ∧ Canonical repoId ∧ Canonical rfilename)
    (located : artifacts.mapM (artifactPath root) = .ok paths) (listed : artifacts.mapM (receiptFile root) = .ok files) :
    Json.sumItems files ≤ Json.sumItems (artifacts.map Artifact.record) + 255 * artifacts.length ∧
      (paths.flatMap parents).length + 383 * artifacts.length ≤ Json.sumItems (artifacts.map Artifact.record) := by
  induction artifacts generalizing paths files with
  | nil =>
      rw [List.mapM_nil, pure_eq_ok] at located listed
      subst located listed
      exact ⟨Nat.le_refl _, Nat.le_refl _⟩
  | cons artifact artifacts ih =>
      simp only [List.mapM_cons, bind_eq_ok, pure_eq_ok] at located listed
      obtain ⟨path, first, paths, rest, rfl⟩ := located
      obtain ⟨entry, one, entries, others, rfl⟩ := listed
      rw [List.forall_mem_cons] at named
      obtain ⟨repoId, rfilename, repo, name, canonical', canonical''⟩ := named.1
      have later := ih named.2 rest others
      have own := receiptFile_le short canonical repo name canonical' canonical'' one
      have above : (parents path).length ≤ 257 + Json.escaped repoId + Json.escaped rfilename := by
        have slash : Json.escaped "/" = 1 := Json.escaped_literal rfl
        simp only [artifactPath, repo, name, Scalar.str?, Option.elim_some, ok_bind, pure_eq_ok] at first
        have shorter := length_parents_le path
        rw [← first, purePath_three canonical canonical' canonical''] at shorter ⊢
        simp only [Json.escaped_append, slash] at shorter
        omega
      simp only [List.map_cons, List.flatMap_cons, List.length_append, List.length_cons, Json.sumItems_cons]
      omega

theorem CapacityObservation.size_ge (capacity : CapacityObservation) : 56 ≤ capacity.record.size := by
  have keys : Json.escaped "available_bytes" = 15 ∧ Json.escaped "free_inodes" = 11 ∧
      Json.escaped "headroom_bytes" = 14 := by
    and_intros <;> exact Json.escaped_literal rfl
  have available := Json.one_le_size (.int capacity.availableBytes)
  have inodes := Json.one_le_size (.ofInt (capacity.freeInodes.map Int.ofNat))
  have headroom := Json.one_le_size (.int capacity.headroomBytes)
  simp only [record, Json.size_dict, ne_eq, List.cons_ne_nil, not_false_eq_true, Json.sumFields_cons,
    Json.sumFields_nil, keys]
  omega

theorem profile_of_bound {target : Fat32Intent} {catalog parentPath : String} {backingIds : List String}
    {policy : Option DecodePolicy} {expected : FolderBinding Fat32Intent}
    (bound : (fat32Kind u sha).bindingFor u sha target catalog parentPath backingIds policy = .ok expected) :
    target.profile = .fat32Session := by
  simp only [FolderKind.bindingFor, FolderKind.checkBinding, bind_eq_ok, require_eq_ok, Bool.and_eq_true,
    beq_iff_eq] at bound
  obtain ⟨_, _, _, _, _, _, _, ⟨⟨profiled, _⟩, _⟩, _⟩ := bound
  exact profiled

/-- What is known three times covers all that is written, or the receipt has room for another digit, or the
reserve has ten digits before and after. -/
theorem fat32_metadata_le (digests : ∀ text, isHexText 64 (sha.hash text) = true) {draft : FolderDraft Fat32Intent}
    {store : String} {first allowance : Nat} {directories : List String} {sizes : Nat × Nat} {required : Int}
    (printable : ∀ policy ∈ draft.decodePolicy, policy.Printable)
    (outputs : outputDirectories draft.proposal = .ok directories)
    (allowed : allowance = 256 * 1024 + (draft.proposal.closure.length + directories.length + 2) * (128 * 1024))
    (known : first = allowance + 3 * ((fat32Kind u sha).draftRecord draft store).dumps.length)
    (checked : (fat32Kind u sha).check u sha (draft.plan first) = .ok ())
    (sized : (fat32Kind u sha).metadataSizes sha (draft.plan first) store = .ok sizes)
    (rechecked : (fat32Kind u sha).requiredBytesFor sha (draft.plan first) store = .ok required) :
    sizes.1 + sizes.2 ≤ 3 * ((fat32Kind u sha).draftRecord draft store).dumps.length ∨ sizes.2 + 1 < 2 ^ 32 ∨
      10 ^ 9 ≤ first ∧ sizes.1 + sizes.2 + allowance < 10 ^ 10 := by
  have facts := checked
  simp only [FolderKind.check, FolderDraft.plan, bind_eq_ok, pure_eq_ok, mapError_eq_ok, require_eq_ok,
    Bool.and_eq_true, beq_iff_eq] at facts
  obtain ⟨_, verified, _, _, _, _, _, bound, _, _, _, ⟨_, rooted⟩, _⟩ := facts
  simp only [FolderKind.requiredBytesFor, sized, ok_bind, FolderKind.charge, bind_eq_ok] at rechecked
  obtain ⟨_, laid, _⟩ := rechecked
  simp only [FolderDraft.plan, fat32Kind, bind_eq_ok] at laid
  obtain ⟨layouts, named, admitted⟩ := laid
  obtain ⟨root, control, receipt, names⟩ := admitLayout_bounds admitted
  have profiled : (draft.plan first).destination.target.profile = .fat32Session := profile_of_bound bound
  simp only [FolderKind.metadataSizes, bind_eq_ok, pure_eq_ok] at sized
  obtain ⟨files, listed, rfl⟩ := sized
  simp only [outputDirectories, bind_eq_ok, pure_eq_ok] at outputs
  obtain ⟨paths, located, rfl⟩ := outputs
  have rootName : draft.proposal.spec.destinationRoot = draft.destination.target.childName := rooted
  obtain ⟨entries, objects⟩ := outputs_le (rootName ▸ ValidName.escaped_le root)
    (rootName ▸ ValidName.canonical root) (named_of_layout named names) located listed
  have counted : files.length = draft.proposal.closure.length := (mapM_forall₂ listed).length_eq.symm
  have distinct := (List.dedup_sublist (paths.flatMap parents)).length_le
  have policies : (draft.decodePolicy.elim 0 fun policy => 17 + policy.record.size) ≤ 26064 := by
    cases chosen : draft.decodePolicy with
    | none => simp
    | some policy =>
        have size := DecodePolicy.size_le (printable policy (by simp [chosen]))
        rw [Option.elim_some]
        omega
  have version : Json.escaped ((fat32Kind u sha).versionOf draft.decodePolicy) = 35 := versionOf_size ..
  have controlSize := controlRecord_eq (by decide : isHexText 32 emptyTransaction = true)
    (digests ((fat32Kind u sha).toJson (draft.plan first))) store
    ((fat32Kind u sha).bindingRecord draft.destination)
  have receiptSize : ((fat32Kind u sha).receiptOf sha (draft.plan first) emptyTransaction files).size = _ :=
    fat32_receipt_size digests profiled files
  have planSize := (fat32Kind u sha).record_size (draft.plan first)
  have draftSize := (fat32Kind u sha).draftRecord_size draft store
  simp only [FolderDraft.plan, version] at planSize receiptSize control receipt
  simp only [FolderKind.sealHash, FolderDraft.plan, Json.length_dumps] at known control receipt controlSize ⊢
  have capacity := draft.capacity.size_ge
  have proposal := SlicePreview.size_ge digests verified
  have backing := Json.one_le_size (.arr (draft.backingIds.map .str))
  have all := Json.size_arr_bounds files
  rw [receiptSize, planSize] at receipt
  rw [controlSize] at control
  have few : draft.proposal.closure.length + (paths.flatMap parents).dedup.length < 2 ^ 32 := by omega
  have drafted : ((fat32Kind u sha).draftRecord draft store).size < 2 ^ 33 := by omega
  have digits : (Json.int first).size ≤ 16 := Json.size_int_le (by decide) (by rw [known, allowed]; omega)
  have length : (Json.int files.length).size ≤ 10 := Json.size_int_le (by decide) (by omega)
  rw [receiptSize, planSize, controlSize, draftSize]
  rw [draftSize] at known
  clear drafted
  omega

end Bounds

/-- The estimate of a FAT32 folder is a reserve that its plan accepts. -/
theorem fat32_accepted {u : Unicode} {sha : Digester} {draft : FolderDraft Fat32Intent} {store : String}
    {reserve : Nat} (digests : ∀ text, isHexText 64 (sha.hash text) = true)
    (printable : ∀ policy ∈ draft.decodePolicy, policy.Printable)
    (estimated : fat32Estimate u sha draft store = .ok reserve) :
    (fat32Kind u sha).check u sha (draft.plan reserve) = .ok () := by
  simp only [fat32Estimate, FolderKind.estimateMetadata, bind_eq_ok, pure_eq_ok] at estimated
  obtain ⟨directories, outputs, _, checked, sizes, sized, _, recharged, final⟩ := estimated
  obtain ⟨required, charged, _⟩ := map_eq_ok.mp recharged
  obtain ⟨first, known⟩ : ∃ first, first = 256 * 1024 +
      (draft.proposal.closure.length + directories.length + 2) * (128 * 1024) +
        3 * ((fat32Kind u sha).draftRecord draft store).dumps.length := ⟨_, rfl⟩
  rw [← known] at checked sized charged final
  have room := fat32_metadata_le digests printable outputs rfl known checked sized charged
  refine FolderKind.accepted_of_first digests (fun bounds resized => ?_) (by omega) checked sized known final.symm
  obtain ⟨before, _, counted, laid, _⟩ := FolderKind.charged_of_check checked
  obtain ⟨_, receipt⟩ := FolderKind.sizes_of_plans digests counted sized
  obtain ⟨control, digits⟩ := FolderKind.sizes_of_plans digests counted resized
  simp only [fat32Kind, FolderDraft.plan, bind_eq_ok] at laid ⊢
  obtain ⟨files, named, admitted⟩ := laid
  have fits : before.2 < 2 ^ 32 := (admitLayout_bounds admitted).2.2.1
  refine ⟨files, named, ?_⟩
  rw [Nat.add_right_cancel control]
  refine admitLayout_resized admitted ?_
  by_cases same : reserve = first
  · rw [same] at digits
    omega
  rcases room with covered | spare | ⟨large, small⟩
  · exact absurd (final.symm.trans (max_eq_left (by omega))) same
  · have longer := FolderKind.digits_le digests checked sized known final.symm
    omega
  · have ten : (Json.int reserve).size ≤ 10 := Json.size_int_le (by decide) (by omega)
    have nine : ¬(Json.int first).size ≤ 9 := by
      rw [Json.size_int, Nat.length_toDigits_le_iff (by omega) (by omega)]
      omega
    omega

section Reserved

variable (u : Unicode) (sha : Digester)

/-- No session writes a longer control file or receipt than its plan charges for, and the estimates are reserves
that their plans accept. -/
theorem reserves_suffice (digests : ∀ text, isHexText 64 (sha.hash text) = true) (store : String) :
    (∀ (plan : StoredPlan) (required : Int) (tx : String) (sources : List SourceEvidence),
      plan.requiredBytesFor u sha store = .ok required → isHexText 32 tx = true →
      Alternatives plan.proposal sources →
      ∃ files bounds total, servedFiles plan.proposal sources = .ok files ∧
        plan.metadataSizes u sha store = .ok bounds ∧ totalBytes plan.proposal = .ok total ∧
        (plan.controlText u sha tx store).length ≤ bounds.1 ∧ (plan.receiptText u sha tx files).length ≤ bounds.2 ∧
        total + bounds.1 + bounds.2 ≤ required) ∧
      (∀ (draft : FolderDraft FolderTarget) (reserve : Nat), nativeEstimate u sha draft store = .ok reserve →
        (nativeKind u sha).check u sha (draft.plan reserve) = .ok ()) ∧
      ∀ (draft : FolderDraft Fat32Intent) (reserve : Nat),
        (∀ policy ∈ draft.decodePolicy, policy.Printable) → fat32Estimate u sha draft store = .ok reserve →
        (fat32Kind u sha).check u sha (draft.plan reserve) = .ok () := by
  refine ⟨?_, fun _ _ => native_accepted digests, fun _ _ => fat32_accepted digests⟩
  intro plan required tx sources charged transaction alternatives
  obtain ⟨bounds, total, sized, summed, room⟩ := plan.charged_bounds charged
  obtain ⟨files, served, control, receipt⟩ := plan.written_within transaction sized alternatives
  exact ⟨files, bounds, total, served, sized, summed, control, receipt, room⟩

end Reserved

section Sample

/-- What is known of a plan before its reserve. -/
def FolderPlan.draft {τ : Type} (plan : FolderPlan τ) : FolderDraft τ :=
  ⟨plan.proposal, plan.destination, plan.catalog, plan.parentPath, plan.backingIds, plan.capacity, plan.decodePolicy⟩

-- One evaluation after another, so that each gives back what it takes.
theorem drafts_sized :
    ((nativeKind asciiUnicode zeroDigest).draftRecord nativePlan.draft "").size = 1548 ∧
      ((fat32Kind asciiUnicode zeroDigest).draftRecord fat32Plan.draft "").size = 1524 := by
  constructor
  · decide +kernel
  · decide +kernel

theorem nativePlan_sizes : (nativeKind asciiUnicode zeroDigest).metadataSizes zeroDigest nativePlan "" =
    .ok (391, 3059) := by
  simp only [FolderKind.metadataSizes, Json.length_dumps]
  exact plans_sized.1

theorem fat32Plan_sizes : (fat32Kind asciiUnicode zeroDigest).metadataSizes zeroDigest fat32Plan "" =
    .ok (368, 3434) := by
  simp only [FolderKind.metadataSizes, Json.length_dumps]
  exact plans_sized.2

theorem sample_reserves : ∃ plan required native fat32 files, ∃ bounds : Nat × Nat, ∃ total : Int,
    (nativeKind asciiUnicode zeroDigest).requiredBytesFor zeroDigest plan "" = .ok required ∧
      servedFiles plan.proposal [sampleSource] = .ok files ∧
      ((StoredPlan.native plan).controlText asciiUnicode zeroDigest emptyTransaction "").length ≤ bounds.1 ∧
      ((StoredPlan.native plan).receiptText asciiUnicode zeroDigest emptyTransaction files).length ≤ bounds.2 ∧
      total + bounds.1 + bounds.2 ≤ required ∧
      nativeEstimate asciiUnicode zeroDigest nativePlan.draft "" = .ok native ∧
      (nativeKind asciiUnicode zeroDigest).check asciiUnicode zeroDigest (nativePlan.draft.plan native) = .ok () ∧
      fat32Estimate asciiUnicode zeroDigest fat32Plan.draft "" = .ok fat32 ∧
      (fat32Kind asciiUnicode zeroDigest).check asciiUnicode zeroDigest (fat32Plan.draft.plan fat32) = .ok () := by
  obtain ⟨written, natives, fat32s⟩ := reserves_suffice asciiUnicode zeroDigest zeroDigest_hex ""
  have charged : (nativeKind asciiUnicode zeroDigest).requiredBytesFor zeroDigest nativePlan "" = .ok 369191 := by
    rw [FolderKind.requiredBytesFor, nativePlan_sizes]
    rfl
  have alternatives : Alternatives nativePlan.proposal [sampleSource] := .cons List.mem_cons_self .nil
  obtain ⟨files, bounds, total, served, _, _, control, receipt, room⟩ :=
    written (.native nativePlan) 369191 emptyTransaction [sampleSource] charged (by decide) alternatives
  have named : (outputDirectories nativePlan.proposal).map List.length = .ok 3 := by decide +kernel
  obtain ⟨native, estimated⟩ : ∃ reserve, nativeEstimate asciiUnicode zeroDigest nativePlan.draft "" = .ok reserve :=
    FolderKind.estimateMetadata_eq_ok named drafts_sized.1 rfl nativePlan_valid.plan nativePlan_sizes rfl
  have rechecked : ((fat32Kind asciiUnicode zeroDigest).requiredBytesFor zeroDigest fat32Plan "").map
      (fun _ => ()) = .ok () := by
    rw [FolderKind.requiredBytesFor, fat32Plan_sizes, ok_bind]
    exact eq_ok_of_isOk (by decide +kernel)
  have named' : (outputDirectories fat32Plan.proposal).map List.length = .ok 3 := by decide +kernel
  obtain ⟨fat32, estimated'⟩ : ∃ reserve, fat32Estimate asciiUnicode zeroDigest fat32Plan.draft "" = .ok reserve :=
    FolderKind.estimateMetadata_eq_ok named' drafts_sized.2 rfl fat32Plan_valid.plan fat32Plan_sizes rechecked
  have printable : ∀ policy ∈ fat32Plan.decodePolicy, policy.Printable := by
    rintro policy ⟨⟩
    unfold DecodePolicy.Printable
    decide
  exact ⟨nativePlan, 369191, native, fat32, files, bounds, total, charged, served, control, receipt, room,
    estimated, natives nativePlan.draft native estimated, estimated',
    fat32s fat32Plan.draft fat32 printable estimated'⟩

end Sample

end Modelark.Slice.Domain
