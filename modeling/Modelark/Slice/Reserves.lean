import Modelark.Library.JsonSizes
import Modelark.Slice.PlanCodec

/-!
# Reserves

What a session writes beside the artifacts: the control record and the receipt. Both are longer or shorter as the
transaction, the store and the sources that served have it; a plan reserves room for the longest.
-/

namespace Modelark.Slice.Domain

open Library Proposal Archive
open Conversion (parts)

/-- The data of `_control`. -/
def controlRecord (tx planSeal store : String) (destination : Json) : Json :=
  .dict [("transaction", .str tx), ("seal", .str planSeal), ("store", .str store), ("destination", destination)]

/-- What a receipt says of an artifact that was read from this source. -/
def receiptEntry (destinationRoot : String) (artifact : Artifact) (source : SourceEvidence) : Except Failure Json := do
  let repoId ← (artifact.repoId.str?).elim (.error .raised) .ok
  let rfilename ← (artifact.rfilename.str?).elim (.error .raised) .ok
  return .dict [("path", .str (purePath [destinationRoot, repoId, rfilename])), ("size", artifact.sizeBytes.json),
    ("sha256", .str artifact.sha256), ("source", source.record)]

/-- `files` of `_finish`, with one source for every artifact of the closure. -/
def servedFiles (proposal : SlicePreview) (sources : List SourceEvidence) : Except Failure (List Json) :=
  (proposal.closure.zip sources).mapM fun served => receiptEntry proposal.spec.destinationRoot served.1 served.2

/-- One of the sealed alternatives of every artifact. -/
def Alternatives (proposal : SlicePreview) (sources : List SourceEvidence) : Prop :=
  List.Forall₂ (fun artifact source => source ∈ artifact.sources) proposal.closure sources

section Kinds

variable (u : Unicode) (sha : Digester)

namespace TransferPlan

/-- `receipt`. -/
def receiptOf (plan : TransferPlan) (tx : String) (files : List Json) : Json :=
  .dict ([("version", .str plan.version.value), ("transaction", .str tx),
    ("seal", .str (plan.sealHash sha)), ("destination", plan.destination.record), ("files", .arr files)] ++
      if plan.version = .v1 then []
      else [("plan", plan.record), ("topology", .str "direct"), ("status", .str "complete"),
        ("verification", verification "authenticated" files.length)])

/-- The length of the control record, and of the longest receipt. -/
def metadataSizes (plan : TransferPlan) (store : String) : Except Failure (Nat × Nat) := do
  let files ← receiptFiles plan.proposal
  return ((controlRecord emptyTransaction (plan.sealHash sha) store plan.destination.record).dumps.length,
    (plan.receiptOf sha emptyTransaction files).dumps.length)

/-- What a plan charges where its metadata has these sizes. -/
def charge (plan : TransferPlan) (control receipt : Nat) : Except Failure Int := do
  let minimum := control + receipt
  let reserve := plan.metadataReserveBytes.getD minimum
  let total ← totalBytes plan.proposal
  require (decide (minimum ≤ reserve ∧ total + reserve ≤ plan.destination.availableBytes))
    (refuse "DESTINATION_CAPACITY_INSUFFICIENT" "artifact and transaction metadata charge")
  return total + reserve

/-- `required_bytes`. -/
def requiredBytesFor (plan : TransferPlan) (store : String) : Except Failure Int := do
  let sizes ← plan.metadataSizes sha store
  plan.charge sizes.1 sizes.2

theorem receipt_eq (plan : TransferPlan) (files : List Json) :
    plan.receipt sha files = plan.receiptOf sha emptyTransaction files := rfl

theorem requiredBytes_for (plan : TransferPlan) : plan.requiredBytes sha = plan.requiredBytesFor sha "" := by
  have charged : plan.requiredBytes sha = (do
      let files ← receiptFiles plan.proposal
      plan.charge (controlSize (plan.sealHash sha) plan.destination.record)
        (plan.receipt sha files).dumps.length) := rfl
  rw [charged, requiredBytesFor, metadataSizes, bind_assoc]
  simp only [pure_bind, receipt_eq]
  rfl

end TransferPlan

namespace FolderKind

variable {τ : Type} (kind : FolderKind τ)

/-- `receipt`. -/
def receiptOf (plan : FolderPlan τ) (tx : String) (files : List Json) : Json :=
  .dict ([("version", .str (kind.versionOf plan.decodePolicy)), ("transaction", .str tx),
    ("seal", .str (kind.sealHash sha plan)), ("destination", kind.bindingRecord plan.destination),
    ("files", .arr files), ("plan", kind.record plan), ("topology", .str "folder"),
    ("profile", .str (kind.profile plan.destination.target).value),
    ("capacity_evidence", .str "advisory-shared-space-not-reserved"),
    ("verification", verification kind.layout files.length)] ++ kind.receiptFields)

/-- The length of the control record, and of the longest receipt. -/
def metadataSizes (plan : FolderPlan τ) (store : String) : Except Failure (Nat × Nat) := do
  let files ← receiptFiles plan.proposal
  return ((controlRecord emptyTransaction (kind.sealHash sha plan) store
      (kind.bindingRecord plan.destination)).dumps.length,
    (kind.receiptOf sha plan emptyTransaction files).dumps.length)

/-- What a plan charges where its metadata has these sizes. -/
def charge (plan : FolderPlan τ) (control receipt : Nat) : Except Failure Int := do
  kind.checkLayout plan.proposal plan.parentPath (kind.childName plan.destination.target) control receipt
  require (decide (control + receipt ≤ plan.metadataReserveBytes))
    (refuse "DESTINATION_CAPACITY_UNPROVEN" kind.reserveDetail)
  return (← totalBytes plan.proposal) + plan.metadataReserveBytes + plan.capacity.headroomBytes

/-- `required_bytes`. -/
def requiredBytesFor (plan : FolderPlan τ) (store : String) : Except Failure Int := do
  let sizes ← kind.metadataSizes sha plan store
  kind.charge plan sizes.1 sizes.2

theorem receipt_eq (plan : FolderPlan τ) (files : List Json) :
    kind.receipt sha plan files = kind.receiptOf sha plan emptyTransaction files := rfl

theorem requiredBytes_for (plan : FolderPlan τ) : kind.requiredBytes sha plan = kind.requiredBytesFor sha plan "" := by
  have charged : kind.requiredBytes sha plan = (do
      let files ← receiptFiles plan.proposal
      kind.charge plan (controlSize (kind.sealHash sha plan) (kind.bindingRecord plan.destination))
        (kind.receipt sha plan files).dumps.length) := rfl
  rw [charged, requiredBytesFor, metadataSizes, bind_assoc]
  simp only [pure_bind, receipt_eq]
  rfl

end FolderKind

namespace StoredPlan

def proposal : StoredPlan → SlicePreview
  | .transfer plan => plan.proposal
  | .native plan => plan.proposal
  | .fat32 plan => plan.proposal

/-- `asdict(destination)`. -/
def destination : StoredPlan → Json
  | .transfer plan => plan.destination.record
  | .native plan => (nativeKind u sha).bindingRecord plan.destination
  | .fat32 plan => (fat32Kind u sha).bindingRecord plan.destination

/-- `receipt`. -/
def receiptOf (plan : StoredPlan) (tx : String) (files : List Json) : Json :=
  match plan with
  | .transfer plan => plan.receiptOf sha tx files
  | .native plan => (nativeKind u sha).receiptOf sha plan tx files
  | .fat32 plan => (fat32Kind u sha).receiptOf sha plan tx files

/-- `required_bytes`. -/
def requiredBytesFor (plan : StoredPlan) (store : String) : Except Failure Int :=
  match plan with
  | .transfer plan => plan.requiredBytesFor sha store
  | .native plan => (nativeKind u sha).requiredBytesFor sha plan store
  | .fat32 plan => (fat32Kind u sha).requiredBytesFor sha plan store

/-- The bounds that a plan reserves for the two files. -/
def metadataSizes (plan : StoredPlan) (store : String) : Except Failure (Nat × Nat) := do
  let files ← receiptFiles plan.proposal
  return ((controlRecord emptyTransaction (plan.sealHash u sha) store (plan.destination u sha)).dumps.length,
    (plan.receiptOf u sha emptyTransaction files).dumps.length)

/-- The control file of a run. -/
def controlText (plan : StoredPlan) (tx store : String) : String :=
  (controlRecord tx (plan.sealHash u sha) store (plan.destination u sha)).dumps

/-- The receipt of a run. -/
def receiptText (plan : StoredPlan) (tx : String) (files : List Json) : String :=
  (plan.receiptOf u sha tx files).dumps

end StoredPlan

end Kinds

section Longest

variable {sources : List SourceEvidence} {source : SourceEvidence}

theorem longest_foldl (sources : List SourceEvidence) (start : SourceEvidence) :
    let longest := sources.foldl (fun longest other =>
      if longest.record.dumps.length < other.record.dumps.length then other else longest) start
    start.record.size ≤ longest.record.size ∧ ∀ source ∈ sources, source.record.size ≤ longest.record.size := by
  induction sources generalizing start with
  | nil => simp
  | cons other sources ih =>
      simp only [Json.length_dumps, List.foldl_cons, List.forall_mem_cons] at ih ⊢
      split
      · next longer =>
          obtain ⟨first, rest⟩ := ih other
          exact ⟨by omega, first, rest⟩
      · next shorter =>
          obtain ⟨first, rest⟩ := ih start
          exact ⟨first, by omega, rest⟩

theorem size_le_longest (member : source ∈ sources) :
    ∃ longest, longestSource sources = some longest ∧ source.record.size ≤ longest.record.size := by
  cases sources with
  | nil => cases member
  | cons first sources =>
      obtain ⟨start, rest⟩ := longest_foldl sources first
      refine ⟨_, rfl, ?_⟩
      rcases List.mem_cons.mp member with rfl | member
      · exact start
      · exact rest source member

end Longest

section Files

variable {proposal : SlicePreview} {sources : List SourceEvidence} {root : String}

/-- Whatever source serves an artifact, its entry is no longer than the one that was counted. -/
theorem receiptEntry_le {artifact : Artifact} {source : SourceEvidence} {counted : Json}
    (member : source ∈ artifact.sources) (longest : receiptFile root artifact = .ok counted) :
    ∃ entry, receiptEntry root artifact source = .ok entry ∧ entry.size ≤ counted.size := by
  obtain ⟨chosen, found, longer⟩ := size_le_longest member
  simp only [receiptFile, found, Option.elim_some, ok_bind, bind_eq_ok, pure_eq_ok] at longest
  obtain ⟨repoId, repo, rfilename, name, rfl⟩ := longest
  refine ⟨_, by simp only [receiptEntry, repo, name, ok_bind]; rfl, ?_⟩
  simp only [Json.size_dict, ne_eq, List.cons_ne_nil, not_false_eq_true, Json.sumFields_cons, Json.sumFields_nil]
  omega

theorem servedFiles_le {artifacts : List Artifact} {counted : List Json}
    (alternatives : List.Forall₂ (fun artifact source => source ∈ artifact.sources) artifacts sources)
    (longest : artifacts.mapM (receiptFile root) = .ok counted) :
    ∃ files, (artifacts.zip sources).mapM (fun served => receiptEntry root served.1 served.2) = .ok files ∧
      List.Forall₂ (fun entry other => entry.size ≤ other.size) files counted := by
  induction alternatives generalizing counted with
  | nil =>
      rw [List.mapM_nil, pure_eq_ok] at longest
      exact ⟨[], rfl, longest ▸ .nil⟩
  | cons member _ ih =>
      simp only [List.mapM_cons, bind_eq_ok, pure_eq_ok] at longest
      obtain ⟨first, one, rest, others, rfl⟩ := longest
      obtain ⟨entry, read, shorter⟩ := receiptEntry_le member one
      obtain ⟨files, served, all⟩ := ih others
      refine ⟨entry :: files, ?_, .cons shorter all⟩
      simp only [List.zip_cons_cons, List.mapM_cons, read, served, ok_bind]
      rfl

end Files

section Texts

theorem plain_of_isHex {c : Char} (hex : isHex c = true) : Json.Plain c := by
  simp only [isHex, Bool.or_eq_true, Bool.and_eq_true, decide_eq_true_eq, Char.le_def, UInt32.le_iff_toNat_le] at hex
  have values : '0'.val.toNat = 48 ∧ '9'.val.toNat = 57 ∧ 'a'.val.toNat = 97 ∧ 'f'.val.toNat = 102 ∧
      ' '.val.toNat = 32 ∧ '~'.val.toNat = 126 := by decide
  apply Json.plain_of_range
  · rw [Char.le_def, UInt32.le_iff_toNat_le]
    omega
  · rw [Char.le_def, UInt32.le_iff_toNat_le]
    omega
  · rintro rfl
    have quoted : Json.quote.val.toNat = 34 := by decide
    omega
  · rintro rfl
    have slashed : Json.backslash.val.toNat = 92 := by decide
    omega

theorem escaped_hex {length : Nat} {text : String} (hex : isHexText length text = true) :
    Json.escaped text = length := by
  simp only [isHexText, Bool.and_eq_true, beq_iff_eq, List.all_eq_true] at hex
  rw [Json.escaped_of_plain fun c member => plain_of_isHex (hex.2 c member), hex.1]

end Texts

section Kinds

variable {u : Unicode} {sha : Digester} {tx store : String} {files counted : List Json}

theorem controlRecord_size (transaction : isHexText 32 tx = true) (planSeal : String) (destination : Json) :
    (controlRecord tx planSeal store destination).size =
      (controlRecord emptyTransaction planSeal store destination).size := by
  have empty : isHexText 32 emptyTransaction = true := by decide
  simp only [controlRecord, Json.size_dict, ne_eq, List.cons_ne_nil, not_false_eq_true, Json.sumFields_cons,
    Json.sumFields_nil, Json.size_str, escaped_hex transaction, escaped_hex empty]

theorem TransferPlan.receiptOf_le (plan : TransferPlan) (transaction : isHexText 32 tx = true)
    (shorter : List.Forall₂ (fun entry other => entry.size ≤ other.size) files counted) :
    (plan.receiptOf sha tx files).size ≤ (plan.receiptOf sha emptyTransaction counted).size := by
  have empty : isHexText 32 emptyTransaction = true := by decide
  have list := Json.size_arr_le_of_forall₂ shorter
  simp only [receiptOf, shorter.length_eq, List.cons_append, Json.size_dict, ne_eq, List.cons_ne_nil,
    not_false_eq_true, Json.sumFields_cons, Json.size_str, escaped_hex transaction, escaped_hex empty]
  omega

theorem FolderKind.receiptOf_le {τ : Type} (kind : FolderKind τ) (plan : FolderPlan τ)
    (transaction : isHexText 32 tx = true)
    (shorter : List.Forall₂ (fun entry other => entry.size ≤ other.size) files counted) :
    (kind.receiptOf sha plan tx files).size ≤ (kind.receiptOf sha plan emptyTransaction counted).size := by
  have empty : isHexText 32 emptyTransaction = true := by decide
  have list := Json.size_arr_le_of_forall₂ shorter
  simp only [receiptOf, shorter.length_eq, List.cons_append, Json.size_dict, ne_eq, List.cons_ne_nil,
    not_false_eq_true, Json.sumFields_cons, Json.size_str, escaped_hex transaction, escaped_hex empty]
  omega

namespace StoredPlan

theorem receiptOf_le (plan : StoredPlan) (transaction : isHexText 32 tx = true)
    (shorter : List.Forall₂ (fun entry other => entry.size ≤ other.size) files counted) :
    (plan.receiptOf u sha tx files).size ≤ (plan.receiptOf u sha emptyTransaction counted).size := by
  cases plan with
  | transfer plan => exact plan.receiptOf_le transaction shorter
  | native plan => exact (nativeKind u sha).receiptOf_le plan transaction shorter
  | fat32 plan => exact (fat32Kind u sha).receiptOf_le plan transaction shorter

/-- What a plan requires has room for both bounds beside the artifacts. -/
theorem charged_bounds (plan : StoredPlan) {required : Int} (charged : plan.requiredBytesFor u sha store = .ok required) :
    ∃ bounds total, plan.metadataSizes u sha store = .ok bounds ∧ totalBytes plan.proposal = .ok total ∧
      total + bounds.1 + bounds.2 ≤ required := by
  have folder {τ : Type} {kind : FolderKind τ} {folder : FolderPlan τ}
      (charged : kind.requiredBytesFor sha folder store = .ok required) :
      ∃ bounds total, kind.metadataSizes sha folder store = .ok bounds ∧ totalBytes folder.proposal = .ok total ∧
        total + bounds.1 + bounds.2 ≤ required := by
    simp only [FolderKind.requiredBytesFor, FolderKind.charge, bind_eq_ok, require_eq_ok, pure_eq_ok,
      decide_eq_true_eq] at charged
    obtain ⟨bounds, sized, _, _, _, room, total, summed, rfl⟩ := charged
    exact ⟨bounds, total, sized, summed, by omega⟩
  cases plan with
  | transfer plan =>
      simp only [requiredBytesFor, TransferPlan.requiredBytesFor, TransferPlan.charge, bind_eq_ok, require_eq_ok,
        pure_eq_ok, decide_eq_true_eq] at charged
      obtain ⟨bounds, sized, total, summed, _, room, rfl⟩ := charged
      exact ⟨bounds, total, sized, summed, by omega⟩
  | native plan => exact folder charged
  | fat32 plan => exact folder charged

/-- No session writes more than its plan has reserved, whatever sources serve. -/
theorem written_within (plan : StoredPlan) {sources : List SourceEvidence} {bounds : Nat × Nat}
    (transaction : isHexText 32 tx = true) (sized : plan.metadataSizes u sha store = .ok bounds)
    (alternatives : Alternatives plan.proposal sources) :
    ∃ files, servedFiles plan.proposal sources = .ok files ∧
      (plan.controlText u sha tx store).length ≤ bounds.1 ∧ (plan.receiptText u sha tx files).length ≤ bounds.2 := by
  simp only [metadataSizes, bind_eq_ok, pure_eq_ok] at sized
  obtain ⟨counted, listed, rfl⟩ := sized
  obtain ⟨files, served, shorter⟩ := servedFiles_le alternatives listed
  simp only [controlText, receiptText, Json.length_dumps]
  exact ⟨files, served, (controlRecord_size transaction ..).le, plan.receiptOf_le transaction shorter⟩

end StoredPlan

end Kinds

end Modelark.Slice.Domain
