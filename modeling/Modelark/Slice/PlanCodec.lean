import Modelark.Slice.Seals
import Modelark.Slice.StoredPlans

/-!
# The codec of stored plans

What a plan writes is read back as this plan, whatever its kind; and a record with a field too many, too few or
twice is no plan for a folder.
-/

namespace Modelark.Slice.Domain

open Library Proposal Archive

section Values

@[simp] theorem textOr_str (refused : Failure) (text : String) : textOr refused (.str text) = .ok text := rfl

@[simp] theorem countOr_int (refused : Failure) (value : Nat) : countOr refused (.int value) = .ok value := by
  simp [countOr]

@[simp] theorem scalarOf_json (value : Scalar) : scalarOf value.json = .ok value := by
  simp [scalarOf]

@[simp] theorem itemsOf_arr (items : List Json) : itemsOf (.arr items) = .ok items := rfl

/-- A list is read back when its items are. -/
theorem mapM_written {α : Type} {write : α → Json} {read : Json → Except Failure α} {items : List α}
    (each : ∀ item ∈ items, read (write item) = .ok item) : (items.map write).mapM read = .ok items := by
  induction items with
  | nil => rfl
  | cons item items ih =>
      rw [List.map_cons, List.mapM_cons, each item List.mem_cons_self,
        ih fun other later => each other (List.mem_cons_of_mem _ later)]
      rfl

@[simp] theorem textsOr_arr (refused : Failure) (texts : List String) :
    textsOr refused (.arr (texts.map .str)) = .ok texts :=
  mapM_written fun _ _ => rfl

@[simp] theorem readFact_json {α : Type} [Record α] [ReadableRecord α] (defaults : List (String × Scalar))
    (record : α) : readFact defaults (Record.json record) = .ok record := by
  simp [readFact, Record.ofJson?_json]

/-- The value of a key among the fields that are written. -/
theorem field_dict {fields : List (String × Json)} (keys : (fields.map Prod.fst).Nodup) (name : String) :
    field name (.dict fields) =
      ((fields.find? fun field => field.1 == name).map Prod.snd).elim (.error .raised) .ok := by
  rw [field, Json.get?_dict_eq keys]

end Values

section Proposals

variable {u : Unicode}

theorem readSource_record (source : SourceEvidence) : readSource source.record = .ok source := by
  simp [readSource, SourceEvidence.record, field_dict]

theorem readArtifact_record (artifact : Artifact) : readArtifact artifact.record = .ok artifact := by
  have sources : (artifact.sources.map SourceEvidence.record).mapM readSource = .ok artifact.sources :=
    mapM_written fun source _ => readSource_record source
  have keys : artifact.record.hasKeys Artifact.names = true := Json.hasKeys_dict rfl
  simp only [readArtifact, keys]
  simp [Artifact.record, field_dict, sources, require]

theorem sortedSet_of_lt {values : List String} (sorted : values.Pairwise (· < ·)) :
    sortedSet values = values := by
  have distinct : values.Nodup := sorted.imp fun less => ne_of_lt less
  rw [sortedSet, distinct.dedup]
  exact sortBy_of_pairwise (sorted.imp fun less => le_of_lt less)

/-- A specification is made again from its own values. -/
theorem sliceSpec_self {spec : SliceSpec} (named : u.strip spec.destinationId ≠ "") :
    sliceSpec u spec.repoIds spec.destinationId spec.destinationRoot profile = .ok spec := by
  have valid : spec.repoIds ≠ [] ∧
      (∀ repo ∈ spec.repoIds, isPath (.str repo) = true ∧ (Conversion.parts repo).length = 2) ∧
      u.strip spec.destinationId ≠ "" ∧ isPath (.str spec.destinationRoot) = true :=
    ⟨spec.nonempty, spec.repos, named, spec.root⟩
  have same := sortedSet_of_lt spec.sorted
  unfold sliceSpec
  rw [dif_pos valid, if_pos rfl]
  cases spec
  congr

theorem readSpec_json {spec : SliceSpec} (named : u.strip spec.destinationId ≠ "") :
    readSpec u spec.json = .ok spec := by
  obtain ⟨written, same⟩ : ∃ written, spec.json = .obj written := ⟨_, rfl⟩
  have known : (written.all fun field => SliceSpec.names.contains field.1) = true := by
    have keys : spec.json.hasKeys SliceSpec.names = true := Json.hasKeys_dict rfl
    rw [same] at keys
    exact ((Bool.and_eq_true _ _).mp keys).1
  have repoIds : field "repo_ids" spec.json = .ok (.arr (spec.repoIds.map .str)) := by
    simp [SliceSpec.json, field_dict]
  have destinationId : field "destination_id" spec.json = .ok (.str spec.destinationId) := by
    simp [SliceSpec.json, field_dict]
  have destinationRoot : field "destination_root" spec.json = .ok (.str spec.destinationRoot) := by
    simp [SliceSpec.json, field_dict]
  have consumerProfile : spec.json.get? "consumer_profile" = some (.str profile) := by
    simp [SliceSpec.json, Json.get?_dict_eq]
  rw [same] at repoIds destinationId destinationRoot consumerProfile ⊢
  simp only [readSpec, require, known, if_true, ok_bind, repoIds, destinationId, destinationRoot, textsOr_arr,
    textOr_str, consumerProfile, Option.getD_some, sliceSpec_self named, Except.mapError]

/-- A proposal is read back from its record. -/
theorem decodeProposal_record {proposal : SlicePreview} (named : u.strip proposal.spec.destinationId ≠ "") :
    decodeProposal u proposal.record = .ok proposal := by
  have closure : (proposal.closure.map Artifact.record).mapM readArtifact = .ok proposal.closure :=
    mapM_written fun artifact _ => readArtifact_record artifact
  have gaps : (proposal.gaps.map Record.json).mapM
      (readFact [("drive_label", .null), ("detail", .str "")]) = .ok proposal.gaps :=
    mapM_written fun gap _ => readFact_json _ gap
  simp [decodeProposal, SlicePreview.record, field_dict, closure, gaps, readSpec_json named]

theorem requireFields_record {names : List String} {record : Json} (keys : record.hasKeys names = true) :
    requireFields names record = .ok () := by
  simp [requireFields, require, keys]

theorem checkEach_arr {α : Type} {write : α → Json} {check : Json → Except Failure Unit} {items : List α}
    (each : ∀ item ∈ items, check (write item) = .ok ()) :
    checkEach check (.arr (items.map write)) = .ok () := by
  apply thread_checks
  intro item listed
  obtain ⟨source, member, rfl⟩ := List.mem_map.mp listed
  exact each source member

theorem checkSource_record (source : SourceEvidence) : checkSource source.record = .ok () := by
  have keys : source.record.hasKeys SourceEvidence.names = true := Json.hasKeys_dict rfl
  have copy : requireFields CopyFact.names (Record.json source.copy) = .ok () :=
    requireFields_record (Record.hasKeys_json source.copy)
  have drive : requireFields DriveFact.names (Record.json source.drive) = .ok () :=
    requireFields_record (Record.hasKeys_json source.drive)
  have anchor : requireFields AnchorFact.names (Record.json source.anchor) = .ok () :=
    requireFields_record (Record.hasKeys_json source.anchor)
  simp only [checkSource, requireFields_record keys]
  simp [SourceEvidence.record, field_dict, copy, drive, anchor]

theorem checkArtifact_record (artifact : Artifact) : checkArtifact artifact.record = .ok () := by
  have keys : artifact.record.hasKeys Artifact.names = true := Json.hasKeys_dict rfl
  have sources : checkEach checkSource (.arr (artifact.sources.map SourceEvidence.record)) = .ok () :=
    checkEach_arr fun source _ => checkSource_record source
  simp only [checkArtifact, requireFields_record keys]
  simp [Artifact.record, field_dict, sources]

theorem checkProposal_record (proposal : SlicePreview) : checkProposal proposal.record = .ok () := by
  have keys : proposal.record.hasKeys SlicePreview.names = true := Json.hasKeys_dict rfl
  have spec : requireFields SliceSpec.names proposal.spec.json = .ok () :=
    requireFields_record (Json.hasKeys_dict rfl)
  have closure : checkEach checkArtifact (.arr (proposal.closure.map Artifact.record)) = .ok () :=
    checkEach_arr fun artifact _ => checkArtifact_record artifact
  have gaps : checkEach (requireFields Gap.names) (.arr (proposal.gaps.map Record.json)) = .ok () :=
    checkEach_arr fun gap _ => requireFields_record (Record.hasKeys_json gap)
  simp only [checkProposal, requireFields_record keys]
  simp [SlicePreview.record, field_dict, spec, closure, gaps]

end Proposals

section Keys

theorem distinct_map {α : Type} {write : α → Json} {items : List α}
    (each : ∀ item, (write item).distinct = true) : (Json.arr (items.map write)).distinct = true := by
  apply Json.distinct_arr
  intro item listed
  obtain ⟨source, _, rfl⟩ := List.mem_map.mp listed
  exact each source

@[simp] theorem distinct_texts (texts : List String) : (Json.arr (texts.map Json.str)).distinct = true :=
  distinct_map fun _ => rfl

@[simp] theorem distinct_str (text : String) : (Json.str text).distinct = true := rfl

@[simp] theorem distinct_int (value : Int) : (Json.int value).distinct = true := rfl

@[simp] theorem distinct_ofInt (value : Option Int) : (Json.ofInt value).distinct = true := by
  cases value <;> rfl

theorem SourceEvidence.distinct_record (source : SourceEvidence) : source.record.distinct = true := by
  apply Json.distinct_dict
  · simp
  · simp [Record.distinct_json]

theorem Artifact.distinct_record (artifact : Artifact) : artifact.record.distinct = true := by
  have sources : (Json.arr (artifact.sources.map SourceEvidence.record)).distinct = true :=
    distinct_map SourceEvidence.distinct_record
  apply Json.distinct_dict
  · simp
  · simp [sources]

theorem SliceSpec.distinct_json (spec : SliceSpec) : spec.json.distinct = true := by
  apply Json.distinct_dict
  · simp
  · simp

theorem SlicePreview.distinct_record (proposal : SlicePreview) : proposal.record.distinct = true := by
  have closure : (Json.arr (proposal.closure.map Artifact.record)).distinct = true :=
    distinct_map Artifact.distinct_record
  have gaps : (Json.arr (proposal.gaps.map Record.json)).distinct = true := distinct_map Record.distinct_json
  apply Json.distinct_dict
  · simp
  · simp [closure, gaps, SliceSpec.distinct_json]

theorem CapacityObservation.distinct_record (capacity : CapacityObservation) :
    capacity.record.distinct = true := by
  apply Json.distinct_dict
  · simp
  · simp

theorem DecodePolicy.distinct_record (policy : DecodePolicy) : policy.record.distinct = true := by
  apply Json.distinct_dict
  · simp
  · have limits := @Json.distinct_dict [("stored_frame_bytes", .int policy.storedFrameBytes),
      ("decoded_frame_bytes", .int policy.decodedFrameBytes), ("read_bytes", .int policy.readBytes),
      ("zstd_window_bytes", .int policy.zstdWindowBytes)] (by simp) (by simp)
    have memory := @Json.distinct_dict [("version", .str "modelark.codec-memory.v1"),
      ("address_space_bytes", .int policy.addressSpaceBytes), ("reserve_bytes", .int policy.reserveBytes)]
      (by simp) (by simp)
    simp [limits, memory]

theorem DestinationBinding.distinct_record (binding : DestinationBinding) :
    binding.record.distinct = true := by
  apply Json.distinct_dict
  · simp
  · simp

theorem TransferPlan.distinct_record (plan : TransferPlan) : plan.record.distinct = true := by
  apply Json.distinct_dict
  · cases plan.version <;> simp
  · cases plan.version <;> simp [SlicePreview.distinct_record, DestinationBinding.distinct_record]

/-- A text that a record with distinct keys was written to decodes to this record. -/
theorem decodePayload_dumps {record : Json} (keys : record.distinct = true) :
    decodePayload record.dumps = .ok record := by
  simp [decodePayload, Json.loads_dumps, keys, require]

end Keys

section Small

theorem CapacityObservation.read_record (capacity : CapacityObservation) :
    CapacityObservation.read capacity.record = .ok capacity := by
  cases capacity with
  | mk available free headroom =>
      cases free with
      | none => simp [CapacityObservation.read, CapacityObservation.record, field_dict, Json.ofInt]
      | some inodes => simp [CapacityObservation.read, CapacityObservation.record, field_dict, Json.ofInt, Except.map]

theorem DecodePolicy.fromRecord_record {policy : DecodePolicy} (valid : policy.check = .ok ()) :
    DecodePolicy.fromRecord policy.record = .ok policy := by
  have keys : policy.record.hasKeys DecodePolicy.names = true := Json.hasKeys_dict rfl
  have limits : (Json.dict [("stored_frame_bytes", .int policy.storedFrameBytes),
      ("decoded_frame_bytes", .int policy.decodedFrameBytes), ("read_bytes", .int policy.readBytes),
      ("zstd_window_bytes", .int policy.zstdWindowBytes)]).hasKeys DecodePolicy.limitNames = true :=
    Json.hasKeys_dict rfl
  have memory : (Json.dict [("version", .str "modelark.codec-memory.v1"),
      ("address_space_bytes", .int policy.addressSpaceBytes),
      ("reserve_bytes", .int policy.reserveBytes)]).hasKeys DecodePolicy.memoryNames = true :=
    Json.hasKeys_dict rfl
  simp only [DecodePolicy.fromRecord, keys, require, if_true, ok_bind]
  simp [DecodePolicy.record, field_dict, limits, memory, valid]

theorem DestinationBinding.read_record {u : Unicode} {binding : DestinationBinding}
    (valid : binding.check u = .ok ()) : DestinationBinding.read u binding.record = .ok binding := by
  have keys : binding.record.hasKeys DestinationBinding.names = true := Json.hasKeys_dict rfl
  simp only [DestinationBinding.read, keys, require, if_true, ok_bind]
  simp [DestinationBinding.record, field_dict, valid]

theorem readProfile_value (refused : Failure) (profile : FolderProfile) :
    readProfile refused (.str profile.value) = .ok profile := by
  cases profile <;> simp [readProfile, FolderProfile.value]

theorem FolderTarget.readIdentity_record (profile : FolderProfile) (identity : ParentIdentity) :
    FolderTarget.readIdentity profile identity.record = .ok identity := by
  cases identity <;> simp [FolderTarget.readIdentity, ParentIdentity.record]

theorem FolderTarget.read_record {u : Unicode} {target : FolderTarget} (valid : target.check u = .ok ()) :
    FolderTarget.read u (.dict target.fields) = .ok target := by
  simp [FolderTarget.read, FolderTarget.fields, field_dict, readProfile_value,
    FolderTarget.readIdentity_record, valid]

theorem Fat32Intent.read_record {u : Unicode} {target : Fat32Intent} (valid : target.check u = .ok ()) :
    Fat32Intent.read u (.dict target.fields) = .ok target := by
  simp [Fat32Intent.read, Fat32Intent.fields, field_dict, readProfile_value, valid]

end Small

section Transfers

variable {u : Unicode} {sha : Digester}

/-- Every part of the plan passes the checks of its construction. -/
structure TransferPlan.Valid (u : Unicode) (sha : Digester) (plan : TransferPlan) : Prop where
  named : u.strip plan.proposal.spec.destinationId ≠ ""
  destination : plan.destination.check u = .ok ()
  plan : plan.check sha = .ok ()

theorem TransferVersion.find_value (version : TransferVersion) :
    TransferVersion.all.find? (fun other => other.value == version.value) = some version := by
  cases version <;> simp [TransferVersion.all, TransferVersion.value]

/-- Only the last version has a reserve of its own. -/
theorem TransferPlan.reserve_of_check {plan : TransferPlan} (valid : plan.check sha = .ok ()) :
    plan.metadataReserveBytes.isSome = (plan.version == .v3) := by
  simp only [TransferPlan.check, bind_eq_ok, require_eq_ok] at valid
  obtain ⟨_, _, _, _, _, _, _, _, _, _, _, reserve, _⟩ := valid
  exact beq_iff_eq.mp reserve

theorem TransferPlan.fromRecord_record {plan : TransferPlan} (valid : plan.Valid u sha) :
    TransferPlan.fromRecord u sha plan.record = .ok plan := by
  have keys : plan.record.hasKeys (TransferPlan.names plan.version) = true := by
    apply Json.hasKeys_dict
    cases plan.version <;> rfl
  have named : plan.record.distinct = true := plan.distinct_record
  have reserve := TransferPlan.reserve_of_check valid.plan
  have checked := valid.plan
  have proposal := decodeProposal_record valid.named
  have destination := DestinationBinding.read_record valid.destination
  obtain ⟨original, binding, version, metadata⟩ := plan
  have version_eq : field "version" (TransferPlan.record ⟨original, binding, version, metadata⟩) =
      .ok (.str version.value) := by
    cases version <;> simp [TransferPlan.record, field_dict]
  have proposal_eq : field "proposal" (TransferPlan.record ⟨original, binding, version, metadata⟩) =
      .ok original.record := by
    cases version <;> simp [TransferPlan.record, field_dict]
  have destination_eq : field "destination" (TransferPlan.record ⟨original, binding, version, metadata⟩) =
      .ok binding.record := by
    cases version <;> simp [TransferPlan.record, field_dict]
  simp only [TransferPlan.fromRecord, version_eq, textOr_str, ok_bind, TransferVersion.find_value, Option.elim,
    keys, require, if_true, proposal_eq, proposal, destination_eq, destination]
  cases metadata with
  | none =>
      have earlier : version ≠ .v3 := by
        rintro rfl
        cases reserve
      simp only [if_neg earlier, ok_bind, checked]
      rfl
  | some bytes =>
      have last : version = .v3 := by
        by_contra earlier
        simp [earlier] at reserve
      subst last
      have bytes_eq : field "metadata_reserve_bytes" (TransferPlan.record ⟨original, binding, .v3, some bytes⟩) =
          .ok (.int bytes) := by
        simp [TransferPlan.record, field_dict, Json.ofInt]
      simp only [if_true, bytes_eq, ok_bind, countOr_int, Except.map, checked]
      rfl

end Transfers

section Folders

variable {τ : Type} {kind : FolderKind τ} {u : Unicode} {sha : Digester}

/-- Every part of the plan passes the checks of its construction. -/
structure FolderPlan.Valid (kind : FolderKind τ) (u : Unicode) (sha : Digester) (plan : FolderPlan τ) : Prop where
  named : u.strip plan.proposal.spec.destinationId ≠ ""
  target : kind.checkTarget plan.destination.target = .ok ()
  destination : kind.checkBinding plan.destination = .ok ()
  policy : ∀ policy ∈ plan.decodePolicy, policy.check = .ok ()
  plan : kind.check u sha plan = .ok ()

/-- What the plans of a kind rely on: two versions, and targets that write all their fields. -/
structure FolderKind.Lawful (kind : FolderKind τ) : Prop where
  versions : kind.version ≠ kind.policyVersion
  names : ∀ target, (kind.targetFields target).map Prod.fst = kind.targetNames
  distinct : kind.targetNames.Nodup
  fields : ∀ target, ∀ field ∈ kind.targetFields target, field.2.distinct = true
  reads : ∀ target, kind.checkTarget target = .ok () → kind.readTarget (kind.targetRecord target) = .ok target

theorem FolderKind.distinct_targetRecord (lawful : kind.Lawful) (target : τ) :
    (kind.targetRecord target).distinct = true :=
  Json.distinct_dict (lawful.names target ▸ lawful.distinct) (lawful.fields target)

theorem FolderKind.distinct_record (lawful : kind.Lawful) (plan : FolderPlan τ) :
    (kind.record plan).distinct = true := by
  have destination : (kind.bindingRecord plan.destination).distinct = true := by
    apply Json.distinct_dict
    · simp
    · simp [kind.distinct_targetRecord lawful]
  apply Json.distinct_dict
  · cases plan.decodePolicy <;> simp
  · cases plan.decodePolicy <;> simp [destination, SlicePreview.distinct_record,
      CapacityObservation.distinct_record, DecodePolicy.distinct_record]

theorem FolderKind.readBinding_record (lawful : kind.Lawful) {binding : FolderBinding τ}
    (target : kind.checkTarget binding.target = .ok ())
    (valid : kind.checkBinding binding = .ok ()) :
    kind.readBinding (kind.bindingRecord binding) = .ok binding := by
  have keys : (kind.bindingRecord binding).hasKeys ["target", "admission_id"] = true := Json.hasKeys_dict rfl
  have targetKeys : (kind.targetRecord binding.target).hasKeys kind.targetNames = true :=
    Json.hasKeys_dict (lawful.names binding.target)
  simp only [FolderKind.readBinding, requireFields_record keys, ok_bind]
  simp [FolderKind.bindingRecord, field_dict, requireFields_record targetKeys, lawful.reads _ target, valid]

/-- The values of the keys of a plan, with or without a decoding policy. -/
theorem FolderKind.field_record (plan : FolderPlan τ) (name : String) : field name (kind.record plan) =
    (([("proposal", plan.proposal.record), ("destination", kind.bindingRecord plan.destination),
      ("catalog", .str plan.catalog), ("parent_path", .str plan.parentPath),
      ("backing_ids", .arr (plan.backingIds.map .str)), ("capacity", plan.capacity.record),
      ("metadata_reserve_bytes", .int plan.metadataReserveBytes),
      ("version", .str (kind.versionOf plan.decodePolicy))] ++
        plan.decodePolicy.elim [] fun policy => [("decode_policy", policy.record)]).find?
          fun field => field.1 == name).elim (.error .raised) fun field => .ok field.2 := by
  rw [FolderKind.record, field_dict (by cases plan.decodePolicy <;> simp)]
  cases List.find? _ _ <;> rfl

theorem FolderKind.hasKeys_record (lawful : kind.Lawful) (plan : FolderPlan τ) :
    (kind.record plan).hasKeys (kind.names (kind.versionOf plan.decodePolicy)) = true := by
  apply Json.hasKeys_dict
  cases plan.decodePolicy with
  | none => simp [FolderKind.names, FolderKind.versionOf, lawful.versions]
  | some policy => simp [FolderKind.names, FolderKind.versionOf]

theorem FolderKind.version_known (policy : Option DecodePolicy) :
    (kind.versionOf policy == kind.version || kind.versionOf policy == kind.policyVersion) = true := by
  cases policy <;> simp [FolderKind.versionOf]

theorem FolderKind.version_record (plan : FolderPlan τ) :
    (kind.record plan).get? "version" = some (.str (kind.versionOf plan.decodePolicy)) := by
  rw [FolderKind.record, Json.get?_dict_eq (by cases plan.decodePolicy <;> simp)]
  simp

/-- A plan for a folder is read back from its record. -/
theorem FolderKind.fromRecord_record (lawful : kind.Lawful) {plan : FolderPlan τ}
    (valid : plan.Valid kind u sha) : kind.fromRecord u sha (kind.record plan) = .ok plan := by
  have version := kind.version_record plan
  have proposal : field "proposal" (kind.record plan) = .ok plan.proposal.record := by
    simp [FolderKind.field_record]
  have destination : field "destination" (kind.record plan) = .ok (kind.bindingRecord plan.destination) := by
    simp [FolderKind.field_record]
  have catalog : field "catalog" (kind.record plan) = .ok (.str plan.catalog) := by
    simp [FolderKind.field_record]
  have parentPath : field "parent_path" (kind.record plan) = .ok (.str plan.parentPath) := by
    simp [FolderKind.field_record]
  have backingIds : field "backing_ids" (kind.record plan) = .ok (.arr (plan.backingIds.map .str)) := by
    simp [FolderKind.field_record]
  have capacity : field "capacity" (kind.record plan) = .ok plan.capacity.record := by
    simp [FolderKind.field_record]
  have reserve : field "metadata_reserve_bytes" (kind.record plan) = .ok (.int plan.metadataReserveBytes) := by
    simp [FolderKind.field_record]
  have capacityKeys : requireFields CapacityObservation.names plan.capacity.record = .ok () :=
    requireFields_record (Json.hasKeys_dict rfl)
  have policy : kind.readPolicy (kind.versionOf plan.decodePolicy) (kind.record plan) =
      .ok plan.decodePolicy := by
    cases found : plan.decodePolicy with
    | none => simp [FolderKind.readPolicy, FolderKind.versionOf, lawful.versions]
    | some policy =>
        have read := DecodePolicy.fromRecord_record (valid.policy policy found)
        simp [FolderKind.readPolicy, FolderKind.versionOf, FolderKind.field_record, found, read]
  simp only [FolderKind.fromRecord, version, Option.getD_some, textOr_str, ok_bind,
    requireFields_record (FolderKind.hasKeys_record lawful plan), FolderKind.version_known, require, if_true,
    proposal, checkProposal_record, capacity, capacityKeys, decodeProposal_record valid.named, destination,
    kind.readBinding_record lawful valid.target valid.destination, CapacityObservation.read_record, policy,
    catalog, parentPath, backingIds, textsOr_arr, reserve, countOr_int, valid.plan]
  rfl

end Folders

section Loader

variable {u : Unicode} {sha : Digester}

theorem nativeKind_lawful : (nativeKind u sha).Lawful where
  versions := by simp [nativeKind]
  names _ := rfl
  distinct := by
    show FolderTarget.names.Nodup
    simp [FolderTarget.names]
  fields target := by
    have identity : target.parentIdentity.record.distinct = true := by
      cases target.parentIdentity <;> rfl
    simp [nativeKind, FolderTarget.fields, identity]
  reads _ := FolderTarget.read_record

theorem fat32Kind_lawful : (fat32Kind u sha).Lawful where
  versions := by simp [fat32Kind]
  names _ := rfl
  distinct := by
    show Fat32Intent.names.Nodup
    simp [Fat32Intent.names]
  fields target := by simp [fat32Kind, Fat32Intent.fields]
  reads _ := Fat32Intent.read_record

namespace StoredPlan

/-- Every part of the plan passes the checks of its construction. -/
def Valid (u : Unicode) (sha : Digester) : StoredPlan → Prop
  | .transfer plan => plan.Valid u sha
  | .native plan => FolderPlan.Valid (nativeKind u sha) u sha plan
  | .fat32 plan => FolderPlan.Valid (fat32Kind u sha) u sha plan

/-- `to_json`. -/
def toJson (u : Unicode) (sha : Digester) : StoredPlan → String
  | .transfer plan => plan.toJson
  | .native plan => (nativeKind u sha).toJson plan
  | .fat32 plan => (fat32Kind u sha).toJson plan

/-- `seal`. -/
def sealHash (u : Unicode) (sha : Digester) (plan : StoredPlan) : String :=
  sha.hash (plan.toJson u sha)

end StoredPlan

theorem TransferPlan.fromJson_toJson {plan : TransferPlan} (valid : plan.Valid u sha) :
    TransferPlan.fromJson u sha plan.toJson = .ok plan := by
  have parsed : Json.loads plan.toJson = some plan.record := Json.loads_dumps plan.record
  have read := TransferPlan.fromRecord_record valid
  simp only [TransferPlan.fromJson, parsed, Option.elim, ok_bind, read]
  rfl

theorem NativePlan.fromJson_toJson {plan : NativePlan} (valid : FolderPlan.Valid (nativeKind u sha) u sha plan) :
    NativePlan.fromJson u sha ((nativeKind u sha).toJson plan) = .ok plan := by
  have decoded : decodePayload ((nativeKind u sha).toJson plan) = .ok ((nativeKind u sha).record plan) :=
    decodePayload_dumps (FolderKind.distinct_record nativeKind_lawful plan)
  have read := FolderKind.fromRecord_record nativeKind_lawful valid
  simp only [NativePlan.fromJson, decoded, ok_bind, read]
  rfl

theorem Fat32Plan.fromJson_toJson {plan : Fat32Plan} (valid : FolderPlan.Valid (fat32Kind u sha) u sha plan) :
    Fat32Plan.fromJson u sha ((fat32Kind u sha).toJson plan) = .ok plan := by
  have decoded : decodePayload ((fat32Kind u sha).toJson plan) = .ok ((fat32Kind u sha).record plan) :=
    decodePayload_dumps (FolderKind.distinct_record fat32Kind_lawful plan)
  have read := FolderKind.fromRecord_record fat32Kind_lawful valid
  simp only [Fat32Plan.fromJson, decoded, ok_bind, read]
  rfl

/-- The loader knows the kind of a plan by its version. -/
theorem loadPlan_toJson {plan : StoredPlan} (valid : plan.Valid u sha) :
    loadPlan u sha (plan.toJson u sha) = .ok plan := by
  cases plan with
  | transfer plan =>
      have decoded : decodePayload plan.toJson = .ok plan.record := decodePayload_dumps plan.distinct_record
      have version : plan.record.get? "version" = some (.str plan.version.value) := by
        rw [TransferPlan.record, Json.get?_dict_eq (by cases plan.version <;> simp)]
        simp
      have native : ¬(plan.version.value = (nativeKind u sha).version ∨
          plan.version.value = (nativeKind u sha).policyVersion) := by
        cases plan.version <;> simp [TransferVersion.value, nativeKind]
      have fat32 : ¬(plan.version.value = (fat32Kind u sha).version ∨
          plan.version.value = (fat32Kind u sha).policyVersion) := by
        cases plan.version <;> simp [TransferVersion.value, fat32Kind]
      simp only [StoredPlan.toJson, loadPlan, decoded, ok_bind, version, if_neg native, if_neg fat32,
        TransferPlan.fromJson_toJson valid]
      rfl
  | native plan =>
      have decoded : decodePayload ((nativeKind u sha).toJson plan) = .ok ((nativeKind u sha).record plan) :=
        decodePayload_dumps (FolderKind.distinct_record nativeKind_lawful plan)
      have own : (nativeKind u sha).versionOf plan.decodePolicy = (nativeKind u sha).version ∨
          (nativeKind u sha).versionOf plan.decodePolicy = (nativeKind u sha).policyVersion := by
        simpa using FolderKind.version_known plan.decodePolicy
      simp only [StoredPlan.toJson, loadPlan, decoded, ok_bind, FolderKind.version_record, if_pos own,
        NativePlan.fromJson_toJson valid]
      rfl
  | fat32 plan =>
      have decoded : decodePayload ((fat32Kind u sha).toJson plan) = .ok ((fat32Kind u sha).record plan) :=
        decodePayload_dumps (FolderKind.distinct_record fat32Kind_lawful plan)
      have own : (fat32Kind u sha).versionOf plan.decodePolicy = (fat32Kind u sha).version ∨
          (fat32Kind u sha).versionOf plan.decodePolicy = (fat32Kind u sha).policyVersion := by
        simpa using FolderKind.version_known plan.decodePolicy
      have other : ¬((fat32Kind u sha).versionOf plan.decodePolicy = (nativeKind u sha).version ∨
          (fat32Kind u sha).versionOf plan.decodePolicy = (nativeKind u sha).policyVersion) := by
        cases plan.decodePolicy <;> simp [FolderKind.versionOf, fat32Kind, nativeKind]
      simp only [StoredPlan.toJson, loadPlan, decoded, ok_bind, FolderKind.version_record, if_neg other,
        if_pos own, Fat32Plan.fromJson_toJson valid]
      rfl

end Loader

section Fields

variable {τ : Type} {kind : FolderKind τ} {u : Unicode} {sha : Digester}

/-- The fact of a source has its fields and no others, and so do its parts. -/
structure SourceFields (record : Json) : Prop where
  own : record.hasKeys SourceEvidence.names = true
  copy : ∀ copy ∈ record.get? "copy", copy.hasKeys CopyFact.names = true
  drive : ∀ drive ∈ record.get? "drive", drive.hasKeys DriveFact.names = true
  anchor : ∀ anchor ∈ record.get? "anchor", anchor.hasKeys AnchorFact.names = true

structure ArtifactFields (record : Json) : Prop where
  own : record.hasKeys Artifact.names = true
  sources : ∀ items, record.get? "sources" = some (.arr items) → ∀ source ∈ items, SourceFields source

structure ProposalFields (record : Json) : Prop where
  own : record.hasKeys SlicePreview.names = true
  spec : ∀ spec ∈ record.get? "spec", spec.hasKeys SliceSpec.names = true
  closure : ∀ items, record.get? "closure" = some (.arr items) → ∀ artifact ∈ items, ArtifactFields artifact
  gaps : ∀ items, record.get? "gaps" = some (.arr items) → ∀ gap ∈ items, gap.hasKeys Gap.names = true

structure PolicyFields (record : Json) : Prop where
  own : record.hasKeys DecodePolicy.names = true
  limits : ∀ limits ∈ record.get? "limits", limits.hasKeys DecodePolicy.limitNames = true
  memory : ∀ memory ∈ record.get? "memory", memory.hasKeys DecodePolicy.memoryNames = true

/-- At every level of a plan there are the fields of its class and no others. -/
structure FolderFields (kind : FolderKind τ) (record : Json) : Prop where
  own : ∃ version, record.get? "version" = some (.str version) ∧
    (version = kind.version ∨ version = kind.policyVersion) ∧ record.hasKeys (kind.names version) = true
  destination : ∀ destination ∈ record.get? "destination",
    destination.hasKeys ["target", "admission_id"] = true ∧
      ∀ target ∈ destination.get? "target", target.hasKeys kind.targetNames = true
  capacity : ∀ capacity ∈ record.get? "capacity", capacity.hasKeys CapacityObservation.names = true
  proposal : ∀ proposal ∈ record.get? "proposal", ProposalFields proposal
  policy : record.get? "version" = some (.str kind.policyVersion) →
    ∀ policy ∈ record.get? "decode_policy", PolicyFields policy

theorem field_eq_ok {name : String} {record value : Json} :
    field name record = .ok value ↔ record.get? name = some value := by
  unfold field
  cases record.get? name <;> simp

theorem requireFields_eq_ok {names : List String} {record : Json} {result : Unit}
    (checked : requireFields names record = .ok result) : record.hasKeys names = true :=
  require_eq_ok.mp checked

theorem checkEach_eq_ok {check : Json → Except Failure Unit} {items : List Json} {result : Unit}
    (checked : checkEach check (.arr items) = .ok result) : ∀ item ∈ items, check item = .ok () :=
  of_thread_checks checked

theorem checkSource_fields {record : Json} (checked : checkSource record = .ok ()) : SourceFields record := by
  simp only [checkSource, bind_eq_ok, field_eq_ok] at checked
  obtain ⟨_, own, copy, copyFound, _, copyKeys, drive, driveFound, _, driveKeys, anchor, anchorFound,
    anchorKeys⟩ := checked
  refine ⟨requireFields_eq_ok own, ?_, ?_, ?_⟩
  · intro found listed
    cases copyFound.symm.trans listed
    exact requireFields_eq_ok copyKeys
  · intro found listed
    cases driveFound.symm.trans listed
    exact requireFields_eq_ok driveKeys
  · intro found listed
    cases anchorFound.symm.trans listed
    exact requireFields_eq_ok anchorKeys

theorem checkArtifact_fields {record : Json} (checked : checkArtifact record = .ok ()) :
    ArtifactFields record := by
  simp only [checkArtifact, bind_eq_ok, field_eq_ok] at checked
  obtain ⟨_, own, sources, found, each⟩ := checked
  refine ⟨requireFields_eq_ok own, fun items listed source member => ?_⟩
  cases found.symm.trans listed
  exact checkSource_fields (checkEach_eq_ok each source member)

theorem checkProposal_fields {record : Json} (checked : checkProposal record = .ok ()) :
    ProposalFields record := by
  simp only [checkProposal, bind_eq_ok, field_eq_ok] at checked
  obtain ⟨_, own, spec, specFound, _, specKeys, closure, closureFound, _, closureEach, gaps, gapsFound,
    gapsEach⟩ := checked
  refine ⟨requireFields_eq_ok own, ?_, ?_, ?_⟩
  · intro found listed
    cases specFound.symm.trans listed
    exact requireFields_eq_ok specKeys
  · intro items listed artifact member
    cases closureFound.symm.trans listed
    exact checkArtifact_fields (checkEach_eq_ok closureEach artifact member)
  · intro items listed gap member
    cases gapsFound.symm.trans listed
    exact requireFields_eq_ok (checkEach_eq_ok gapsEach gap member)

theorem DecodePolicy.fromRecord_fields {record : Json} {policy : DecodePolicy}
    (read : DecodePolicy.fromRecord record = .ok policy) : PolicyFields record := by
  simp only [DecodePolicy.fromRecord, bind_eq_ok, require_eq_ok, field_eq_ok] at read
  obtain ⟨_, own, limits, limitsFound, _, limitsKeys, memory, memoryFound, _, memoryKeys, _⟩ := read
  refine ⟨own, ?_, ?_⟩
  · intro found listed
    cases limitsFound.symm.trans listed
    exact limitsKeys
  · intro found listed
    cases memoryFound.symm.trans listed
    exact memoryKeys

theorem FolderKind.readBinding_fields {record : Json} {binding : FolderBinding τ}
    (read : kind.readBinding record = .ok binding) : record.hasKeys ["target", "admission_id"] = true ∧
      ∀ target ∈ record.get? "target", target.hasKeys kind.targetNames = true := by
  simp only [FolderKind.readBinding, bind_eq_ok, field_eq_ok] at read
  obtain ⟨_, own, target, targetFound, _, targetKeys, _⟩ := read
  refine ⟨requireFields_eq_ok own, fun found listed => ?_⟩
  cases targetFound.symm.trans listed
  exact requireFields_eq_ok targetKeys

/-- A record that is read as a plan has exactly the fields of this plan. -/
theorem FolderKind.fromRecord_fields {record : Json} {plan : FolderPlan τ}
    (read : kind.fromRecord u sha record = .ok plan) : FolderFields kind record := by
  simp only [FolderKind.fromRecord, bind_eq_ok, field_eq_ok] at read
  obtain ⟨version, versionRead, _, own, _, known, proposal, proposalFound, _, proposalChecked, capacity,
    capacityFound, _, capacityKeys, _, _, destination, destinationFound, binding, destinationRead, _, _,
    policy, policyRead, _⟩ := read
  have versionFound : record.get? "version" = some (.str version) := by
    cases found : record.get? "version" with
    | none =>
        rw [found] at versionRead
        cases versionRead
    | some value =>
        rw [found] at versionRead
        cases value <;> cases versionRead
        rfl
  have either : version = kind.version ∨ version = kind.policyVersion := by simpa using require_eq_ok.mp known
  refine ⟨⟨version, versionFound, either, requireFields_eq_ok own⟩, ?_, ?_, ?_, ?_⟩
  · intro found listed
    cases destinationFound.symm.trans listed
    exact FolderKind.readBinding_fields destinationRead
  · intro found listed
    cases capacityFound.symm.trans listed
    exact requireFields_eq_ok capacityKeys
  · intro found listed
    cases proposalFound.symm.trans listed
    exact checkProposal_fields proposalChecked
  · intro policyVersion found listed
    rw [versionFound, Option.some.injEq, Json.str.injEq] at policyVersion
    simp only [FolderKind.readPolicy, if_pos policyVersion, bind_eq_ok, field_eq_ok] at policyRead
    obtain ⟨value, valueFound, decoded, decodedRead, _⟩ := policyRead
    cases valueFound.symm.trans listed
    exact DecodePolicy.fromRecord_fields decodedRead

theorem corrupt_eq_ok {α : Type} {start : String} {result : Except Failure α} {value : α} :
    corrupt start result = .ok value ↔ result = .ok value := by
  cases result <;> simp [corrupt, Except.mapError]

theorem decodePayload_eq_ok {payload : String} {record : Json} (decoded : decodePayload payload = .ok record) :
    Json.loads payload = some record ∧ record.distinct = true := by
  unfold decodePayload at decoded
  cases parsed : Json.loads payload with
  | none =>
      rw [parsed] at decoded
      cases decoded
  | some value =>
      rw [parsed] at decoded
      simp only [bind_eq_ok, require_eq_ok, pure_eq_ok] at decoded
      obtain ⟨_, keys, rfl⟩ := decoded
      exact ⟨rfl, keys⟩

theorem NativePlan.fromJson_fields {payload : String} {plan : NativePlan}
    (read : NativePlan.fromJson u sha payload = .ok plan) : ∃ record,
      Json.loads payload = some record ∧ record.distinct = true ∧ FolderFields (nativeKind u sha) record := by
  obtain ⟨record, decoded, plan⟩ := bind_eq_ok.mp (corrupt_eq_ok.mp read)
  obtain ⟨parsed, keys⟩ := decodePayload_eq_ok decoded
  exact ⟨record, parsed, keys, FolderKind.fromRecord_fields plan⟩

theorem Fat32Plan.fromJson_fields {payload : String} {plan : Fat32Plan}
    (read : Fat32Plan.fromJson u sha payload = .ok plan) : ∃ record,
      Json.loads payload = some record ∧ record.distinct = true ∧ FolderFields (fat32Kind u sha) record := by
  obtain ⟨record, decoded, plan⟩ := bind_eq_ok.mp (corrupt_eq_ok.mp read)
  obtain ⟨parsed, keys⟩ := decodePayload_eq_ok decoded
  exact ⟨record, parsed, keys, FolderKind.fromRecord_fields plan⟩

/-- A transfer has a version of its own. -/
theorem TransferPlan.fromJson_version {payload : String} {plan : TransferPlan}
    (read : TransferPlan.fromJson u sha payload = .ok plan) : ∃ record, ∃ version : TransferVersion,
      Json.loads payload = some record ∧ record.get? "version" = some (.str version.value) := by
  obtain ⟨record, parsed, fromRecord⟩ := bind_eq_ok.mp (corrupt_eq_ok.mp read)
  simp only [TransferPlan.fromRecord, bind_eq_ok, field_eq_ok] at fromRecord
  obtain ⟨value, valueFound, text, valueRead, version, found, _⟩ := fromRecord
  have same := List.find?_some (elim_eq_ok found)
  cases value <;> cases valueRead
  exact ⟨record, version, elim_eq_ok parsed, (beq_iff_eq.mp same).symm ▸ valueFound⟩

/-- What a payload that is loaded has, by the kind of its plan. -/
def StoredPlan.Carries (u : Unicode) (sha : Digester) (record : Json) : StoredPlan → Prop
  | .transfer _ => ∃ version : TransferVersion, record.get? "version" = some (.str version.value)
  | .native _ => FolderFields (nativeKind u sha) record
  | .fat32 _ => FolderFields (fat32Kind u sha) record

theorem loadPlan_carries {payload : String} {record : Json} {plan : StoredPlan}
    (loaded : loadPlan u sha payload = .ok plan) (parsed : Json.loads payload = some record) :
    record.distinct = true ∧ plan.Carries u sha record := by
  obtain ⟨decoded, decodes, rest⟩ := bind_eq_ok.mp (corrupt_eq_ok.mp loaded)
  obtain ⟨parsed', keys⟩ := decodePayload_eq_ok decodes
  cases parsed'.symm.trans parsed
  obtain ⟨_, _, dispatched⟩ := bind_eq_ok.mp rest
  have transferred : ∀ plan, TransferPlan.fromJson u sha payload = .ok plan →
      (StoredPlan.transfer plan).Carries u sha record := by
    intro plan read
    obtain ⟨other, version, parsedToo, found⟩ := TransferPlan.fromJson_version read
    cases parsed.symm.trans parsedToo
    exact ⟨version, found⟩
  have nativeRead : ∀ plan, NativePlan.fromJson u sha payload = .ok plan →
      (StoredPlan.native plan).Carries u sha record := by
    intro plan read
    obtain ⟨other, parsedToo, _, fields⟩ := NativePlan.fromJson_fields read
    cases parsed.symm.trans parsedToo
    exact fields
  have fat32Read : ∀ plan, Fat32Plan.fromJson u sha payload = .ok plan →
      (StoredPlan.fat32 plan).Carries u sha record := by
    intro plan read
    obtain ⟨other, parsedToo, _, fields⟩ := Fat32Plan.fromJson_fields read
    cases parsed.symm.trans parsedToo
    exact fields
  refine ⟨keys, ?_⟩
  have mapped : ∀ {α : Type} {result : Except Failure α} {wrap : α → StoredPlan},
      result.map wrap = .ok plan → ∃ value, result = .ok value ∧ wrap value = plan := map_eq_ok.mp
  split at dispatched
  · split at dispatched
    · obtain ⟨value, read, rfl⟩ := mapped dispatched
      exact nativeRead value read
    · split at dispatched
      · obtain ⟨value, read, rfl⟩ := mapped dispatched
        exact fat32Read value read
      · obtain ⟨value, read, rfl⟩ := mapped dispatched
        exact transferred value read
  · obtain ⟨value, read, rfl⟩ := mapped dispatched
    exact transferred value read

/-- A payload of a version of this kind, or of no version. -/
def FolderKind.Claims (kind : FolderKind τ) (record : Json) : Prop :=
  record.get? "version" = none ∨ record.get? "version" = some (.str kind.version) ∨
    record.get? "version" = some (.str kind.policyVersion)

end Fields

section Codec

variable {u : Unicode} {sha : Digester}

/-- No version of a transfer is one of a kind of folders. -/
theorem TransferVersion.apart (version : TransferVersion) {record : Json}
    (found : record.get? "version" = some (.str version.value)) :
    ¬(nativeKind u sha).Claims record ∧ ¬(fat32Kind u sha).Claims record := by
  cases version <;> simp [FolderKind.Claims, found, TransferVersion.value, nativeKind, fat32Kind]

/-- The kinds of folders have no version in common. -/
theorem kinds_apart {record : Json} : (FolderFields (nativeKind u sha) record → ¬(fat32Kind u sha).Claims record) ∧
    (FolderFields (fat32Kind u sha) record → ¬(nativeKind u sha).Claims record) := by
  constructor
  · intro fields
    obtain ⟨version, found, either, _⟩ := fields.own
    rcases either with rfl | rfl <;> simp [FolderKind.Claims, found, nativeKind, fat32Kind]
  · intro fields
    obtain ⟨version, found, either, _⟩ := fields.own
    rcases either with rfl | rfl <;> simp [FolderKind.Claims, found, nativeKind, fat32Kind]

theorem refused_of_not {ε α : Type} {result : Except ε α} (never : ∀ value, result ≠ .ok value) :
    ∃ refused, result = .error refused := by
  cases result with
  | error refused => exact ⟨refused, rfl⟩
  | ok value => exact absurd rfl (never value)

/-- What is stored of a plan is this plan and no other of any kind, under the same seal; and what claims to be a
    plan for a folder is refused unless every record in it has its fields once, and no others. -/
theorem stored_plans_codec (u : Unicode) (sha : Digester) :
    (∀ plan : StoredPlan, plan.Valid u sha → ∃ read, loadPlan u sha (plan.toJson u sha) = .ok read ∧
      read = plan ∧ read.sealHash u sha = plan.sealHash u sha) ∧
    (∀ plan : TransferPlan, plan.Valid u sha → TransferPlan.fromJson u sha plan.toJson = .ok plan) ∧
    (∀ plan : NativePlan, FolderPlan.Valid (nativeKind u sha) u sha plan →
      NativePlan.fromJson u sha ((nativeKind u sha).toJson plan) = .ok plan) ∧
    (∀ plan : Fat32Plan, FolderPlan.Valid (fat32Kind u sha) u sha plan →
      Fat32Plan.fromJson u sha ((fat32Kind u sha).toJson plan) = .ok plan) ∧
    (∀ plan other : StoredPlan, plan.Valid u sha → other.Valid u sha →
      plan.toJson u sha = other.toJson u sha → plan = other) ∧
    ∀ (payload : String) (record : Json), Json.loads payload = some record →
      (¬(record.distinct = true ∧ FolderFields (nativeKind u sha) record) →
        (∃ refused, NativePlan.fromJson u sha payload = .error refused) ∧
          ((nativeKind u sha).Claims record → ∃ refused, loadPlan u sha payload = .error refused)) ∧
      (¬(record.distinct = true ∧ FolderFields (fat32Kind u sha) record) →
        (∃ refused, Fat32Plan.fromJson u sha payload = .error refused) ∧
          ((fat32Kind u sha).Claims record → ∃ refused, loadPlan u sha payload = .error refused)) := by
  refine ⟨fun plan valid => ⟨plan, loadPlan_toJson valid, rfl, rfl⟩, fun plan valid => ?_, fun plan valid => ?_,
    fun plan valid => ?_, fun plan other valid valid' same => ?_, fun payload record parsed => ⟨?_, ?_⟩⟩
  · exact TransferPlan.fromJson_toJson valid
  · exact NativePlan.fromJson_toJson valid
  · exact Fat32Plan.fromJson_toJson valid
  · have loaded := loadPlan_toJson valid
    rw [same, loadPlan_toJson valid'] at loaded
    exact (Except.ok.inj loaded).symm
  · intro malformed
    refine ⟨refused_of_not fun plan read => ?_, fun claims => refused_of_not fun plan loaded => ?_⟩
    · obtain ⟨other, parsedToo, keys, fields⟩ := NativePlan.fromJson_fields read
      cases parsed.symm.trans parsedToo
      exact malformed ⟨keys, fields⟩
    · obtain ⟨keys, carried⟩ := loadPlan_carries loaded parsed
      cases plan with
      | transfer plan =>
          obtain ⟨version, found⟩ := carried
          exact (version.apart found).1 claims
      | native plan => exact malformed ⟨keys, carried⟩
      | fat32 plan => exact kinds_apart.2 carried claims
  · intro malformed
    refine ⟨refused_of_not fun plan read => ?_, fun claims => refused_of_not fun plan loaded => ?_⟩
    · obtain ⟨other, parsedToo, keys, fields⟩ := Fat32Plan.fromJson_fields read
      cases parsed.symm.trans parsedToo
      exact malformed ⟨keys, fields⟩
    · obtain ⟨keys, carried⟩ := loadPlan_carries loaded parsed
      cases plan with
      | transfer plan =>
          obtain ⟨version, found⟩ := carried
          exact (version.apart found).2 claims
      | native plan => exact kinds_apart.1 carried claims
      | fat32 plan => exact malformed ⟨keys, carried⟩

end Codec

section Sample

def zeroText : String := String.ofList (List.replicate 64 '0')

theorem length_zeroText : zeroText.length = 64 :=
  String.length_ofList.trans List.length_replicate

/-- Every text has the same digest. -/
def zeroDigest : Digester where
  hash _ := zeroText
  nonempty _ := by
    rw [ne_eq, ← String.length_eq_zero_iff, length_zeroText]
    decide

theorem zeroDigest_hex (text : String) : isHexText 64 (zeroDigest.hash text) = true :=
  (by decide +kernel : isHexText 64 zeroText = true)

def sampleSource : SourceEvidence where
  copy := ⟨.str "o/m", .str "w", .str "d", .str "w", .int 3, .int 3, .str "h", .str "annex_key", .null,
    .bool false, .null⟩
  drive := ⟨.str "d", .str "fs", .null, .str "S1", .int 1, .int 2, .str "f", .int 9, .str "dedicated_local",
    .str "active", .str "enabled"⟩
  anchor := ⟨.str "d", .int 1, .int 2, .str "f", .int 9, .str "dedicated_local", .str "x"⟩
  digestProvenance := "annex_key"

def sampleArtifact : Artifact :=
  ⟨.str "o/m", .str "w", .int 3, "h", .str "safetensors", .null, [sampleSource]⟩

def nativeSpec : SliceSpec :=
  { sampleSpec with destinationId := "folder-target-v1:" ++ zeroText }

def fat32Spec : SliceSpec :=
  { sampleSpec with destinationId := "fat32-intent-v1:" ++ zeroText }

def samplePlan : TransferPlan where
  proposal := composePreview zeroDigest sampleSpec "i" [sampleArtifact] []
  destination := ⟨"usb", "fs", "mount", 100000⟩
  version := .v3
  metadataReserveBytes := some 50000

def nativePlan : NativePlan where
  proposal := composePreview zeroDigest nativeSpec "i" [sampleArtifact] []
  destination := ⟨⟨.nativeExt4, "uuid", ["data"], .native 2 7, "models"⟩, "native-folder-v1:" ++ zeroText⟩
  catalog := "/catalog"
  parentPath := "/mnt/data"
  backingIds := ["disk"]
  capacity := ⟨100000000, none, 4096⟩
  metadataReserveBytes := 365092
  decodePolicy := none

def fat32Plan : Fat32Plan where
  proposal := composePreview zeroDigest fat32Spec "i" [sampleArtifact] []
  destination := ⟨⟨.fat32Session, "uuid", ["data"], "models"⟩, "fat32-folder-v2:" ++ zeroText⟩
  catalog := "/catalog"
  parentPath := "/mnt/data"
  backingIds := ["disk"]
  capacity := ⟨100000000, none, 4096⟩
  metadataReserveBytes := 1053148
  decodePolicy := some ⟨2 ^ 33, 2 ^ 33, 2 ^ 20, 2 ^ 26, 2 ^ 33, 2 ^ 31⟩

/-- What is needed is a matter of the lengths of texts. -/
theorem TransferPlan.requiredBytes_eq (sha : Digester) (plan : TransferPlan) : plan.requiredBytes sha = (do
    let files ← receiptFiles plan.proposal
    let minimum := (Json.dict [("transaction", .str emptyTransaction), ("seal", .str (plan.sealHash sha)),
      ("store", .str ""), ("destination", plan.destination.record)]).size + (plan.receipt sha files).size
    let reserve := plan.metadataReserveBytes.getD minimum
    let total ← totalBytes plan.proposal
    require (decide (minimum ≤ reserve ∧ total + reserve ≤ plan.destination.availableBytes))
      (refuse "DESTINATION_CAPACITY_INSUFFICIENT" "artifact and transaction metadata charge")
    return total + reserve) := by
  simp only [TransferPlan.requiredBytes, controlSize, Json.length_dumps]

theorem FolderKind.requiredBytes_eq {τ : Type} (kind : FolderKind τ) (sha : Digester) (plan : FolderPlan τ) :
    kind.requiredBytes sha plan = (do
      let sizes ← (do
        let files ← receiptFiles plan.proposal
        return ((Json.dict [("transaction", .str emptyTransaction), ("seal", .str (kind.sealHash sha plan)),
          ("store", .str ""), ("destination", kind.bindingRecord plan.destination)]).size,
          (kind.receipt sha plan files).size))
      kind.checkLayout plan.proposal plan.parentPath (kind.childName plan.destination.target) sizes.1 sizes.2
      require (decide (sizes.1 + sizes.2 ≤ plan.metadataReserveBytes))
        (refuse "DESTINATION_CAPACITY_UNPROVEN" kind.reserveDetail)
      return (← totalBytes plan.proposal) + plan.metadataReserveBytes + plan.capacity.headroomBytes) := by
  simp only [FolderKind.requiredBytes, controlSize, Json.length_dumps, bind_assoc, pure_bind]

theorem eq_ok_of_isOk {ε : Type} {result : Except ε Unit} (passed : result.isOk = true) : result = .ok () := by
  cases result with
  | error refused => cases passed
  | ok _ => rfl

-- One evaluation after another, so that each gives back what it takes.
theorem plans_sized :
    ((do
      let files ← receiptFiles nativePlan.proposal
      return ((Json.dict [("transaction", .str emptyTransaction),
        ("seal", .str ((nativeKind asciiUnicode zeroDigest).sealHash zeroDigest nativePlan)), ("store", .str ""),
        ("destination", (nativeKind asciiUnicode zeroDigest).bindingRecord nativePlan.destination)]).size,
        ((nativeKind asciiUnicode zeroDigest).receipt zeroDigest nativePlan files).size)) =
      (.ok (391, 3059) : Except Failure (Nat × Nat))) ∧
    (do
      let files ← receiptFiles fat32Plan.proposal
      return ((Json.dict [("transaction", .str emptyTransaction),
        ("seal", .str ((fat32Kind asciiUnicode zeroDigest).sealHash zeroDigest fat32Plan)), ("store", .str ""),
        ("destination", (fat32Kind asciiUnicode zeroDigest).bindingRecord fat32Plan.destination)]).size,
        ((fat32Kind asciiUnicode zeroDigest).receipt zeroDigest fat32Plan files).size)) =
      (.ok (368, 3434) : Except Failure (Nat × Nat)) := by
  constructor
  · decide +kernel
  · decide +kernel

theorem plans_checked : (samplePlan.check zeroDigest).isOk = true ∧
    ((nativeKind asciiUnicode zeroDigest).check asciiUnicode zeroDigest nativePlan).isOk = true ∧
    ((fat32Kind asciiUnicode zeroDigest).check asciiUnicode zeroDigest fat32Plan).isOk = true := by
  refine ⟨?_, ?_, ?_⟩
  · simp only [TransferPlan.check, TransferPlan.requiredBytes_eq]
    decide +kernel
  · simp only [FolderKind.check, FolderKind.requiredBytes_eq, plans_sized.1, ok_bind]
    decide +kernel
  · simp only [FolderKind.check, FolderKind.requiredBytes_eq, plans_sized.2, ok_bind]
    decide +kernel

theorem samplePlan_valid : samplePlan.Valid asciiUnicode zeroDigest where
  named := by decide +kernel
  destination := eq_ok_of_isOk (by decide +kernel)
  plan := eq_ok_of_isOk plans_checked.1

theorem nativePlan_valid :
    FolderPlan.Valid (nativeKind asciiUnicode zeroDigest) asciiUnicode zeroDigest nativePlan where
  named := by decide +kernel
  target := eq_ok_of_isOk (by decide +kernel)
  destination := eq_ok_of_isOk (by decide +kernel)
  policy := by rintro policy ⟨⟩
  plan := eq_ok_of_isOk plans_checked.2.1

theorem fat32Plan_valid :
    FolderPlan.Valid (fat32Kind asciiUnicode zeroDigest) asciiUnicode zeroDigest fat32Plan where
  named := by decide +kernel
  target := eq_ok_of_isOk (by decide +kernel)
  destination := eq_ok_of_isOk (by decide +kernel)
  policy := by
    rintro policy ⟨⟩
    exact eq_ok_of_isOk (by decide +kernel)
  plan := eq_ok_of_isOk plans_checked.2.2

theorem sample_plan_read :
    (∃ read, loadPlan asciiUnicode zeroDigest (StoredPlan.toJson asciiUnicode zeroDigest (.transfer samplePlan)) =
      .ok read ∧ read = .transfer samplePlan) ∧
    (∃ read, loadPlan asciiUnicode zeroDigest (StoredPlan.toJson asciiUnicode zeroDigest (.native nativePlan)) =
      .ok read ∧ read = .native nativePlan) ∧
    (∃ read, loadPlan asciiUnicode zeroDigest (StoredPlan.toJson asciiUnicode zeroDigest (.fat32 fat32Plan)) =
      .ok read ∧ read = .fat32 fat32Plan) ∧
    NativePlan.fromJson asciiUnicode zeroDigest ((nativeKind asciiUnicode zeroDigest).toJson nativePlan) =
      .ok nativePlan ∧
    Fat32Plan.fromJson asciiUnicode zeroDigest ((fat32Kind asciiUnicode zeroDigest).toJson fat32Plan) =
      .ok fat32Plan := by
  obtain ⟨loads, _, natives, fat32s, _⟩ := stored_plans_codec asciiUnicode zeroDigest
  obtain ⟨transfer, loaded, sameTransfer, _⟩ := loads (.transfer samplePlan) samplePlan_valid
  obtain ⟨native, loadedNative, sameNative, _⟩ := loads (.native nativePlan) nativePlan_valid
  obtain ⟨fat32, loadedFat32, sameFat32, _⟩ := loads (.fat32 fat32Plan) fat32Plan_valid
  exact ⟨⟨transfer, loaded, sameTransfer⟩, ⟨native, loadedNative, sameNative⟩, ⟨fat32, loadedFat32, sameFat32⟩,
    natives nativePlan nativePlan_valid, fat32s fat32Plan fat32Plan_valid⟩

end Sample

end Modelark.Slice.Domain
