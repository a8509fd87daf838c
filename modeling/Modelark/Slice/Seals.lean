import Modelark.Proposal.Hashing
import Modelark.Slice.Domain

/-!
# Seals of slice proposals

A seal binds the requested repositories' part of a catalog and nothing else: neither the order of rows, nor other
repositories, nor eligibility for placement enter it, and any other difference changes it. A proposal is ready
only with every file of every requested repository in its closure.
-/

namespace Modelark.Slice.Domain

open Library Proposal Archive Conversion

section Keys

variable {α β : Type} {key : α → List Scalar}

theorem sameKey_iff {left right : List Scalar} :
    sameKey left right = true ↔ left.map Scalar.plain = right.map Scalar.plain := beq_iff_eq

/-- What `_index` does from a dictionary with entries. -/
theorem index_from {known items result : List α}
    (indexed : thread (fun result item =>
      if result.any fun other => sameKey (key other) (key item) then
        Except.error (SliceRefusal.duplicateEvidence (key item))
      else .ok (result ++ [item])) known items = .ok result)
    (distinct : (known.map fun item => (key item).map Scalar.plain).Nodup) :
    result = known ++ items ∧ (result.map fun item => (key item).map Scalar.plain).Nodup := by
  induction items generalizing known with
  | nil =>
      cases indexed
      exact ⟨(List.append_nil _).symm, distinct⟩
  | cons item items ih =>
      rw [thread_cons, bind_eq_ok] at indexed
      obtain ⟨next, step, rest⟩ := indexed
      split at step
      · cases step
      · rename_i fresh
        cases step
        have apart : ((known ++ [item]).map fun item => (key item).map Scalar.plain).Nodup := by
          rw [List.map_append, List.map_singleton, List.nodup_append]
          refine ⟨distinct, List.nodup_singleton _, ?_⟩
          intro left listed right single same
          obtain ⟨other, member, rfl⟩ := List.mem_map.mp listed
          cases List.mem_singleton.mp single
          exact fresh (List.any_eq_true.mpr ⟨other, member, sameKey_iff.mpr same⟩)
        obtain ⟨whole, nodup⟩ := ih rest apart
        exact ⟨by rw [whole, List.append_assoc]; rfl, nodup⟩

/-- An index has all items, under distinct keys. -/
theorem index_eq_ok {items result : List α} (indexed : index key items = .ok result) :
    result = items ∧ (items.map fun item => (key item).map Scalar.plain).Nodup := by
  obtain ⟨whole, nodup⟩ := index_from indexed List.nodup_nil
  rw [List.nil_append] at whole
  exact ⟨whole, whole ▸ nodup⟩

/-- An index depends on its items only through their keys. -/
theorem index_map (f : α → β) {key : β → List Scalar} (items : List α) :
    index key (items.map f) = (index (fun item => key (f item)) items).map (List.map f) := by
  have from_known : ∀ known : List α, thread (fun result item =>
      if result.any fun other => sameKey (key other) (key item) then
        Except.error (SliceRefusal.duplicateEvidence (key item))
      else .ok (result ++ [item])) (known.map f) (items.map f) =
      (thread (fun result item =>
        if result.any fun other => sameKey (key (f other)) (key (f item)) then
          Except.error (SliceRefusal.duplicateEvidence (key (f item)))
        else .ok (result ++ [item])) known items).map (List.map f) := by
    induction items with
    | nil => exact fun known => rfl
    | cons item items ih =>
        intro known
        rw [List.map_cons, thread_cons, thread_cons, List.any_map, Function.comp_def]
        split
        · rfl
        · have step := ih (known ++ [item])
          rw [List.map_append, List.map_singleton] at step
          simpa only [ok_bind] using step
  exact from_known []

theorem lookupKey_map (f : α → β) {key : β → List Scalar} (items : List α) (wanted : List Scalar) :
    lookupKey key (items.map f) wanted = (lookupKey (fun item => key (f item)) items wanted).map f :=
  List.find?_map ..

end Keys

section Eligibility

variable {u : Unicode} {decimal : Char → Option Nat} {sha : Digester}

def DriveFact.erased (drive : DriveFact) : DriveFact :=
  { drive with eligibility := .null }

def SourceEvidence.erased (source : SourceEvidence) : SourceEvidence :=
  { source with drive := source.drive.erased }

def Artifact.erased (artifact : Artifact) : Artifact :=
  { artifact with sources := artifact.sources.map SourceEvidence.erased }

def SlicePreview.erased (proposal : SlicePreview) : SlicePreview :=
  { proposal with closure := proposal.closure.map Artifact.erased }

/-- The evidence of a drive is all of it but its eligibility. -/
theorem DriveFact.evidence_eq (drive : DriveFact) : drive.evidence =
    .obj ([("annex_uuid", drive.annexUuid), ("drive_label", drive.driveLabel),
      ("filesystem_capacity_bytes", drive.filesystemCapacityBytes), ("fs_uuid", drive.fsUuid),
      ("identity_epoch", drive.identityEpoch), ("identity_fingerprint", drive.identityFingerprint),
      ("lifecycle", drive.lifecycle), ("serial", drive.serial), ("write_authority", drive.writeAuthority),
      ("write_generation", drive.writeGeneration)].map (Prod.map id Scalar.json)) := by
  refine congrArg (fun fields => Json.obj (List.map (Prod.map id Scalar.json) fields)) ?_
  simp only [Record.fields, List.filter_cons, bne, String.reduceBEq, Bool.not_false, Bool.not_true, if_true,
    Bool.false_eq_true, if_false, List.filter_nil]

theorem DriveFact.evidence_inj {left right : DriveFact} (same : left.evidence = right.evidence) :
    left.erased = right.erased := by
  rw [evidence_eq, evidence_eq] at same
  have values := List.map_injective_iff.mpr (Function.injective_id.prodMap Scalar.json_injective)
    (Json.obj.inj same)
  cases left
  cases right
  simp_all [DriveFact.erased]

@[simp] theorem DriveFact.evidence_erased (drive : DriveFact) : drive.erased.evidence = drive.evidence := by
  rw [evidence_eq, evidence_eq]
  rfl

@[simp] theorem SourceEvidence.json_erased (source : SourceEvidence) : source.erased.json = source.json := by
  simp only [json, erased, DriveFact.evidence_erased]

@[simp] theorem Artifact.json_erased (artifact : Artifact) : artifact.erased.json = artifact.json := by
  simp only [json, erased, List.map_map, Function.comp_def, SourceEvidence.json_erased]

@[simp] theorem SlicePreview.canonicalBytes_erased (proposal : SlicePreview) :
    proposal.erased.canonicalBytes = proposal.canonicalBytes := by
  simp only [canonicalBytes, erased, List.map_map, Function.comp_def, Artifact.json_erased]

/-- A candidate is judged without a look at eligibility. -/
theorem sourceOf_erased (file : FileFact) (copy : CopyFact) (drive : Option DriveFact)
    (anchors : List AnchorFact) : sourceOf u decimal sha file copy (drive.map DriveFact.erased) anchors =
      (sourceOf u decimal sha file copy drive anchors).map (Prod.map id SourceEvidence.erased) := by
  cases drive with
  | none =>
      simp only [sourceOf, Option.map_none]
      cases require (copy.present != .bool false) _ <;> rfl
  | some drive =>
      have same : qualify u decimal sha file copy drive.erased anchors =
        qualify u decimal sha file copy drive anchors := rfl
      simp only [sourceOf, Option.map_some, same]
      cases require (copy.present != .bool false) _ with
      | error refused => rfl
      | ok _ => cases qualify u decimal sha file copy drive anchors <;> rfl

theorem agreed_erased (file : FileFact) (digest : String) (available : List (String × SourceEvidence)) :
    agreed file digest (available.map (Prod.map id SourceEvidence.erased)) =
      (agreed file digest available).map (Sum.map id Artifact.erased) := by
  have sources : (available.map (Prod.map id SourceEvidence.erased)).map Prod.snd =
      (available.map Prod.snd).map SourceEvidence.erased := by
    rw [List.map_map, List.map_map]
    rfl
  unfold agreed
  rw [sources, sortedByTuple_map, List.any_map, Function.comp_def]
  dsimp only [Prod.map_fst, id, SourceEvidence.erased, DriveFact.erased]
  split
  · rfl
  · cases sortedByTuple _ (available.map Prod.snd) <;> rfl

theorem resolve_erased (file : FileFact) (candidates : List (Except Gap (String × SourceEvidence))) :
    resolve file (candidates.map (Except.map (Prod.map id SourceEvidence.erased))) =
      (resolve file candidates).map (Sum.map id Artifact.erased) := by
  have available : (candidates.map (Except.map (Prod.map id SourceEvidence.erased))).filterMap
      Except.toOption = (candidates.filterMap Except.toOption).map (Prod.map id SourceEvidence.erased) := by
    rw [List.filterMap_map, List.map_filterMap]
    refine List.filterMap_congr fun candidate _ => ?_
    cases candidate <;> rfl
  unfold resolve
  rw [available]
  cases candidates.filterMap Except.toOption with
  | nil =>
      simp only [List.map_nil, List.filterMap_map]
      refine congrArg (fun rejected => Except.ok (Sum.inl (if rejected = [] then _ else rejected))) ?_
      refine List.filterMap_congr fun candidate _ => ?_
      cases candidate <;> rfl
  | cons first rest => exact agreed_erased file first.1 (first :: rest)

theorem examine_erased (outputs : List String) (copies : List CopyFact) (drives : List DriveFact)
    (anchors : List AnchorFact) (file : FileFact) :
    examine u decimal sha outputs copies (drives.map DriveFact.erased) anchors file =
      (examine u decimal sha outputs copies drives anchors file).map (Sum.map id Artifact.erased) := by
  have candidates : ∀ chosen : List CopyFact, (chosen.map fun copy => sourceOf u decimal sha file copy
      (lookupKey DriveFact.key (drives.map DriveFact.erased) [copy.driveLabel]) anchors) =
      (chosen.map fun copy => sourceOf u decimal sha file copy
        (lookupKey DriveFact.key drives [copy.driveLabel]) anchors).map
        (Except.map (Prod.map id SourceEvidence.erased)) := by
    intro chosen
    rw [List.map_map]
    refine List.map_congr_left fun copy _ => ?_
    rw [lookupKey_map, sourceOf_erased]
    rfl
  unfold examine
  cases outputPath file with
  | none => rfl
  | some output =>
      dsimp only
      split_ifs
      · rfl
      · rfl
      · rfl
      · rw [candidates, resolve_erased]

theorem mapM_map {ε α β γ : Type} (f : α → Except ε β) (g : β → γ) (items : List α) :
    items.mapM (fun item => (f item).map g) = (items.mapM f).map (List.map g) := by
  induction items with
  | nil => rfl
  | cons item items ih =>
      rw [List.mapM_cons, List.mapM_cons, ih]
      cases f item with
      | error refused => rfl
      | ok value => cases items.mapM f <;> rfl

theorem composePreview_erased (spec : SliceSpec) (snapshotId : String) (closure : List Artifact)
    (gaps : List Gap) : composePreview sha spec snapshotId (closure.map Artifact.erased) gaps =
      (composePreview sha spec snapshotId closure gaps).erased := by
  have text := SlicePreview.canonicalBytes_erased
    ⟨spec, snapshotId, closure, (Rows.of gaps).items, "", domainVersion⟩
  simp only [SlicePreview.erased] at text
  simp only [composePreview, SlicePreview.erased, text]

/-- Eligibility passes through a survey untouched. -/
theorem survey_erased (spec : SliceSpec) (files : List FileFact) (copies : List CopyFact)
    (drives : List DriveFact) (anchors : List AnchorFact) (issues : List Gap) (snapshotId : String) :
    survey u decimal sha spec files copies (drives.map DriveFact.erased) anchors issues snapshotId =
      (survey u decimal sha spec files copies drives anchors issues snapshotId).map SlicePreview.erased := by
  have drivesIndexed : index DriveFact.key (drives.map DriveFact.erased) =
    (index DriveFact.key drives).map (List.map DriveFact.erased) := index_map _ drives
  simp only [survey, drivesIndexed]
  cases index FileFact.key files with
  | error refused => rfl
  | ok files =>
    cases index CopyFact.key copies with
    | error refused => rfl
    | ok copies =>
      cases index DriveFact.key drives with
      | error refused => rfl
      | ok drives =>
        cases index AnchorFact.key anchors with
        | error refused => rfl
        | ok anchors =>
          simp only [ok_bind, Except.map]
          cases sortedByTuple FileFact.key (files.filter fun file => spec.requests file.repoId) with
          | none => rfl
          | some ordered =>
            simp only [Option.elim, ok_bind, funext (examine_erased _ copies drives anchors), mapM_map]
            cases ordered.mapM (examine u decimal sha _ copies drives anchors) with
            | error refused => rfl
            | ok examined =>
              have found : (examined.map (Sum.map id Artifact.erased)).flatMap (Sum.elim id fun _ => []) =
                  examined.flatMap (Sum.elim id fun _ => []) := by
                rw [List.flatMap_map]
                refine List.flatMap_congr fun result _ => ?_
                cases result <;> rfl
              have closure : (examined.map (Sum.map id Artifact.erased)).filterMap Sum.getRight? =
                  (examined.filterMap Sum.getRight?).map Artifact.erased := by
                rw [List.filterMap_map, List.map_filterMap]
                refine List.filterMap_congr fun result _ => ?_
                cases result <;> rfl
              simp only [Except.map, ok_bind, found, closure, composePreview_erased]
              rfl

end Eligibility

section Order

/-- The text of a drive as far as it comes before its eligibility. -/
def DriveFact.head (drive : DriveFact) : List Char :=
  '\x7b' :: (Json.renderText "annex_uuid" ++ ':' :: (drive.annexUuid.json.render ++ ',' ::
    (Json.renderText "drive_label" ++ ':' :: (drive.driveLabel.json.render ++ [',']))))

theorem DriveFact.text_eq (drive : DriveFact) :
    ∃ rest, (Record.text drive).toList = drive.head ++ rest := by
  refine ⟨Json.renderText "eligibility" ++ ':' :: (drive.eligibility.json.render ++
    Json.renderFields (((Record.fields drive).drop 3).map (Prod.map id Scalar.json))), ?_⟩
  simp only [Record.text, Json.dumps, String.toList_ofList, Record.json, Record.fields, List.map_cons,
    List.map_nil, Prod.map, id, Json.render, Json.renderFields, head, List.append_assoc, List.cons_append,
    List.nil_append, List.drop_succ_cons, List.drop_zero]

/-- The beginnings of two drives part where they first differ. -/
theorem DriveFact.label_eq_of_head {left right : DriveFact} (continued : left.head <+: right.head) :
    left.driveLabel = right.driveLabel := by
  obtain ⟨more, same⟩ := continued
  simp only [head, List.append_assoc, List.cons_append, List.nil_append, List.cons.injEq, true_and,
    List.append_cancel_left_eq] at same
  have comma : ∀ rest : List Char, Json.Ends (',' :: rest) := fun rest c first => by
    cases first
    rfl
  obtain ⟨_, rest⟩ := Json.render_append_inj (comma _) (comma _) same
  simp only [List.cons.injEq, true_and, List.append_cancel_left_eq] at rest
  obtain ⟨labels, _⟩ := Json.render_append_inj (comma _) (comma _) rest
  exact Scalar.json_injective labels

/-- The order of the drives of a snapshot does not depend on their eligibility. -/
theorem erased_eq_of_perm {left right : Rows DriveFact}
    (same : (left.items.map DriveFact.erased).Perm (right.items.map DriveFact.erased))
    (distinct : (left.items.map DriveFact.driveLabel).Nodup) :
    left.items.map DriveFact.erased = right.items.map DriveFact.erased := by
  have labels : (left.items.map DriveFact.driveLabel).Perm (right.items.map DriveFact.driveLabel) := by
    have mapped := same.map DriveFact.driveLabel
    rwa [List.map_map, List.map_map] at mapped
  have byHead : ∀ rows : Rows DriveFact, (rows.items.map DriveFact.driveLabel).Nodup →
      rows.items.map DriveFact.erased = sortBy DriveFact.head (rows.items.map DriveFact.erased) := by
    intro rows nodup
    have apart : ∀ x ∈ rows.items, ∀ y ∈ rows.items, x.driveLabel = y.driveLabel → x = y :=
      fun x here y there => List.inj_on_of_nodup_map nodup here there
    have sorted : sortBy Record.text rows.items = sortBy DriveFact.head rows.items := by
      apply sortBy_eq_sortBy
      · intro x here y there below
        by_cases equal : x.driveLabel = y.driveLabel
        · exact le_of_eq (congrArg DriveFact.head (apart x here y there equal))
        · obtain ⟨first, firstText⟩ := x.text_eq
          obtain ⟨second, secondText⟩ := y.text_eq
          rw [String.le_iff_toList_le, firstText, secondText] at below
          exact append_le_append (fun continued => equal (DriveFact.label_eq_of_head continued))
            (fun continued => equal (DriveFact.label_eq_of_head continued).symm) below
      · intro x here y there equal
        exact apart x here y there (DriveFact.label_eq_of_head (equal ▸ List.prefix_refl _))
    rw [sortBy_of_pairwise rows.sorted] at sorted
    calc rows.items.map DriveFact.erased = (sortBy DriveFact.head rows.items).map DriveFact.erased :=
          congrArg _ sorted
      _ = sortBy DriveFact.head (rows.items.map DriveFact.erased) :=
          sortBy_map DriveFact.erased DriveFact.head rows.items
  rw [byHead left distinct, byHead right (labels.nodup_iff.mp distinct)]
  apply sortBy_eq_of_perm same
  intro x here y there equal
  have erasedLabels : ((left.items.map DriveFact.erased).map DriveFact.driveLabel).Nodup := by
    rw [List.map_map]
    exact distinct
  exact List.inj_on_of_nodup_map erasedLabels here there (DriveFact.label_eq_of_head (equal ▸ List.prefix_refl _))

end Order

section Binding

variable {u : Unicode} {decimal : Char → Option Nat} {sha : Digester} {spec : SliceSpec}
  {left right : CatalogSnapshot}

/-- Two snapshots agree on what a request is about: on the files of the requested repositories, the copies of
    these, their drives without their eligibility, the current anchors of these and the issues. -/
structure SameRows (spec : SliceSpec) (left right : CatalogSnapshot) : Prop where
  files : (scope left spec).files.items.Perm (scope right spec).files.items
  copies : (scope left spec).copies.items.Perm (scope right spec).copies.items
  drives : ((scope left spec).drives.items.map DriveFact.erased).Perm
    ((scope right spec).drives.items.map DriveFact.erased)
  anchors : (scope left spec).anchors.items.Perm (scope right spec).anchors.items
  issues : (scope left spec).issues.items.Perm (scope right spec).issues.items

/-- The snapshots are of one catalog besides. -/
structure SameFacts (spec : SliceSpec) (left right : CatalogSnapshot) : Prop extends
    SameRows spec left right where
  catalog : left.catalogId = right.catalogId
  schema : left.schemaVersion = right.schemaVersion

/-- What a preview that is made rests on. -/
theorem preview_eq_ok {proposal : SlicePreview} (previewed : preview u decimal sha spec left = .ok proposal) :
    (left.schemaVersion = 7 ∧ left.catalogId ≠ "") ∧
      survey u decimal sha spec (scope left spec).files.items (scope left spec).copies.items
        (scope left spec).drives.items (scope left spec).anchors.items (scope left spec).issues.items
        (sourceSnapshotId sha (scope left spec)) = .ok proposal := by
  simp only [preview, bind_eq_ok, require_eq_ok] at previewed
  obtain ⟨_, valid, surveyed⟩ := previewed
  exact ⟨by simpa using valid, surveyed⟩

/-- What a survey that is made consists of. -/
theorem survey_eq_ok {files : List FileFact} {copies : List CopyFact} {drives : List DriveFact}
    {anchors : List AnchorFact} {issues : List Gap} {snapshotId : String} {proposal : SlicePreview}
    (surveyed : survey u decimal sha spec files copies drives anchors issues snapshotId = .ok proposal) :
    (files.map fun file => file.key.map Scalar.plain).Nodup ∧ (drives.map DriveFact.driveLabel).Nodup ∧
      ∃ (selected ordered : List FileFact) (requested : List Gap) (examined : List (List Gap ⊕ Artifact)),
        selected = files.filter (fun file => spec.requests file.repoId) ∧ ordered.Perm selected ∧
        requested = issues.filter (fun gap => spec.requests gap.repoId) ∧
        ordered.mapM (examine u decimal sha (selected.filterMap outputPath) copies drives anchors) =
          .ok examined ∧
        composePreview sha spec snapshotId (examined.filterMap Sum.getRight?)
          (requested ++ unlisted spec selected requested ++ examined.flatMap (Sum.elim id fun _ => [])) =
          proposal := by
  simp only [survey, bind_eq_ok] at surveyed
  obtain ⟨files', filesIndexed, copies', copiesIndexed, drives', drivesIndexed, anchors', anchorsIndexed,
    ordered, sorted, examined, found, composed⟩ := surveyed
  obtain ⟨rfl, fileKeys⟩ := index_eq_ok filesIndexed
  obtain ⟨rfl, _⟩ := index_eq_ok copiesIndexed
  obtain ⟨rfl, driveKeys⟩ := index_eq_ok drivesIndexed
  obtain ⟨rfl, _⟩ := index_eq_ok anchorsIndexed
  have labels : (drives'.map DriveFact.driveLabel).Nodup := by
    refine List.Nodup.of_map (fun label => [label.plain]) ?_
    rw [List.map_map]
    exact driveKeys
  cases sortable : sortedByTuple FileFact.key (files'.filter fun file => spec.requests file.repoId) with
  | none =>
      rw [sortable] at sorted
      cases sorted
  | some sequence =>
      rw [sortable] at sorted
      cases sorted
      exact ⟨fileKeys, labels, _, ordered, _, examined, rfl, sortedByTuple_perm sortable, rfl, found,
        pure_eq_ok.mp composed⟩

/-- Agreeing snapshots have previews that differ in the eligibility of sources at most. -/
theorem preview_of_same (same : SameFacts spec left right) {proposal : SlicePreview}
    (previewed : preview u decimal sha spec left = .ok proposal) :
    ∃ other, preview u decimal sha spec right = .ok other ∧ other.erased = proposal.erased := by
  obtain ⟨valid, surveyed⟩ := preview_eq_ok previewed
  obtain ⟨_, labels, _⟩ := survey_eq_ok surveyed
  have files : (scope left spec).files = (scope right spec).files := Rows.ext_perm same.files
  have copies : (scope left spec).copies = (scope right spec).copies := Rows.ext_perm same.copies
  have anchors : (scope left spec).anchors = (scope right spec).anchors := Rows.ext_perm same.anchors
  have issues : (scope left spec).issues = (scope right spec).issues := Rows.ext_perm same.issues
  have drives := erased_eq_of_perm same.drives labels
  have evidence : (scope left spec).drives.items.map DriveFact.evidence =
      (scope right spec).drives.items.map DriveFact.evidence := by
    have mapped := congrArg (List.map DriveFact.evidence) drives
    simpa only [List.map_map, Function.comp_def, DriveFact.evidence_erased] using mapped
  have snapshotId : sourceSnapshotId sha (scope left spec) = sourceSnapshotId sha (scope right spec) := by
    have catalog : (scope left spec).catalogId = (scope right spec).catalogId := same.catalog
    have schema : (scope left spec).schemaVersion = (scope right spec).schemaVersion := same.schema
    simp only [sourceSnapshotId, files, copies, anchors, issues, evidence, catalog, schema]
  have here : survey u decimal sha spec (scope left spec).files.items (scope left spec).copies.items
      ((scope left spec).drives.items.map DriveFact.erased) (scope left spec).anchors.items
      (scope left spec).issues.items (sourceSnapshotId sha (scope left spec)) = .ok proposal.erased := by
    rw [survey_erased, surveyed]
    rfl
  rw [drives, files, copies, anchors, issues, snapshotId, survey_erased] at here
  obtain ⟨other, surveyedThere, erased⟩ := map_eq_ok.mp here
  refine ⟨other, ?_, erased⟩
  have schema : right.schemaVersion = 7 := same.schema ▸ valid.1
  have catalog : right.catalogId ≠ "" := same.catalog ▸ valid.2
  simp [preview, schema, catalog, require, surveyedThere]

/-- The id of a scoped snapshot determines it, but for the order of its rows and eligibility. -/
theorem same_of_snapshotId (injective : Function.Injective sha.hash)
    (equal : sourceSnapshotId sha (scope left spec) = sourceSnapshotId sha (scope right spec)) :
    SameFacts spec left right := by
  have fields := Json.fields_of_dict_eq (Json.dumps_injective (injective equal)) rfl (by simp)
  simp only [List.cons.injEq, Prod.mk.injEq, true_and, and_true, Json.str.injEq, Json.int.injEq,
    Json.arr.injEq] at fields
  obtain ⟨catalog, files, copies, drives, anchors, issues, schema⟩ := fields
  have rows : ∀ {α : Type} [Record α] {left right : List α}, left.map Record.json = right.map Record.json →
      left.Perm right := by
    intro α _ left right same
    rw [List.map_injective_iff.mpr Record.json_injective same]
  have erased : ∀ {left right : List DriveFact}, left.map DriveFact.evidence = right.map DriveFact.evidence →
      left.map DriveFact.erased = right.map DriveFact.erased := by
    intro left right same
    rw [← List.forall₂_eq_eq_eq, List.forall₂_map_left_iff, List.forall₂_map_right_iff] at same ⊢
    exact same.imp fun _ _ => DriveFact.evidence_inj
  exact ⟨⟨rows files, rows copies, .of_eq (erased drives), rows anchors, rows issues⟩, catalog, schema⟩

theorem snapshotId_of_preview {proposal : SlicePreview}
    (previewed : preview u decimal sha spec left = .ok proposal) :
    proposal.spec = spec ∧ proposal.snapshotId = sourceSnapshotId sha (scope left spec) ∧
      proposal.version = domainVersion ∧ proposal.sealHash = sha.hash proposal.canonicalBytes := by
  obtain ⟨_, surveyed⟩ := preview_eq_ok previewed
  obtain ⟨_, _, selected, ordered, requested, examined, _, _, _, _, rfl⟩ := survey_eq_ok surveyed
  exact ⟨rfl, rfl, rfl, rfl⟩

/-- Under a collision-free digest only agreeing snapshots have previews with one seal. -/
theorem same_of_seal (injective : Function.Injective sha.hash) {proposal other : SlicePreview}
    (previewed : preview u decimal sha spec left = .ok proposal)
    (previewed' : preview u decimal sha spec right = .ok other) (equal : proposal.sealHash = other.sealHash) :
    SameFacts spec left right := by
  obtain ⟨_, leftId, _, leftSeal⟩ := snapshotId_of_preview previewed
  obtain ⟨_, rightId, _, rightSeal⟩ := snapshotId_of_preview previewed'
  rw [leftSeal, rightSeal] at equal
  have fields := Json.fields_of_dict_eq (Json.dumps_injective (injective equal)) rfl (by simp)
  simp only [List.cons.injEq, Prod.mk.injEq, true_and, Json.str.injEq] at fields
  apply same_of_snapshotId injective
  rw [← leftId, ← rightId, fields.2.1]

end Binding

section Readiness

variable {u : Unicode} {decimal : Char → Option Nat} {sha : Digester} {spec : SliceSpec}
  {snapshot : CatalogSnapshot} {file : FileFact} {copy : CopyFact}

theorem elim_eq_ok {ε α : Type} {found : Option α} {refused : ε} {value : α}
    (taken : found.elim (Except.error refused) Except.ok = .ok value) : found = some value := by
  cases found with
  | none => cases taken
  | some _ =>
      cases taken
      rfl

/-- A copy that qualifies has the digest that its evidence gives. -/
theorem qualify_digest {drive : DriveFact} {anchors : List AnchorFact} {digest proof : String}
    {anchor : AnchorFact}
    (qualified : qualify u decimal sha file copy drive anchors = .ok (digest, anchor, proof)) :
    ∃ original, originalDigest u file copy = .ok (some original) ∧ u.lower original = digest := by
  simp only [qualify, bind_eq_ok, require_eq_ok, pure_eq_ok, Prod.mk.injEq] at qualified
  obtain ⟨_, _, _, _, _, _, _, _, _, _, _, _, _, _, _, _, _, _, _, _, found, resolved, _, _, original, known,
    _, _, same, _⟩ := qualified
  cases expected : originalDigest u file copy with
  | error refused =>
      rw [expected] at resolved
      cases resolved
  | ok value =>
      rw [expected] at resolved
      cases resolved
      exact ⟨original, congrArg Except.ok (elim_eq_ok known), same⟩

theorem sourceOf_digest {drive : Option DriveFact} {anchors : List AnchorFact} {digest : String}
    {source : SourceEvidence} (found : sourceOf u decimal sha file copy drive anchors = .ok (digest, source)) :
    source.copy = copy ∧ ∃ original, originalDigest u file copy = .ok (some original) ∧
      u.lower original = digest := by
  simp only [sourceOf, bind_eq_ok] at found
  obtain ⟨_, _, judged⟩ := found
  cases drive with
  | none => cases judged
  | some drive =>
      simp only [bind_eq_ok] at judged
      obtain ⟨⟨_, anchor, proof⟩, qualified, same⟩ := judged
      cases same
      exact ⟨rfl, qualify_digest qualified⟩

/-- An artifact that serves a file of the manifest: it has sources, all of them copies of this file whose
    evidence gives the one digest of the artifact. -/
structure Artifact.Serves (u : Unicode) (copies : List CopyFact) (file : FileFact) (artifact : Artifact) :
    Prop where
  repoId : artifact.repoId = file.repoId
  rfilename : artifact.rfilename = file.rfilename
  sizeBytes : artifact.sizeBytes = file.sizeBytes
  nonempty : artifact.sources ≠ []
  agree : ∀ source ∈ artifact.sources, source.copy ∈ copies ∧ sameKey source.copy.fileKey file.key = true ∧
    ∃ original, originalDigest u file source.copy = .ok (some original) ∧ u.lower original = artifact.sha256

/-- A file has a gap of its own, or it is up to its candidates. -/
theorem examine_cases {outputs : List String} {copies : List CopyFact} {drives : List DriveFact}
    {anchors : List AnchorFact} {result : List Gap ⊕ Artifact}
    (examined : examine u decimal sha outputs copies drives anchors file = .ok result) :
    (∃ gap, result = .inl [gap]) ∨
      resolve file ((copies.filter fun copy => sameKey copy.fileKey file.key).map fun copy =>
        sourceOf u decimal sha file copy (lookupKey DriveFact.key drives [copy.driveLabel]) anchors) =
          .ok result := by
  unfold examine at examined
  split at examined
  · cases examined
    exact .inl ⟨_, rfl⟩
  · split at examined
    · cases examined
      exact .inl ⟨_, rfl⟩
    · split at examined
      · cases examined
        exact .inl ⟨_, rfl⟩
      · split at examined
        · cases examined
          exact .inl ⟨_, rfl⟩
        · exact .inr examined

/-- The candidates leave a gap, or all that qualify are the sources of the artifact. -/
theorem resolve_cases {candidates : List (Except Gap (String × SourceEvidence))}
    {result : List Gap ⊕ Artifact} (resolved : resolve file candidates = .ok result) :
    (∃ gap gaps, result = .inl (gap :: gaps)) ∨
      ∃ artifact : Artifact, result = .inr artifact ∧ artifact.repoId = file.repoId ∧
        artifact.rfilename = file.rfilename ∧ artifact.sizeBytes = file.sizeBytes ∧ artifact.sources ≠ [] ∧
        ∀ source ∈ artifact.sources, .ok (artifact.sha256, source) ∈ candidates := by
  unfold resolve at resolved
  split at resolved
  · cases resolved
    split
    · exact .inl ⟨_, _, rfl⟩
    · rename_i rejected
      obtain ⟨gap, gaps, same⟩ := List.exists_cons_of_ne_nil rejected
      exact .inl ⟨gap, gaps, congrArg _ same⟩
  · rename_i digest source available found
    unfold agreed at resolved
    split at resolved
    · cases resolved
      exact .inl ⟨_, _, rfl⟩
    · rename_i agree
      cases sorted : sortedByTuple (fun source : SourceEvidence => [source.drive.driveLabel])
          (((digest, source) :: available).map Prod.snd) with
      | none =>
          rw [sorted] at resolved
          cases resolved
      | some sources =>
          rw [sorted] at resolved
          cases resolved
          have perm := sortedByTuple_perm sorted
          refine .inr ⟨_, rfl, rfl, rfl, rfl, ?_, ?_⟩
          · intro none
            have empty : sources = [] := none
            rw [empty] at perm
            exact absurd perm.length_eq (by simp)
          · intro chosen listed
            obtain ⟨⟨digest', chosen'⟩, member, rfl⟩ := List.mem_map.mp (perm.mem_iff.mp listed)
            have same : digest' = digest := by
              by_contra different
              exact agree (List.any_eq_true.mpr ⟨_, member, by simpa using different⟩)
            rw [← found] at member
            obtain ⟨candidate, candidates, taken⟩ := List.mem_filterMap.mp member
            cases candidate with
            | error refused => cases taken
            | ok value =>
                cases taken
                exact same ▸ candidates

/-- A file that is examined leaves a gap, or it has its artifact. -/
theorem examine_serves {outputs : List String} {copies : List CopyFact} {drives : List DriveFact}
    {anchors : List AnchorFact} {result : List Gap ⊕ Artifact}
    (examined : examine u decimal sha outputs copies drives anchors file = .ok result) :
    (∃ gap gaps, result = .inl (gap :: gaps)) ∨
      ∃ artifact, result = .inr artifact ∧ artifact.Serves u copies file := by
  rcases examine_cases examined with ⟨gap, rfl⟩ | resolved
  · exact .inl ⟨gap, [], rfl⟩
  · rcases resolve_cases resolved with gaps | ⟨artifact, rfl, repo, name, size, nonempty, sources⟩
    · exact .inl gaps
    · refine .inr ⟨artifact, rfl, repo, name, size, nonempty, fun source listed => ?_⟩
      obtain ⟨copy, kept, judged⟩ := List.mem_map.mp (sources source listed)
      obtain ⟨held, own⟩ := List.mem_filter.mp kept
      obtain ⟨same, digest⟩ := sourceOf_digest judged
      rw [same]
      exact ⟨held, own, digest⟩

theorem mapM_forall₂ {ε α β : Type} {f : α → Except ε β} {items : List α} {results : List β}
    (mapped : items.mapM f = .ok results) : List.Forall₂ (fun item result => f item = .ok result) items results := by
  induction items generalizing results with
  | nil =>
      cases mapped
      exact .nil
  | cons item items ih =>
      rw [List.mapM_cons, bind_eq_ok] at mapped
      obtain ⟨result, first, rest⟩ := mapped
      obtain ⟨others, later, same⟩ := bind_eq_ok.mp rest
      cases same
      exact .cons first (ih later)

/-- Without gaps every file that was examined has its artifact. -/
theorem closure_serves {outputs : List String} {copies : List CopyFact} {drives : List DriveFact}
    {anchors : List AnchorFact} {files : List FileFact} {examined : List (List Gap ⊕ Artifact)}
    (found : List.Forall₂ (fun file result => examine u decimal sha outputs copies drives anchors file =
      .ok result) files examined) (clear : examined.flatMap (Sum.elim id fun _ => []) = []) :
    List.Forall₂ (fun file artifact => artifact.Serves u copies file) files
      (examined.filterMap Sum.getRight?) := by
  induction found with
  | nil => exact .nil
  | cons first rest ih =>
      rcases examine_serves first with ⟨gap, gaps, rfl⟩ | ⟨artifact, rfl, serves⟩
      · simp at clear
      · exact .cons serves (ih (by simpa using clear))

theorem keys_of_serves {copies : List CopyFact} {files : List FileFact} {closure : List Artifact}
    (serves : List.Forall₂ (fun file artifact => artifact.Serves u copies file) files closure) :
    closure.map (fun artifact => (artifact.repoId, artifact.rfilename)) =
      files.map fun file => (file.repoId, file.rfilename) := by
  induction serves with
  | nil => rfl
  | cons first rest ih => rw [List.map_cons, List.map_cons, ih, first.repoId, first.rfilename]

theorem exists_of_forall₂ {α β : Type} {related : α → β → Prop} {items : List α} {results : List β}
    (all : List.Forall₂ related items results) {result : β} (listed : result ∈ results) :
    ∃ item ∈ items, related item result := by
  induction all with
  | nil => cases listed
  | cons first rest ih =>
      cases listed with
      | head => exact ⟨_, List.mem_cons_self, first⟩
      | tail _ later =>
          obtain ⟨item, member, found⟩ := ih later
          exact ⟨item, List.mem_cons_of_mem _ member, found⟩

/-- The artifacts of distinct files are found under the names of these, each once. -/
theorem count_of_serves {copies : List CopyFact} {files : List FileFact} {closure : List Artifact}
    (serves : List.Forall₂ (fun file artifact => artifact.Serves u copies file) files closure)
    (distinct : (files.map fun file => (file.repoId, file.rfilename)).Nodup) (member : file ∈ files) :
    (closure.countP fun artifact =>
      artifact.repoId == file.repoId && artifact.rfilename == file.rfilename) = 1 ∧
    ∀ artifact ∈ closure, artifact.repoId = file.repoId → artifact.rfilename = file.rfilename →
      artifact.Serves u copies file := by
  constructor
  · have count := List.count_eq_one_of_mem distinct (List.mem_map_of_mem member)
    rw [← keys_of_serves serves, List.count, List.countP_map] at count
    exact count
  · intro artifact listed repo name
    obtain ⟨other, found, served⟩ := exists_of_forall₂ serves listed
    have same : other = file := List.inj_on_of_nodup_map distinct found member
      (Prod.ext (served.repoId.symm.trans repo) (served.rfilename.symm.trans name))
    exact same ▸ served

theorem rows_of_eq_nil {α : Type} [Record α] {items : List α} (empty : (Rows.of items).items = []) :
    items = [] :=
  sortBy_eq_nil.mp empty

/-- A request is ready only with exactly one artifact for each of its files, all of whose sources agree, and with
    files of every repository. -/
theorem ready_serves {proposal : SlicePreview} (previewed : preview u decimal sha spec snapshot = .ok proposal)
    (ready : proposal.sourceReady = true) {repo : String} (requested : repo ∈ spec.repoIds) :
    (∃ file ∈ snapshot.files.items, file.repoId = .str repo) ∧
      ∀ file ∈ snapshot.files.items, file.repoId = .str repo →
        (proposal.closure.countP fun artifact =>
          artifact.repoId == file.repoId && artifact.rfilename == file.rfilename) = 1 ∧
        ∀ artifact ∈ proposal.closure, artifact.repoId = file.repoId → artifact.rfilename = file.rfilename →
          artifact.Serves u snapshot.copies.items file := by
  obtain ⟨_, surveyed⟩ := preview_eq_ok previewed
  obtain ⟨fileKeys, _, selected, ordered, issues, examined, rfl, permuted, _, found, rfl⟩ :=
    survey_eq_ok surveyed
  have clear : (Rows.of (issues ++ unlisted spec ((scope snapshot spec).files.items.filter fun file =>
      spec.requests file.repoId) issues ++ examined.flatMap (Sum.elim id fun _ => []))).items = [] := by
    have both := (Bool.and_eq_true _ _).mp ready
    exact beq_iff_eq.mp both.2
  obtain ⟨before, noGaps⟩ := List.append_eq_nil_iff.mp (rows_of_eq_nil clear)
  obtain ⟨noIssues, listed⟩ := List.append_eq_nil_iff.mp before
  have serves := closure_serves (mapM_forall₂ found) noGaps
  have distinct : (ordered.map fun file => (file.repoId, file.rfilename)).Nodup := by
    have whole : ((scope snapshot spec).files.items.map fun file => (file.repoId, file.rfilename)).Nodup := by
      refine List.Nodup.of_map (fun pair => [pair.1.plain, pair.2.plain]) ?_
      rw [List.map_map]
      exact fileKeys
    refine (permuted.map _).nodup_iff.mpr (whole.sublist (List.filter_sublist.map _))
  have requests : ∀ file : FileFact, file.repoId = .str repo → spec.requests file.repoId = true :=
    fun file own => by
      rw [own]
      exact List.contains_iff_mem.mpr requested
  constructor
  · have quiet := List.filter_eq_nil_iff.mp (List.map_eq_nil_iff.mp listed) repo requested
    rw [noIssues] at quiet
    simp only [List.any_nil, Bool.not_false, Bool.and_true, Bool.not_eq_true', Bool.not_eq_false] at quiet
    obtain ⟨file, member, own⟩ := List.any_eq_true.mp quiet
    exact ⟨file, (Rows.mem_filter.mp (List.mem_of_mem_filter member)).1, beq_iff_eq.mp own⟩
  · intro file member own
    have examinedToo : file ∈ ordered := by
      have kept := requests file own
      exact permuted.mem_iff.mpr (List.mem_filter.mpr ⟨Rows.mem_filter.mpr ⟨member, kept⟩, kept⟩)
    obtain ⟨once, all⟩ := count_of_serves serves distinct examinedToo
    refine ⟨once, fun artifact found repo name => ?_⟩
    have served := all artifact found repo name
    exact { served with agree := fun source listed =>
      ⟨(Rows.mem_filter.mp (served.agree source listed).1).1, (served.agree source listed).2⟩ }

end Readiness

section Approvals

variable {u : Unicode} {decimal : Char → Option Nat} {sha : Digester} {spec : SliceSpec}
  {left right : CatalogSnapshot} {proposal : SlicePreview}

/-- An approval is given for a proposal that the current snapshot still has. -/
theorem approve_eq_ok {expectedSeal : String} {snapshot : CatalogSnapshot} {approval : SliceApproval} :
    approve u decimal sha proposal expectedSeal snapshot = .ok approval ↔
      (proposal.version = domainVersion ∧ proposal.sealHash = sha.hash proposal.canonicalBytes) ∧
        expectedSeal = proposal.sealHash ∧ proposal.sourceReady = true ∧
        (∃ current, preview u decimal sha proposal.spec snapshot = .ok current ∧
          current.sealHash = proposal.sealHash) ∧
        approval = ⟨proposal.sealHash, "domain", domainVersion⟩ := by
  simp only [approve, verify, bind_eq_ok, require_eq_ok, pure_eq_ok, Bool.and_eq_true, beq_iff_eq]
  constructor
  · rintro ⟨_, whole, _, reviewed, _, ready, current, previewed, _, same, rfl⟩
    exact ⟨whole, reviewed, ready, ⟨current, previewed, same⟩, rfl⟩
  · rintro ⟨whole, reviewed, ready, ⟨current, previewed, same⟩, rfl⟩
    exact ⟨(), whole, (), reviewed, (), ready, current, previewed, (), same, rfl⟩

/-- What is approved validates. -/
theorem validate_of_approve {expectedSeal : String} {snapshot : CatalogSnapshot} {approval : SliceApproval}
    (approved : approve u decimal sha proposal expectedSeal snapshot = .ok approval) :
    validateApproval sha proposal approval = .ok () := by
  obtain ⟨⟨version, whole⟩, _, ready, _, rfl⟩ := approve_eq_ok.mp approved
  simp [validateApproval, verify, require, version, ← whole, ready]

/-- A preview is bound to the facts of its request, whatever else changes in the catalog; it is ready only with the
    whole manifest. -/
theorem preview_binds_facts (previewed : preview u decimal sha spec left = .ok proposal) :
    (SameFacts spec left right →
      (∃ other, preview u decimal sha spec right = .ok other ∧ other.sealHash = proposal.sealHash) ∧
        (proposal.sourceReady = true → approve u decimal sha proposal proposal.sealHash right =
          .ok ⟨proposal.sealHash, "domain", domainVersion⟩)) ∧
    (Function.Injective sha.hash → ¬SameFacts spec left right →
      (∀ other, preview u decimal sha spec right = .ok other → other.sealHash ≠ proposal.sealHash) ∧
        ∀ expectedSeal, ∃ refused, approve u decimal sha proposal expectedSeal right = .error refused) ∧
    (proposal.sourceReady = true → ∀ repo ∈ spec.repoIds,
      (∃ file ∈ left.files.items, file.repoId = .str repo) ∧
        ∀ file ∈ left.files.items, file.repoId = .str repo →
          (proposal.closure.countP fun artifact =>
            artifact.repoId == file.repoId && artifact.rfilename == file.rfilename) = 1 ∧
          ∀ artifact ∈ proposal.closure, artifact.repoId = file.repoId →
            artifact.rfilename = file.rfilename → artifact.Serves u left.copies.items file) := by
  obtain ⟨own, _, version, whole⟩ := snapshotId_of_preview previewed
  refine ⟨fun same => ?_, fun injective different => ?_, fun ready repo requested => ?_⟩
  · obtain ⟨other, previewedThere, erased⟩ := preview_of_same same previewed
    have equal : other.sealHash = proposal.sealHash := by
      have hashes := congrArg SlicePreview.sealHash erased
      exact hashes
    refine ⟨⟨other, previewedThere, equal⟩, fun ready => ?_⟩
    exact approve_eq_ok.mpr ⟨⟨version, whole⟩, rfl, ready, ⟨other, own ▸ previewedThere, equal⟩, rfl⟩
  · have apart : ∀ other, preview u decimal sha spec right = .ok other →
        other.sealHash ≠ proposal.sealHash :=
      fun other previewedThere equal =>
        different (same_of_seal injective previewed previewedThere equal.symm)
    refine ⟨apart, fun expectedSeal => ?_⟩
    cases approved : approve u decimal sha proposal expectedSeal right with
    | error refused => exact ⟨refused, rfl⟩
    | ok approval =>
        obtain ⟨_, _, _, ⟨current, previewedThere, equal⟩, _⟩ := approve_eq_ok.mp approved
        exact absurd equal (apart current (own ▸ previewedThere))
  · exact ready_serves previewed ready requested

end Approvals

section Sample

def asciiDecimal (c : Char) : Option Nat :=
  if c.isDigit then some (c.toNat - 48) else none

def sampleSpec : SliceSpec where
  repoIds := ["o/m"]
  destinationId := "usb"
  destinationRoot := "models"
  sorted := List.pairwise_singleton _ _
  nonempty := by decide
  repos := by decide +kernel
  root := by decide +kernel

def emptyCatalog (catalogId : String) : CatalogSnapshot :=
  ⟨catalogId, .of [], .of [], .of [], .of [], .of [], 7⟩

/-- The catalog is part of what is sealed: the same rows from another catalog have another seal. -/
theorem catalogs_part_seals : ∃ proposal other,
    SameRows sampleSpec (emptyCatalog "a") (emptyCatalog "b") ∧
      preview asciiUnicode asciiDecimal marked sampleSpec (emptyCatalog "a") = .ok proposal ∧
      preview asciiUnicode asciiDecimal marked sampleSpec (emptyCatalog "b") = .ok other ∧
      proposal.sealHash ≠ other.sealHash := by
  obtain ⟨proposal, previewed⟩ : ∃ proposal,
      preview asciiUnicode asciiDecimal marked sampleSpec (emptyCatalog "a") = .ok proposal := ⟨_, rfl⟩
  obtain ⟨other, previewedThere⟩ : ∃ other,
      preview asciiUnicode asciiDecimal marked sampleSpec (emptyCatalog "b") = .ok other := ⟨_, rfl⟩
  refine ⟨proposal, other, ⟨.refl _, .refl _, .refl _, .refl _, .refl _⟩, previewed, previewedThere, ?_⟩
  intro equal
  have same := same_of_seal marked_injective previewed previewedThere equal
  exact absurd same.catalog (by decide)

def digestA : String := String.ofList (List.replicate 64 'a')

def sampleDrive (eligibility : String) : DriveFact :=
  ⟨.str "d", .str "fs", .null, .null, .int 1, .int 2,
    .str (identityFingerprintV1 marked (.str "fs") .null .null (.int 9)), .int 9, .str "dedicated_local",
    .str "active", .str eligibility⟩

def sampleSnapshot (size : Int) (eligibility : String) (issues : List Gap) : CatalogSnapshot where
  catalogId := "a"
  files := .of [⟨.str "o/m", .str "w", .int size, .str digestA, .null, .null⟩]
  copies := .of [⟨.str "o/m", .str "w", .str "d", .str "w", .int 3, .int 3, .str digestA, .str "annex_key", .null,
    .bool false, .null⟩]
  drives := .of [sampleDrive eligibility]
  anchors := .of [⟨.str "d", .int 1, .int 2,
    .str (identityFingerprintV1 marked (.str "fs") .null .null (.int 9)), .int 9, .str "dedicated_local",
    .str "x"⟩]
  issues := .of issues
  schemaVersion := 7

def unrelatedGap : Gap :=
  ⟨.str "p/q", .null, .str "MANIFEST_UNAVAILABLE", .null, .str ""⟩

theorem sample_same : SameFacts sampleSpec (sampleSnapshot 3 "enabled" [])
    (sampleSnapshot 3 "excluded" [unrelatedGap]) where
  files := by decide +kernel
  copies := by decide +kernel
  drives := by decide +kernel
  anchors := by decide +kernel
  issues := by decide +kernel
  catalog := rfl
  schema := rfl

theorem sample_different : ¬SameFacts sampleSpec (sampleSnapshot 3 "enabled" [])
    (sampleSnapshot 4 "enabled" []) := by
  intro same
  exact absurd same.files (by decide +kernel)

theorem sample_binds_facts : ∃ proposal,
    preview asciiUnicode asciiDecimal marked sampleSpec (sampleSnapshot 3 "enabled" []) = .ok proposal ∧
      proposal.sourceReady = true ∧
      approve asciiUnicode asciiDecimal marked proposal proposal.sealHash
        (sampleSnapshot 3 "excluded" [unrelatedGap]) = .ok ⟨proposal.sealHash, "domain", domainVersion⟩ ∧
      ∃ refused, approve asciiUnicode asciiDecimal marked proposal proposal.sealHash
        (sampleSnapshot 4 "enabled" []) = .error refused := by
  have ready : (preview asciiUnicode asciiDecimal marked sampleSpec
      (sampleSnapshot 3 "enabled" [])).toOption.any SlicePreview.sourceReady = true := by
    decide +kernel
  cases previewed : preview asciiUnicode asciiDecimal marked sampleSpec (sampleSnapshot 3 "enabled" []) with
  | error refused =>
      rw [previewed] at ready
      cases ready
  | ok proposal =>
      rw [previewed] at ready
      obtain ⟨agreeing, _, _⟩ := preview_binds_facts previewed
      obtain ⟨_, differing, _⟩ := preview_binds_facts previewed
      exact ⟨proposal, rfl, ready, (agreeing sample_same).2 ready,
        (differing marked_injective sample_different).2 proposal.sealHash⟩

end Sample

end Modelark.Slice.Domain
