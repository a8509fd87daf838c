import Modelark.Placement.Construction

/-!
# Outcomes of candidate construction

Every desired requirement is satisfied, open or blocked, and exactly one of the three. A candidate of
an open requirement names a placeable drive with nothing unproven on it and accounts for the whole
manifest there, and a requirement is blocked only for the reason it is reported with.
-/

open Modelark.Archive

namespace Modelark.Planning.PlannerInput

open Library

variable {inp : PlannerInput} {u : Unicode} {graph : RequirementGraph} {req : CopyRequirement}

section Rows

/-- A file without a row in the dictionary has no row in the archive at all. -/
theorem rowOf_eq_none {repo label rfilename : String} : inp.rowOf repo label rfilename = none ↔
    ∀ row ∈ inp.archived, ¬(row.repoId = repo ∧ row.driveLabel = label ∧ row.rfilename = rfilename) := by
  simp only [rowOf, rowsOn, List.find?_eq_none, List.mem_reverse, List.mem_filter, Bool.and_eq_true,
    beq_iff_eq, not_and, and_imp]

theorem verdict_missing {repo label : String} {mf : ManifestFile} :
    inp.verdict u repo label mf = .missing ↔ inp.rowOf repo label mf.rfilename = none := by
  unfold verdict
  cases inp.rowOf repo label mf.rfilename with
  | none => simp [proof]
  | some row =>
      simp only [proof]
      split_ifs <;> simp

theorem verdict_proven {repo label : String} {mf : ManifestFile} :
    inp.verdict u repo label mf = .proven ↔ ∃ row, inp.rowOf repo label mf.rfilename = some row ∧
      row.origBytes = some mf.sizeBytes ∧ satisfiedBy u mf.sha256 row = true := by
  unfold verdict
  cases inp.rowOf repo label mf.rfilename with
  | none => simp [proof]
  | some row =>
      simp only [proof]
      split_ifs with size evidence <;> simp_all

end Rows

section Tiers

/-- The role that a requirement asks of its drives. -/
def servesTier (kind : RequirementKind) (drive : DriveFact) : Bool :=
  match kind with
  | .protectedReplica => isReplica drive
  | _ => isPrimary drive

/-- The drive behind a label, of the tier of a requirement and open for writing. -/
def EligibleDrive (inp : PlannerInput) (kind : RequirementKind) (label : String) : Prop :=
  ∃ drive, inp.byLabel[label]? = some drive ∧ servesTier kind drive = true ∧ isPlaceable drive = true

theorem mem_labelsWhere {p : DriveFact → Bool} {label : String} :
    label ∈ inp.labelsWhere p ↔ ∃ drive, inp.byLabel[label]? = some drive ∧ p drive = true := by
  simp only [labelsWhere, labels, List.mem_filter, mem_sortedSet, Option.any_eq_true]
  refine and_iff_right_of_imp ?_
  rintro ⟨drive, found, _⟩
  obtain ⟨other, listed, same⟩ := List.mem_map.mp (Dict.mem_of_lookup_ofPairs found)
  exact List.mem_map.mpr ⟨other, listed, congrArg Prod.fst same⟩

theorem mem_largest {labels : List String} {label : String} (member : label ∈ inp.largest labels) :
    label ∈ labels :=
  mem_sortBy.mp (List.mem_of_mem_take member)

theorem mem_homes {primary : List String} {label : String} (member : label ∈ inp.homes primary) :
    label ∈ primary := by
  unfold homes at member
  split at member
  · exact mem_largest member
  · exact List.mem_of_mem_filter member

theorem homes_eq_nil {primary : List String} : inp.homes primary = [] ↔ primary = [] := by
  constructor
  · intro empty
    unfold homes at empty
    split at empty
    · simpa [largest] using empty
    · contradiction
  · rintro rfl
    simp [homes, largest]

theorem eligible_of_desired {repo : String} (member : req ∈ inp.desiredOf repo) {label : String}
    (eligible : label ∈ req.eligibleDrives) : inp.EligibleDrive req.kind label := by
  unfold desiredOf at member
  dsimp only at member
  split_ifs at member <;> simp only [List.mem_cons, List.not_mem_nil, or_false] at member
  · subst member
    simpa [EligibleDrive, servesTier] using mem_labelsWhere.mp eligible
  · rcases member with rfl | rfl
    · simpa [EligibleDrive, servesTier] using mem_labelsWhere.mp (mem_homes eligible)
    · simpa [EligibleDrive, servesTier] using mem_labelsWhere.mp eligible

/-- A requirement without eligible drives has no active, enabled drive in its whole tier. -/
theorem no_eligible_of_desired {repo : String} (member : req ∈ inp.desiredOf repo)
    (none : req.eligibleDrives = []) (label : String) : ¬inp.EligibleDrive req.kind label := by
  have tier : ∀ p : DriveFact → Bool, inp.labelsWhere p = [] →
      ¬∃ drive, inp.byLabel[label]? = some drive ∧ p drive = true := by
    intro p empty found
    have listed := mem_labelsWhere.mpr found
    rw [empty] at listed
    cases listed
  unfold desiredOf at member
  dsimp only at member
  split_ifs at member <;> simp only [List.mem_cons, List.not_mem_nil, or_false] at member
  · subst member
    simpa [EligibleDrive, servesTier] using tier _ none
  · rcases member with rfl | rfl
    · simpa [EligibleDrive, servesTier] using tier _ (homes_eq_nil.mp none)
    · simpa [EligibleDrive, servesTier] using tier _ none

end Tiers

section Holdings

theorem reused_of_holding {label : String} :
    ((inp.holding u req label).reused.map fun file => (file.rfilename, file.sizeBytes)).Perm
      (((inp.manifestOf req.repoId).filter fun mf =>
        inp.verdict u req.repoId label mf = .proven).map fun mf => (mf.rfilename, mf.sizeBytes)) := by
  refine ((sortBy_perm ReusableFile.rfilename _).map _).trans ?_
  rw [List.map_filterMap]
  apply List.Perm.of_eq
  induction inp.manifestOf req.repoId with
  | nil => rfl
  | cons mf rest ih =>
      by_cases proven : inp.verdict u req.repoId label mf = .proven
      · obtain ⟨row, found, _⟩ := verdict_proven.mp proven
        have same : (reusable u mf row).rfilename = mf.rfilename ∧
            (reusable u mf row).sizeBytes = mf.sizeBytes := by
          unfold reusable
          cases mf.sha256 <;> cases row.origSha256 <;> exact ⟨rfl, rfl⟩
        simp [proven, found, same, ih]
      · simp [proven, ih]

/-- On a drive without unproven rows, what is reused and what is missing make up the manifest. -/
theorem perm_of_holding {label : String} (unproven : (inp.holding u req label).unproven = []) :
    ((inp.holding u req label).reused.map (fun file => (file.rfilename, file.sizeBytes)) ++
      (inp.holding u req label).missing.map fun mf => (mf.rfilename, mf.sizeBytes)).Perm
        ((inp.manifestOf req.repoId).map fun mf => (mf.rfilename, mf.sizeBytes)) := by
  have rest : (inp.manifestOf req.repoId).filter (fun mf =>
      inp.verdict u req.repoId label mf = .missing) = (inp.manifestOf req.repoId).filter fun mf =>
        !decide (inp.verdict u req.repoId label mf = .proven) := by
    refine List.filter_congr fun mf listed => ?_
    have known : inp.verdict u req.repoId label mf ≠ .unproven := fun bad => by
      have among : mf ∈ (inp.holding u req label).unproven := by simp [holding, listed, bad]
      rw [unproven] at among
      cases among
    cases found : inp.verdict u req.repoId label mf with
    | unproven => exact absurd found known
    | missing => rfl
    | proven => rfl
  have missing : ((inp.holding u req label).missing).Perm ((inp.manifestOf req.repoId).filter
      fun mf => !decide (inp.verdict u req.repoId label mf = .proven)) := by
    rw [← rest]
    exact sortBy_perm _ _
  refine (reused_of_holding.append (missing.map _)).trans ?_
  rw [← List.map_append]
  exact (List.filter_append_perm _ _).map _

theorem verdict_of_unproven_nil {label : String} (unproven : (inp.holding u req label).unproven = [])
    {mf : ManifestFile} (listed : mf ∈ inp.manifestOf req.repoId) :
    inp.verdict u req.repoId label mf ≠ .unproven := by
  intro bad
  have among : mf ∈ (inp.holding u req label).unproven := by simp [holding, listed, bad]
  rw [unproven] at among
  cases among

theorem verdict_of_missing {label : String} {mf : ManifestFile}
    (member : mf ∈ (inp.holding u req label).missing) :
    inp.verdict u req.repoId label mf = .missing := by
  simp only [holding, mem_sortBy, List.mem_filter, decide_eq_true_eq] at member
  exact member.2

theorem verdict_of_reused {label : String} {file : ReusableFile}
    (member : file ∈ (inp.holding u req label).reused) :
    inp.rowOf req.repoId label file.rfilename ≠ none := by
  simp only [holding, mem_sortBy, List.mem_filterMap] at member
  obtain ⟨mf, _, made⟩ := member
  split_ifs at made with proven
  obtain ⟨row, found, rfl⟩ := Option.map_eq_some_iff.mp made
  have name : (reusable u mf row).rfilename = mf.rfilename := by
    unfold reusable
    cases mf.sha256 <;> cases row.origSha256 <;> rfl
  rw [name, found]
  simp

theorem eligible_pooled {label : String} (eligible : label ∈ req.eligibleDrives) :
    label ∈ inp.acceptedCompletePool req :=
  mem_sortedSet.mpr (List.mem_append_right _ eligible)

/-- An open requirement with an eligible drive free of unproven rows has a candidate there. -/
theorem candidate_of_finishable {held : Holding} (finish : held ∈ inp.finishable u req) :
    ∃ c ∈ inp.candidatesOf u graph req, c.targetDrive = held.driveLabel := by
  by_cases replica : req.kind = .protectedReplica
  · obtain ⟨source, listed⟩ : ∃ source, source ∈ inp.replicaSources u graph req := by
      unfold replicaSources
      split
      · exact ⟨_, List.mem_singleton_self _⟩
      · next sources found => exact List.exists_mem_of_ne_nil _ (by simpa using found)
    exact ⟨_, mem_candidatesOf.mpr ⟨held, finish, .inr ⟨replica, source, listed, rfl⟩⟩, rfl⟩
  · exact ⟨_, mem_candidatesOf.mpr ⟨held, finish, .inl ⟨replica, rfl⟩⟩, rfl⟩

/-- Every eligible drive of a blocked requirement holds an unproven row of a required file. -/
theorem unproven_of_blocked (blocked : inp.isBlocked u graph req = true) {label : String}
    (eligible : label ∈ req.eligibleDrives) :
    ∃ mf ∈ inp.manifestOf req.repoId, inp.verdict u req.repoId label mf = .unproven := by
  simp only [isBlocked, Bool.and_eq_true, List.isEmpty_iff] at blocked
  obtain ⟨incomplete, none⟩ := blocked
  by_contra clean
  simp only [not_exists, not_and] at clean
  have unproven : (inp.holding u req label).unproven = [] := by
    simp only [holding, List.filter_eq_nil_iff, decide_eq_true_eq]
    exact clean
  by_cases missing : (inp.holding u req label).missing = []
  · have done := mem_complete.mpr ⟨label, eligible_pooled eligible, rfl, unproven, missing⟩
    rw [incomplete] at done
    cases done
  · obtain ⟨c, listed, _⟩ := @candidate_of_finishable inp u graph req _
      (mem_finishable.mpr ⟨label, eligible_pooled eligible, rfl, unproven, missing, eligible⟩)
    rw [none] at listed
    cases listed

end Holdings

section Partition

theorem satisfied_ids : ((inp.candidates u graph).satisfied.map Satisfaction.requirementId).Perm
    ((graph.desired.filter fun req => !(inp.complete u req).isEmpty).map
      CopyRequirement.requirementId) := by
  refine ((sortBy_perm Satisfaction.requirementId _).map _).trans ?_
  rw [List.map_map]
  rfl

theorem byRequirement_ids : ((inp.candidates u graph).byRequirement.map Prod.fst).Perm
    ((graph.desired.filter fun req => (inp.complete u req).isEmpty &&
      !(inp.candidatesOf u graph req).isEmpty).map CopyRequirement.requirementId) := by
  refine ((sortBy_perm Prod.fst _).map _).trans ?_
  rw [List.map_map]
  rfl

theorem blocked_ids : ((inp.candidates u graph).blocked.map BlockedRequirement.requirementId).Perm
    ((graph.desired.filter (inp.isBlocked u graph)).map CopyRequirement.requirementId) := by
  refine ((sortBy_perm BlockedRequirement.requirementId _).map _).trans ?_
  rw [List.map_map]
  rfl

/-- The three outcomes list the desired requirements between them, each as often as it is desired. -/
theorem outcomes_perm : ((inp.candidates u graph).satisfied.map Satisfaction.requirementId ++
    ((inp.candidates u graph).byRequirement.map Prod.fst ++
      (inp.candidates u graph).blocked.map BlockedRequirement.requirementId)).Perm
        (graph.desired.map CopyRequirement.requirementId) := by
  refine (satisfied_ids.append (byRequirement_ids.append blocked_ids)).trans ?_
  simp only [← List.map_append]
  refine List.Perm.map _ (List.Perm.trans (.append_left _ ?_)
    (List.filter_append_perm (fun req => !(inp.complete u req).isEmpty) graph.desired))
  -- What is not satisfied has candidates or is blocked.
  have split := List.filter_append_perm (fun req => !(inp.candidatesOf u graph req).isEmpty)
    (graph.desired.filter fun req => !!(inp.complete u req).isEmpty)
  have blocked : inp.isBlocked u graph = fun req =>
      (inp.candidatesOf u graph req).isEmpty && (inp.complete u req).isEmpty :=
    funext fun req => Bool.and_comm ..
  rw [blocked]
  simpa [List.filter_filter, Bool.and_comm] using split

theorem mem_blocked {item : BlockedRequirement} (listed : item ∈ (inp.candidates u graph).blocked) :
    ∃ req ∈ graph.desired, inp.isBlocked u graph req = true ∧
      item.requirementId = req.requirementId ∧ item.reason = blockedReason req := by
  simp only [candidates, mem_sortBy, List.mem_map, List.mem_filter] at listed
  obtain ⟨req, ⟨desired, blocked⟩, rfl⟩ := listed
  exact ⟨req, desired, blocked, rfl, rfl⟩

end Partition

/-- What a candidate promises about its requirement and its target drive. -/
structure SoundCandidate (u : Unicode) (inp : PlannerInput) (req : CopyRequirement) (c : Candidate) :
    Prop where
  filed : c.requirementId = req.requirementId
  eligible : c.targetDrive ∈ req.eligibleDrives
  placeable : inp.EligibleDrive req.kind c.targetDrive
  /-- No row of a required file on the target is unproven. -/
  noneUnproven : ∀ mf ∈ inp.manifestOf req.repoId, ∀ row,
    inp.rowOf req.repoId c.targetDrive mf.rfilename = some row → proof u mf (some row) ≠ .unproven
  disjoint : List.Disjoint (c.reusedFiles.map ReusableFile.rfilename)
    (c.missingFiles.map ManifestFile.rfilename)
  /-- Reused and missing files are the manifest, with its multiplicities and sizes. -/
  covers : (c.reusedFiles.map (fun file => (file.rfilename, file.sizeBytes)) ++
    c.missingFiles.map fun mf => (mf.rfilename, mf.sizeBytes)).Perm
      ((inp.manifestOf req.repoId).map fun mf => (mf.rfilename, mf.sizeBytes))
  missingListed : ∀ mf ∈ c.missingFiles, mf ∈ inp.manifestOf req.repoId
  missingAbsent : ∀ mf ∈ c.missingFiles, ∀ row ∈ inp.archived,
    ¬(row.repoId = req.repoId ∧ row.driveLabel = c.targetDrive ∧ row.rfilename = mf.rfilename)

theorem soundCandidate (desired : req ∈ inp.requirements.desired) {c : Candidate}
    (member : c ∈ inp.candidatesOf u graph req) : SoundCandidate u inp req c := by
  obtain ⟨repo, _, ofRepo⟩ := mem_desired.mp desired
  obtain ⟨held, finish, made⟩ := mem_candidatesOf.mp member
  obtain ⟨label, _, rfl, unproven, _, eligible⟩ := mem_finishable.mp finish
  have fields : c.requirementId = req.requirementId ∧ c.targetDrive = label ∧
      c.reusedFiles = (inp.holding u req label).reused ∧
      c.missingFiles = (inp.holding u req label).missing := by
    rcases made with ⟨_, rfl⟩ | ⟨_, source, _, rfl⟩ <;> exact ⟨rfl, rfl, rfl, rfl⟩
  obtain ⟨filed, target, reused, missing⟩ := fields
  have absent : ∀ mf ∈ c.missingFiles, inp.rowOf req.repoId label mf.rfilename = none := by
    rw [missing]
    exact fun mf listed => verdict_missing.mp (verdict_of_missing listed)
  refine ⟨filed, target ▸ eligible, target ▸ eligible_of_desired ofRepo eligible, ?_, ?_, ?_, ?_, ?_⟩
  · intro mf listed row found bad
    apply verdict_of_unproven_nil unproven listed
    rw [verdict, ← target, found, bad]
  · intro name left right
    obtain ⟨file, reusedFile, rfl⟩ := List.mem_map.mp left
    obtain ⟨mf, missingFile, same⟩ := List.mem_map.mp right
    rw [reused] at reusedFile
    exact verdict_of_reused reusedFile (same ▸ absent mf missingFile)
  · rw [reused, missing]
    exact perm_of_holding unproven
  · rw [missing]
    exact fun mf listed => missing_listed listed
  · rw [target]
    exact fun mf listed => rowOf_eq_none.mp (absent mf listed)

/-- Every desired requirement has exactly one outcome, candidates are sound, and the reason of a
    blocked requirement is the true one. -/
theorem candidates_partition (u : Unicode) (inp : PlannerInput) :
    ((inp.candidates u inp.requirements).satisfied.map Satisfaction.requirementId ++
      ((inp.candidates u inp.requirements).byRequirement.map Prod.fst ++
        (inp.candidates u inp.requirements).blocked.map BlockedRequirement.requirementId)).Perm
          (inp.requirements.desired.map CopyRequirement.requirementId) ∧
    (inp.requirements.desired.map CopyRequirement.requirementId).Nodup ∧
    (∀ item ∈ (inp.candidates u inp.requirements).byRequirement,
      ∃ req ∈ inp.requirements.desired, req.requirementId = item.1 ∧ item.2 ≠ [] ∧
        ∀ c ∈ item.2, SoundCandidate u inp req c) ∧
    (∀ item ∈ (inp.candidates u inp.requirements).blocked,
      ∃ req ∈ inp.requirements.desired, req.requirementId = item.requirementId ∧
        (item.reason = "all_targets_unproven" ∨ item.reason = "no_eligible_tier") ∧
        (item.reason = "all_targets_unproven" → ∀ label ∈ req.eligibleDrives,
          ∃ mf ∈ inp.manifestOf req.repoId, ∃ row,
            inp.rowOf req.repoId label mf.rfilename = some row ∧ proof u mf (some row) = .unproven) ∧
        (item.reason = "no_eligible_tier" → req.eligibleDrives = [] ∧
          ∀ label, ¬inp.EligibleDrive req.kind label)) := by
  refine ⟨outcomes_perm, nodup_requirements, ?_, ?_⟩
  · intro item listed
    simp only [candidates, mem_sortBy, List.mem_map, List.mem_filter, Bool.and_eq_true,
      Bool.not_eq_eq_eq_not, Bool.not_true, List.isEmpty_eq_false_iff] at listed
    obtain ⟨req, ⟨desired, _, open'⟩, rfl⟩ := listed
    exact ⟨req, desired, rfl, by simpa using open',
      fun c among => soundCandidate desired (mem_sortBy.mp among)⟩
  · intro item listed
    obtain ⟨req, desired, blocked, id, reason⟩ := mem_blocked listed
    obtain ⟨repo, _, ofRepo⟩ := mem_desired.mp desired
    refine ⟨req, desired, id.symm, ?_, ?_, ?_⟩
    · rw [reason, blockedReason]
      split <;> simp
    · intro _ label eligible
      obtain ⟨mf, among, bad⟩ := unproven_of_blocked blocked eligible
      cases found : inp.rowOf req.repoId label mf.rfilename with
      | none => rw [verdict, found] at bad; cases bad
      | some row => exact ⟨mf, among, row, found, by rwa [verdict, found] at bad⟩
    · intro tier
      have empty : req.eligibleDrives = [] := by
        by_contra some
        rw [reason, blockedReason, if_neg (by simpa using some)] at tier
        exact absurd tier (by decide)
      exact ⟨empty, no_eligible_of_desired ofRepo empty⟩

end Modelark.Planning.PlannerInput
