import Modelark.Fill.Placed

/-!
# Current facts

What the tables say of the rows of a proposal that was previewed from them: the drives are active and
have the recorded epochs, the manifests have the recorded hashes, and the archive holds of every target
exactly what its row does not list.
-/

namespace Modelark.Fill

open Modelark.Archive Library Planning PlannerInput Placement Proposal
open Revision (Tables ReadRules ArchivedRow selectManifest)

section Archive

variable {archived : List ArchivedFileFact} {tables : Tables}

/-- With distinct keys, a row is looked up exactly by its key. -/
theorem archivedRow_eq_some (distinct : (archived.map rowKey).Nodup) {repo rfilename drive : String}
    {row : ArchivedFileFact} : archivedRow archived repo rfilename drive = some row ↔
      row ∈ archived ∧ row.repoId = repo ∧ row.driveLabel = drive ∧ row.rfilename = rfilename := by
  constructor
  · intro found
    have member := List.mem_of_find?_eq_some found
    have named := List.find?_some found
    simp only [List.mem_reverse, Bool.and_eq_true, beq_iff_eq] at member named
    exact ⟨member, named.1.1, named.1.2, named.2⟩
  · rintro ⟨member, rfl, rfl, rfl⟩
    cases found : archivedRow archived row.repoId row.rfilename row.driveLabel with
    | none =>
        have absent := List.find?_eq_none.mp found row (List.mem_reverse.mpr member)
        simp at absent
    | some other =>
        have among := List.mem_of_find?_eq_some found
        have named := List.find?_some found
        simp only [List.mem_reverse, Bool.and_eq_true, beq_iff_eq] at among named
        rw [List.inj_on_of_nodup_map distinct among member (by
          rw [rowKey, rowKey, named.1.1, named.1.2, named.2])]

theorem distinct_facts (tables : Tables) : (tables.facts.archived.map rowKey).Nodup := by
  have keys := tables.archived.distinct
  simp only [Tables.facts, List.map_map]
  rw [List.Nodup, List.pairwise_map] at keys ⊢
  apply keys.imp
  intro left right apart same
  apply apart
  simp only [Function.comp_apply, rowKey, ArchivedRow.fact, Prod.mk.injEq] at same
  simp [ArchivedRow.key, same]

/-- The row that the projection looks up is the row of the table. -/
theorem archivedRow_find (repo rfilename drive : String) :
    archivedRow tables.facts.archived repo rfilename drive =
      (tables.archived.find (repo, rfilename, drive)).map ArchivedRow.fact := by
  ext fact
  rw [archivedRow_eq_some (distinct_facts tables), Option.map_eq_some_iff]
  simp only [Table.find_eq_some, Tables.facts, List.mem_map]
  constructor
  · rintro ⟨⟨row, member, rfl⟩, rfl, rfl, rfl⟩
    exact ⟨row, ⟨member, rfl⟩, rfl⟩
  · rintro ⟨row, ⟨member, key⟩, rfl⟩
    simp only [ArchivedRow.key, Prod.mk.injEq] at key
    exact ⟨⟨row, member, rfl⟩, key.1, key.2.2, key.2.1⟩

end Archive

section Read

variable {u : Unicode} {rules : ReadRules} {successor : Tables.SuccessorRules} {tables : Tables}
  {facts : PreviewFacts} (read : ReadFrom rules successor tables facts)
include read

/-- A known drive has its row in the catalog. -/
theorem ReadFrom.drive {label : String} {drive : DriveFact}
    (found : facts.input.planner.byLabel[label]? = some drive) :
    label ∈ facts.input.planner.drives.map DriveFact.driveLabel ∧
      ∃ fleet columns, tables.drives.find? (·.driveLabel == label) = some fleet ∧
        tables.driveColumns.find label = some columns ∧ columns.lifecycle = drive.lifecycle := by
  obtain ⟨other, listed, same⟩ := List.mem_map.mp (Dict.mem_of_lookup_ofPairs found)
  simp only [Prod.mk.injEq] at same
  obtain ⟨rfl, rfl⟩ := same
  refine ⟨List.mem_map_of_mem listed, ?_⟩
  rw [read.planner] at listed
  simp only [Revision.Facts.capture, Revision.Facts.driveFacts, List.mem_map, mem_sortBy,
    List.mem_filter, Tables.facts, List.mem_filterMap, Option.map_eq_some_iff] at listed
  obtain ⟨_, ⟨⟨fleet, member, columns, joined, rfl⟩, _⟩, rfl⟩ := listed
  cases first : tables.drives.find? (·.driveLabel == fleet.driveLabel) with
  | none =>
      have absent := List.find?_eq_none.mp first fleet member
      simp at absent
  | some other => exact ⟨other, columns, first, joined, rfl⟩

/-- A listed manifest is the one that the catalog's files select. -/
theorem ReadFrom.manifest {repo : String} (listed : repo ∈ facts.input.planner.manifests.map Prod.fst) :
    selectManifest rules (tables.facts.filesOf repo) = .ok (facts.input.planner.manifestOf repo) := by
  obtain ⟨entry, among, rfl⟩ := List.mem_map.mp listed
  have found : (Dict.ofPairs facts.input.planner.manifests)[entry.1]? = some entry.2 := by
    rw [Dict.lookup_ofPairs facts.input.planner.uniqueRepos]
    exact among
  rw [manifestOf, Dict.getD_eq, found, Option.getD_some]
  rw [read.planner] at among
  simp only [Revision.Facts.capture, Revision.Facts.manifests, List.mem_filterMap,
    Option.map_eq_some_iff] at among
  obtain ⟨repo, _, manifest, selected, rfl⟩ := among
  cases outcome : selectManifest rules (tables.facts.filesOf repo) with
  | error refused =>
      rw [outcome] at selected
      cases selected
  | ok other =>
      rw [outcome] at selected
      cases selected
      rfl

/-- The recorded hash of a manifest is its current one. -/
theorem ReadFrom.manifestHash (sha : Digester) {repo : String}
    (listed : repo ∈ facts.input.planner.manifests.map Prod.fst) {pyHash : KeyPart → HashValue} :
    tables.currentManifestHash sha rules repo =
      .ok (repoManifestHash sha facts.toProposalFacts (facts.planned u pyHash).graph repo) := by
  rw [Tables.currentManifestHash, read.manifest listed, repoManifestHash, read.labels]
  rfl

/-- A file of the manifest is one of the catalog, and no two of them have one name. -/
theorem ReadFrom.names {repo : String} (listed : repo ∈ facts.input.planner.manifests.map Prod.fst) :
    ((facts.input.planner.manifestOf repo).map ManifestFile.rfilename).Nodup ∧
      ∀ mf ∈ facts.input.planner.manifestOf repo, ∃ row ∈ tables.files.rows,
        row.rfilename = mf.rfilename := by
  have selected := read.manifest listed
  unfold selectManifest at selected
  dsimp only at selected
  split at selected
  · cases selected
  · simp only [bind_eq_ok] at selected
    obtain ⟨weights, _, made⟩ := selected
    have made : facts.input.planner.manifestOf repo = sortBy ManifestFile.rfilename
        ((tables.facts.filesOf repo).filterMap (Revision.manifestFile weights)) :=
      (Except.ok.inj made).symm
    have keeps : ∀ row mf, Revision.manifestFile weights row = some mf →
        mf.rfilename = row.rfilename := by
      intro row mf file
      simp only [Revision.manifestFile] at file
      split_ifs at file <;> cases file <;> rfl
    rw [made]
    constructor
    · apply ((sortBy_perm _ _).map _).nodup_iff.mpr
      apply nodup_keys_filterMap keeps
      have keys := (tables.files.distinct.of_map _).filter (·.repoId == repo)
      apply keys.map_on
      intro left inRepo right inRepo' same
      obtain ⟨member, repo'⟩ := List.mem_filter.mp inRepo
      obtain ⟨member', repo''⟩ := List.mem_filter.mp inRepo'
      apply List.inj_on_of_nodup_map tables.files.distinct member member'
      simp only [Revision.FileRow.key, beq_iff_eq.mp repo', beq_iff_eq.mp repo'', same]
    · intro mf member
      obtain ⟨row, inRepo, file⟩ := List.mem_filterMap.mp (mem_sortBy.mp member)
      exact ⟨row, List.mem_of_mem_filter inRepo, (keeps row mf file).symm⟩

/-- Weights were found for every manifest. -/
theorem ReadFrom.weights {repo : String}
    (listed : repo ∈ facts.input.planner.manifests.map Prod.fst) :
    facts.input.planner.manifestOf repo ≠ [] ∧ ∃ row ∈ tables.files.rows, row.repoId = repo := by
  have selected := read.manifest listed
  unfold selectManifest at selected
  dsimp only at selected
  split at selected
  · cases selected
  · simp only [bind_eq_ok] at selected
    obtain ⟨weights, found, made⟩ := selected
    have present : (tables.facts.filesOf repo).any (·.format == some weights) = true := by
      unfold Revision.weightFormat at found
      dsimp only at found
      split_ifs at found <;> cases found <;> assumption
    obtain ⟨row, member, format⟩ := List.any_eq_true.mp present
    have chosen : (Revision.manifestFile weights row).isSome = true := by
      simp only [Revision.manifestFile, format, if_true, Option.isSome_some]
    obtain ⟨mf, file⟩ := Option.isSome_iff_exists.mp chosen
    have repo' : row.repoId = repo := by simpa using (List.mem_filter.mp member).2
    rw [← Except.ok.inj made]
    exact ⟨List.ne_nil_of_mem (mem_sortBy.mpr (List.mem_filterMap.mpr ⟨row, member, file⟩)),
      row, List.mem_of_mem_filter member, repo'⟩

/-- The planner looks up the row of the table for every file that it plans. -/
theorem ReadFrom.rowOf {repo label : String} {drive : DriveFact} {mf : ManifestFile}
    (listed : repo ∈ facts.input.planner.manifests.map Prod.fst)
    (known : facts.input.planner.byLabel[label]? = some drive)
    (planned : mf ∈ facts.input.planner.manifestOf repo) :
    facts.input.planner.rowOf repo label mf.rfilename =
      (tables.archived.find (repo, mf.rfilename, label)).map ArchivedRow.fact := by
  have captured : facts.input.planner.archived = tables.facts.archivedFacts
      (facts.input.planner.manifests.map Prod.fst)
      (facts.input.planner.drives.map DriveFact.driveLabel)
      (sortedSet (facts.input.planner.manifests.flatMap fun entry =>
        entry.2.map ManifestFile.rfilename)) := by
    rw [read.planner]
    simp [Revision.Facts.capture, List.map_map, Function.comp_def]
  have distinct : (facts.input.planner.archived.map rowKey).Nodup := by
    rw [captured, Revision.Facts.archivedFacts]
    exact ((sortBy_perm _ _).map _).nodup_iff.mpr
      ((distinct_facts tables).sublist (List.filter_sublist.map rowKey))
  have named : mf.rfilename ∈ sortedSet (facts.input.planner.manifests.flatMap fun entry =>
      entry.2.map ManifestFile.rfilename) := by
    obtain ⟨entry, among, rfl⟩ := List.mem_map.mp listed
    have found : (Dict.ofPairs facts.input.planner.manifests)[entry.1]? = some entry.2 := by
      rw [Dict.lookup_ofPairs facts.input.planner.uniqueRepos]
      exact among
    rw [manifestOf, Dict.getD_eq, found, Option.getD_some] at planned
    exact mem_sortedSet.mpr (List.mem_flatMap.mpr ⟨entry, among, List.mem_map_of_mem planned⟩)
  rw [← archivedRow_eq, ← archivedRow_find]
  ext row
  rw [archivedRow_eq_some distinct, archivedRow_eq_some (distinct_facts tables), captured,
    Revision.Facts.archivedFacts, mem_sortBy, List.mem_filter]
  constructor
  · rintro ⟨⟨member, _⟩, keys⟩
    exact ⟨member, keys⟩
  · rintro ⟨member, rfl, rfl, name⟩
    refine ⟨⟨member, ?_⟩, rfl, rfl, name⟩
    simp only [Bool.and_eq_true, List.contains_iff_mem]
    exact ⟨⟨listed, (read.drive known).1⟩, name ▸ named⟩

end Read

/-- The drives of an accepted pool are active. -/
theorem active_of_pool {inp : PlannerInput} {req : CopyRequirement}
    (desired : req ∈ inp.requirements.desired) {label : String}
    (pooled : label ∈ inp.acceptedCompletePool req) :
    ∃ drive, inp.byLabel[label]? = some drive ∧ drive.lifecycle = "active" := by
  obtain ⟨repo, _, ofRepo⟩ := mem_desired.mp desired
  rcases List.mem_append.mp (mem_sortedSet.mp pooled) with satisfying | eligible
  · unfold satisfactionPool at satisfying
    cases kind : req.kind <;> simp only [kind] at satisfying
    · obtain ⟨drive, found, tier⟩ := mem_labelsWhere.mp satisfying
      exact ⟨drive, found, by simp_all [isSatisfying]⟩
    · obtain ⟨drive, found, tier⟩ := mem_labelsWhere.mp (mem_homes satisfying)
      exact ⟨drive, found, by simp_all [isSatisfying]⟩
    · obtain ⟨drive, found, tier⟩ := mem_labelsWhere.mp satisfying
      exact ⟨drive, found, by simp_all [isSatisfying]⟩
  · obtain ⟨drive, found, _, placeable⟩ := eligible_of_desired ofRepo eligible
    exact ⟨drive, found, by simp_all [isPlaceable]⟩

section Rows

variable {u : Unicode} {pyHash : KeyPart → HashValue} {sha : Digester} {rules : ReadRules}
  {successor : Tables.SuccessorRules} {tables : Tables} {facts : PreviewFacts} {proposal : Loaded}
  (read : ReadFrom rules successor tables facts) (checked : tables.Checked)

/-- A desired copy is of a repository with a manifest. -/
theorem repo_of_desired {inp : PlannerInput} {req : CopyRequirement}
    (desired : req ∈ inp.requirements.desired) : req.repoId ∈ inp.manifests.map Prod.fst := by
  obtain ⟨repo, listed, ofRepo⟩ := mem_desired.mp desired
  rw [repoId_of_desired ofRepo]
  exact listed

/-- An active drive of the snapshot, as a proposal records it and as the bundle reads it. -/
structure Active (tables : Tables) (facts : PreviewFacts) (label : String) : Prop where
  nonblank : label ≠ ""
  state : (driveState tables label).1 = ⟨"active", some (facts.identity label).epoch, false⟩
  identity : (facts.identity label).fingerprint ≠ "" →
    (driveState tables label).2 = facts.identity label

include read checked

theorem active_of_desired {req : CopyRequirement}
    (desired : req ∈ facts.input.planner.requirements.desired) {label : String}
    (pooled : label ∈ facts.input.planner.acceptedCompletePool req) : Active tables facts label := by
  obtain ⟨drive, known, active⟩ := active_of_pool desired pooled
  obtain ⟨_, fleet, columns, found, joined, same⟩ := read.drive known
  have member := List.mem_of_find?_eq_some found
  have here : fleet.driveLabel = label := by simpa using List.find?_some found
  have epoch : fleet.fence.identityEpoch ≠ 0 := by
    have bound := checked.epochs fleet member
    omega
  have lifecycle : orDefault columns.lifecycle "active" = "active" := by
    rw [same, active]
    decide
  refine ⟨here ▸ checked.labelled fleet member, ?_, ?_⟩
  · simp [driveState, found, joined, epoch, lifecycle, read.identity, Tables.driveIdentity]
  · intro proven
    simp only [read.identity, Tables.driveIdentity, found] at proven
    simp [driveState, found, joined, epoch, read.identity, Tables.driveIdentity,
      orDefault_of_ne proven]

omit checked

/-- A complete copy holds every file of its manifest. -/
theorem held_of_complete {req : CopyRequirement}
    (desired : req ∈ facts.input.planner.requirements.desired) {label : String}
    (complete : label ∈ (facts.input.planner.complete u req).map Holding.driveLabel)
    {mf : ManifestFile} (planned : mf ∈ facts.input.planner.manifestOf req.repoId) :
    ∃ row, tables.archived.find (req.repoId, mf.rfilename, label) = some row ∧
      satisfiedBy u mf.sha256 row.fact = true := by
  obtain ⟨pooled, proven⟩ := holds_copy.mp complete
  obtain ⟨drive, known, _⟩ := active_of_pool desired pooled
  obtain ⟨fact, found, _, satisfied⟩ := verdict_proven.mp (proven mf planned)
  rw [read.rowOf (repo_of_desired desired) known planned, Option.map_eq_some_iff] at found
  obtain ⟨row, found, rfl⟩ := found
  exact ⟨row, found, satisfied⟩

variable {task : TaskRow} {req : CopyRequirement} {target : String}
  (finishes : Finishes u facts proposal task req target)
include finishes

/-- What a target lacks has no row there. -/
theorem Finishes.absent {mf : ManifestFile}
    (lacks : mf ∈ (facts.input.planner.holding u req target).missing) :
    tables.archived.find (task.repoId, mf.rfilename, target) = none := by
  obtain ⟨pooled, _⟩ := missing_nonempty finishes.finishable
  obtain ⟨drive, known, _⟩ := active_of_pool finishes.desired pooled
  have none' := verdict_missing.mp (verdict_of_missing lacks)
  rw [read.rowOf (repo_of_desired finishes.desired) known (missing_listed lacks),
    Option.map_eq_none_iff] at none'
  rw [finishes.repo]
  exact none'

/-- What a target does not lack is proven there. -/
theorem Finishes.held {mf : ManifestFile}
    (planned : mf ∈ facts.input.planner.manifestOf req.repoId)
    (kept : mf ∉ (facts.input.planner.holding u req target).missing) :
    ∃ row, tables.archived.find (req.repoId, mf.rfilename, target) = some row ∧
      satisfiedBy u mf.sha256 row.fact = true := by
  obtain ⟨pooled, _, unproven, _⟩ := missing_nonempty finishes.finishable
  obtain ⟨drive, known, _⟩ := active_of_pool finishes.desired pooled
  have proven : facts.input.planner.verdict u req.repoId target mf = .proven := by
    cases verdict : facts.input.planner.verdict u req.repoId target mf with
    | proven => rfl
    | missing =>
        exfalso
        apply kept
        simp [holding, planned, verdict]
    | unproven =>
        have bad : mf ∈ (facts.input.planner.holding u req target).unproven := by
          simp [holding, planned, verdict]
        rw [unproven] at bad
        cases bad
  obtain ⟨fact, found, _, satisfied⟩ := verdict_proven.mp proven
  rw [read.rowOf (repo_of_desired finishes.desired) known planned, Option.map_eq_some_iff] at found
  obtain ⟨row, found, rfl⟩ := found
  exact ⟨row, found, satisfied⟩

include checked in
/-- Every approved file has a name. -/
theorem Finishes.usable : usableFiles (fileGroup proposal task.requirementId) =
    fileGroup proposal task.requirementId := by
  rw [usableFiles, List.filter_eq_self]
  intro file grouped
  obtain ⟨mf, lacks, rfl⟩ := (finishes.files file).mp grouped
  obtain ⟨row, member, same⟩ :=
    (read.names (repo_of_desired finishes.desired)).2 mf (missing_listed lacks)
  have named := checked.named row member
  rw [same] at named
  exact decide_eq_true named

/-- Two approved files of one name are the same. -/
theorem Finishes.eq_of_name {left right : FileRow}
    (grouped : left ∈ fileGroup proposal task.requirementId)
    (grouped' : right ∈ fileGroup proposal task.requirementId)
    (same : left.rfilename = right.rfilename) : left = right := by
  obtain ⟨mf, lacks, rfl⟩ := (finishes.files left).mp grouped
  obtain ⟨mf', lacks', rfl⟩ := (finishes.files right).mp grouped'
  rw [List.inj_on_of_nodup_map (read.names (repo_of_desired finishes.desired)).1 (missing_listed lacks)
    (missing_listed lacks') same]

omit read in
theorem Finishes.nonempty : fileGroup proposal task.requirementId ≠ [] := by
  obtain ⟨_, _, _, missing⟩ := missing_nonempty finishes.finishable
  obtain ⟨mf, lacks⟩ := List.exists_mem_of_ne_nil _ missing
  exact List.ne_nil_of_mem ((finishes.files _).mpr ⟨mf, lacks, rfl⟩)

end Rows

section Checks

variable {u : Unicode} {pyHash : KeyPart → HashValue} {sha : Digester} {rules : ReadRules}
  {successor : Tables.SuccessorRules} {tables : Tables} {facts : PreviewFacts} {proposal : Loaded}
  (approved : ApprovedFrom u pyHash sha facts proposal)

theorem ApprovedFrom.header (approved : ApprovedFrom u pyHash sha facts proposal) :
    proposal.header = headerFromFacts sha facts (facts.planned u pyHash)
      (taskRows sha facts.toProposalFacts (facts.planned u pyHash).graph
        (facts.planned u pyHash).capacity) := by
  obtain ⟨payload, previewed, header, _, _⟩ := approved.previewed
  unfold previewPure at previewed
  split_ifs at previewed
  cases previewed
  exact header

theorem ApprovedFrom.mutation (approved : ApprovedFrom u pyHash sha facts proposal)
    (named : facts.mutation.kind ≠ "") : recordedMutation proposal.header = facts.mutation := by
  rw [approved.header, recordedMutation, headerFromFacts]
  dsimp only
  rw [orDefault_of_ne named, List.filterMap_map]
  simp

variable (read : ReadFrom rules successor tables facts)

section Named

variable (checked : tables.Checked)
include approved read checked

/-- Every drive that a row names is active. -/
theorem active_of_named {task : TaskRow} (member : task ∈ proposal.tasks) {label : String}
    (named : task.targetDrive = some label ∨ task.satisfyingDrive = some label ∨
      task.sourceDrive = some label) : Active tables facts label := by
  have ofTarget : ∀ {task}, task ∈ proposal.tasks → task.rowKind = .executable →
      task.targetDrive = some label → Active tables facts label := by
    intro task member executable placed
    rcases (row_cases approved member).2 with ⟨_, req, target, finishes, _⟩ | ⟨baseline, _⟩
    · obtain rfl := Option.some.inj (placed.symm.trans finishes.placed)
      exact active_of_desired read checked finishes.desired (missing_nonempty finishes.finishable).1
    · rw [executable] at baseline
      cases baseline
  have ofCopy : ∀ {req}, req ∈ facts.input.planner.requirements.desired →
      label ∈ (facts.input.planner.complete u req).map Holding.driveLabel →
        Active tables facts label := fun desired complete =>
    active_of_desired read checked desired (holds_copy.mp complete).1
  rcases (row_cases approved member).2 with ⟨executable, req, target, finishes, _⟩ |
    ⟨_, req, other, stands, _⟩
  · rcases named with placed | satisfying | sourced
    · exact ofTarget member executable placed
    · rw [finishes.unmatched] at satisfying
      cases satisfying
    · obtain ⟨home, pair, complete | ⟨row, listed, executable', _, placed⟩⟩ :=
        finishes.sourced label sourced
      · exact ofCopy pair.homeDesired complete
      · exact ofTarget listed executable' placed
  · rcases named with placed | satisfying | sourced
    · obtain rfl := Option.some.inj (placed.symm.trans stands.placed)
      exact ofCopy stands.desired stands.complete
    · obtain rfl := Option.some.inj (satisfying.symm.trans stands.satisfying)
      exact ofCopy stands.desired stands.complete
    · rw [stands.unsourced] at sourced
      cases sourced

/-- The bundle knows every drive that a row names. -/
theorem driveState_of_named {task : TaskRow} (member : task ∈ proposal.tasks) {label : String}
    (named : task.targetDrive = some label ∨ task.satisfyingDrive = some label ∨
      task.sourceDrive = some label) :
    label ∈ proposalDriveIds proposal ∧
      (Dict.ofPairs ((proposalDriveIds proposal).map fun label => (label, (driveState tables label).1)))[
        label]? = some ⟨"active", some (facts.identity label).epoch, false⟩ := by
  have active := active_of_named approved read checked member named
  have listed : label ∈ proposalDriveIds proposal := by
    refine mem_sortedSet.mpr (List.mem_flatMap.mpr ⟨task, member, List.mem_filterMap.mpr
      ⟨some label, ?_, labelled_of_ne active.nonblank⟩⟩)
    rcases named with same | same | same <;> simp [same]
  refine ⟨listed, ?_⟩
  have distinct : (proposalDriveIds proposal).Nodup := nodup_sortedSet _
  rw [Dict.lookup_ofPairs (by simpa [Function.comp_def] using distinct)]
  exact List.mem_map.mpr ⟨label, listed, by rw [active.state]⟩

end Named

/-- A row's repository has a manifest. -/
theorem repo_of_row (approved : ApprovedFrom u pyHash sha facts proposal) {task : TaskRow}
    (member : task ∈ proposal.tasks) :
    task.repoId ∈ facts.input.planner.manifests.map Prod.fst := by
  rcases (row_cases approved member).2 with ⟨_, req, _, finishes, _⟩ | ⟨_, req, _, stands, _⟩
  · exact finishes.repo ▸ repo_of_desired finishes.desired
  · exact stands.repo ▸ repo_of_desired stands.desired

variable (archived : Table ArchivedRow.key)

include approved read in
/-- The manifests have the hashes that the rows record. -/
theorem currentManifests_eq : currentManifests sha rules (tables.withArchived archived) proposal =
    .ok ((sortedSet ((proposal.tasks.map TaskRow.repoId).filter (· ≠ ""))).map fun repo =>
      (repo, repoManifestHash sha facts.toProposalFacts (facts.planned u pyHash).graph repo)) := by
  have hashed : ∀ repo ∈ sortedSet ((proposal.tasks.map TaskRow.repoId).filter (· ≠ "")),
      ((((tables.withArchived archived).currentManifestHash sha rules repo).mapError
        (BundleRefusal.manifestPolicy repo)).map fun hash => some (repo, hash)) =
          .ok (some (repo,
            repoManifestHash sha facts.toProposalFacts (facts.planned u pyHash).graph repo)) := by
    intro repo member
    obtain ⟨task, listed, rfl⟩ := List.mem_map.mp (List.mem_of_mem_filter (mem_sortedSet.mp member))
    rw [Tables.currentManifestHash_withArchived, read.manifestHash sha (repo_of_row approved listed)]
    rfl
  rw [currentManifests, collect_eq_ok]
  refine ⟨fun repo member => ⟨_, hashed repo member⟩, ?_⟩
  rw [← List.filterMap_eq_map]
  apply List.filterMap_congr
  intro repo member
  rw [hashed repo member]
  rfl

include approved read in
/-- Every finalized repository has a row. -/
theorem expandedIds_eq : expandedIds (tables.withArchived archived) proposal = [] := by
  have errors : facts.input.policyErrors = [] := by
    have clear : (facts.planned u pyHash).graph.blocking = [] := blocking_of_feasible approved.plan
    simp only [PreviewFacts.planned, preview, reconcile, blockingOf, List.append_eq_nil_iff,
      List.map_eq_nil_iff] at clear
    exact clear.1
  rw [expandedIds, List.map_eq_nil_iff, List.filter_eq_nil_iff]
  intro repo member
  simp only [decide_eq_true_eq, not_and, not_not]
  intro _
  have selected : repo ∈ tables.facts.selectedRepos (some (tables.selectedRepos facts.mutation)) := by
    have finalized : repo ∈ tables.facts.finalized := mem_sortBy.mp member
    simp only [Revision.Facts.selectedRepos, Option.getD_some, mem_sortedSet, Tables.selectedRepos]
    split_ifs
    · obtain ⟨row, kept, rfl⟩ := List.mem_map.mp finalized
      exact mem_sortedSet.mpr
        (List.mem_append_left _ (List.mem_map_of_mem (List.mem_of_mem_filter kept)))
    · exact mem_sortedSet.mpr finalized
  have listed : repo ∈ facts.input.planner.manifests.map Prod.fst := by
    cases outcome : selectManifest rules (tables.facts.filesOf repo) with
    | error refused =>
        have failed : (repo, refused) ∈ (tables.facts.capture rules facts.planId
            (some (tables.selectedRepos facts.mutation))).errors :=
          List.mem_filterMap.mpr ⟨repo, selected, by rw [outcome]⟩
        have named := List.mem_map_of_mem (f := Prod.fst) failed
        rw [← read.errors, errors] at named
        cases named
    | ok manifest =>
        rw [read.planner]
        exact List.mem_map.mpr ⟨(repo, manifest),
          List.mem_filterMap.mpr ⟨repo, selected, by rw [outcome]; rfl⟩, rfl⟩
  obtain ⟨row, among, rfl⟩ := row_of_repo approved listed
  exact List.mem_map_of_mem among

/-- The bundle of a catalog whose archive alone has changed. -/
def bundleInput (pyHash : KeyPart → HashValue) (sha : Digester) (u : Unicode) (tables : Tables)
    (facts : PreviewFacts) (proposal : Loaded) (archived : Table ArchivedRow.key)
    (observed : List (String × EvidenceState)) : ProjectionInput :=
  currentInput sha (tables.withArchived archived) proposal
    ((sortedSet ((proposal.tasks.map TaskRow.repoId).filter (· ≠ ""))).map fun repo =>
      (repo, repoManifestHash sha facts.toProposalFacts (facts.planned u pyHash).graph repo))
    facts.semanticInput observed

variable {observed : List (String × EvidenceState)}

include approved read in
theorem catalogProjectionBundle_eq (named : facts.mutation.kind ≠ "")
    (covered : ∀ label ∈ proposalDriveIds proposal, label ∈ observed.map Prod.fst) :
    catalogProjectionBundle sha rules successor (tables.withArchived archived) proposal observed =
      .ok (bundleInput pyHash sha u tables facts proposal archived observed,
        currentGraph sha (tables.withArchived archived) proposal) := by
  have present : (proposalDriveIds proposal).filter (· ∉ observed.map Prod.fst) = [] := by
    rw [List.filter_eq_nil_iff]
    intro label member
    simpa using covered label member
  have plan : proposal.header.planId = facts.planId := by rw [approved.header]; rfl
  have semantic := read.semantic
  unfold catalogProjectionBundle
  simp only [present, List.isEmpty_nil, require, if_true, ok_bind, currentManifests_eq approved read,
    plan, approved.mutation named, Tables.semanticInput_withArchived, semantic]
  rfl

theorem checkRequirements_eq (clear : expandedIds tables proposal = []) :
    checkRequirements proposal (currentGraph sha tables proposal) = none := by
  have ids : (graphIds proposal (currentGraph sha tables proposal)).filter
      (· ∉ proposal.tasks.map TaskRow.requirementId) = [] := by
    rw [List.filter_eq_nil_iff]
    intro id member
    simp only [graphIds, currentGraph, clear, List.append_nil] at member
    split_ifs at member <;> simpa using member
  have hash : (currentGraph sha tables proposal).requirementSetHash =
      proposal.header.requirementSetHash := by
    simp [currentGraph, clear]
  unfold checkRequirements
  dsimp only
  rw [hash, ids]
  simp

include approved in
theorem checkInvariants_eq : checkInvariants proposal
    (bundleInput pyHash sha u tables facts proposal archived observed) = none := by
  have approvedHash : proposal.header.semanticInputHash = some (sha.hash facts.semanticInput) := by
    rw [approved.header]
    rfl
  simp [checkInvariants, approvedHash, bundleInput, currentInput]

include approved in
/-- The hash of a row's manifest is among those of the bundle. -/
theorem manifests_lookup {task : TaskRow} (member : task ∈ proposal.tasks) (named : task.repoId ≠ "") :
    (Dict.ofPairs ((sortedSet ((proposal.tasks.map TaskRow.repoId).filter (· ≠ ""))).map fun repo =>
      (repo, repoManifestHash sha facts.toProposalFacts (facts.planned u pyHash).graph repo)))[
        task.repoId]? = some task.fullManifestHash := by
  have listed : task.repoId ∈ sortedSet ((proposal.tasks.map TaskRow.repoId).filter (· ≠ "")) :=
    mem_sortedSet.mpr (List.mem_filter.mpr ⟨List.mem_map_of_mem member, decide_eq_true named⟩)
  have distinct := nodup_sortedSet ((proposal.tasks.map TaskRow.repoId).filter (· ≠ ""))
  rw [Dict.lookup_ofPairs (by simpa [Function.comp_def] using distinct)]
  exact List.mem_map.mpr ⟨task.repoId, listed, by rw [(row_cases approved member).1]⟩

include approved in
theorem checkManifest_eq {task : TaskRow} (member : task ∈ proposal.tasks) :
    checkManifest (bundleInput pyHash sha u tables facts proposal archived observed) task = none := by
  unfold checkManifest
  split_ifs with blank
  · rfl
  · have found := manifests_lookup approved member (not_or.mp blank).1
    simp only [bundleInput, currentInput, found]
    simp

/-- The evidence of every baseline row is what it was. -/
def KeepsBaseline (tables : Tables) (archived : Table ArchivedRow.key) (proposal : Loaded) : Prop :=
  ∀ task ∈ proposal.tasks, task.rowKind = .baselineSatisfied →
    ∀ label, task.satisfyingDrive = some label →
      archived.rows.filter (fun row => row.repoId == task.repoId && row.driveLabel == label) =
        tables.archived.rows.filter fun row => row.repoId == task.repoId && row.driveLabel == label

section Drives

variable (checked : tables.Checked)
include approved read checked

theorem checkLifecycle_eq {task : TaskRow} (member : task ∈ proposal.tasks) :
    checkLifecycle (bundleInput pyHash sha u tables facts proposal archived observed) task = none := by
  rw [checkLifecycle, List.findSome?_eq_none_iff]
  intro named among
  cases found : labelled named with
  | none => rfl
  | some label =>
      have same : named = some label := (Option.filter_eq_some_iff.mp found).1
      have role : task.targetDrive = some label ∨ task.satisfyingDrive = some label ∨
          task.sourceDrive = some label := by
        simp only [List.mem_cons, List.not_mem_nil, or_false] at among
        rcases among with rfl | rfl | rfl <;> simp [same]
      have stated := (driveState_of_named approved read checked member role).2
      simp only [bundleInput, currentInput, driveState_withArchived, Option.bind_some, stated]
      rfl

/-- The drives of a proposal are younger than the epoch that the projection refuses. -/
theorem checkIdentity_eq {task : TaskRow} (member : task ∈ proposal.tasks)
    (young : ∀ epoch, task.identityEpoch = some epoch → epoch < 99) :
    checkIdentity (bundleInput pyHash sha u tables facts proposal archived observed) task = none := by
  obtain ⟨label, placed, epoch⟩ : ∃ label, task.targetDrive = some label ∧
      task.identityEpoch = some ((facts.identity label).epoch : Int) := by
    rcases (row_cases approved member).2 with ⟨_, _, target, finishes, epoch⟩ |
      ⟨_, _, label, stands, epoch⟩
    · exact ⟨target, finishes.placed, epoch⟩
    · exact ⟨label, stands.placed, epoch⟩
  have active := active_of_named approved read checked member (.inl placed)
  have stated := (driveState_of_named approved read checked member (.inl placed)).2
  have bound := young _ epoch
  have inRange : ¬99 ≤ (facts.identity label).epoch := by omega
  have first : (labelled task.targetDrive <|> labelled task.satisfyingDrive) = some label := by
    rw [placed, labelled_of_ne active.nonblank]
    rfl
  have unchanged : task.identityEpoch.filter (· ≠ ((facts.identity label).epoch : Int)) = none := by
    rw [epoch, Option.filter_some]
    simp
  simp only [checkIdentity, first, Option.bind_some, bundleInput, currentInput,
    driveState_withArchived, stated, unchanged, if_neg inRange]

/-- A baseline row's certificate is recomputed from the same evidence. -/
theorem currentCertificate_eq {task : TaskRow} (member : task ∈ proposal.tasks) {req : CopyRequirement}
    {label : String} (stands : Matches u sha facts task req label)
    (proven : (facts.identity label).fingerprint ≠ "")
    (kept : archived.rows.filter (fun row => row.repoId == task.repoId && row.driveLabel == label) =
      tables.archived.rows.filter fun row => row.repoId == task.repoId && row.driveLabel == label) :
    currentCertificate sha (tables.withArchived archived)
        ((sortedSet ((proposal.tasks.map TaskRow.repoId).filter (· ≠ ""))).map fun repo =>
          (repo, repoManifestHash sha facts.toProposalFacts (facts.planned u pyHash).graph repo)) task =
      baselineCertificate sha task.requirementId task.fullManifestHash label (facts.identity label)
        (baselineFileEvidence facts.archived task.repoId label) := by
  have listed := repo_of_row approved member
  obtain ⟨planned, file, among, repo⟩ := read.weights listed
  have named : task.repoId ≠ "" := repo ▸ checked.repos file among
  have same : baselineFileEvidence (tables.withArchived archived).facts.archived task.repoId label =
      baselineFileEvidence facts.archived task.repoId label := by
    have mapped := congrArg (List.map ArchivedRow.fact) kept
    simp only [baselineFileEvidence, read.archived, Tables.facts, Tables.archived_withArchived,
      List.filter_map]
    exact congrArg (sortBy ArchivedFileFact.rfilename) mapped
  have evidence : baselineFileEvidence facts.archived task.repoId label ≠ [] := by
    obtain ⟨mf, first⟩ := List.exists_mem_of_ne_nil _ planned
    rw [stands.repo] at first
    obtain ⟨row, found, _⟩ := held_of_complete read stands.desired stands.complete first
    obtain ⟨present, key⟩ := (Table.find_eq_some _).mp found
    simp only [ArchivedRow.key, Prod.mk.injEq] at key
    apply List.ne_nil_of_mem (a := row.fact)
    rw [baselineFileEvidence, mem_sortBy, List.mem_filter, read.archived]
    refine ⟨List.mem_map_of_mem present, ?_⟩
    simp [ArchivedRow.fact, key, stands.repo]
  have active := active_of_named approved read checked member (.inr (.inl stands.satisfying))
  have first : (labelled task.satisfyingDrive <|> labelled task.targetDrive) = some label := by
    rw [stands.satisfying, labelled_of_ne active.nonblank]
    rfl
  have hash : (Dict.ofPairs ((sortedSet ((proposal.tasks.map TaskRow.repoId).filter (· ≠ ""))).map
      fun repo => (repo, repoManifestHash sha facts.toProposalFacts
        (facts.planned u pyHash).graph repo)))[task.repoId]? = some task.fullManifestHash := by
    rw [manifests_lookup approved member named]
  rw [currentCertificate, first]
  dsimp only
  rw [same, if_neg (not_or.mpr ⟨named, evidence⟩), Dict.getD_eq, hash, Option.getD_some,
    driveState_withArchived, active.identity proven]

variable (proven : ∀ task ∈ proposal.tasks, task.rowKind = .baselineSatisfied →
    ∀ label, task.satisfyingDrive = some label → (facts.identity label).fingerprint ≠ "")
  (kept : KeepsBaseline tables archived proposal)
include proven kept

/-- The bundle has the certificate that a baseline row records. -/
theorem certificates_lookup {task : TaskRow} (member : task ∈ proposal.tasks)
    (kind : task.rowKind = .baselineSatisfied) :
    (Dict.ofPairs (bundleInput pyHash sha u tables facts proposal archived
      observed).certificates)[task.requirementId]? = task.baselineCertificate := by
  rcases (row_cases approved member).2 with ⟨executable, _⟩ | ⟨_, req, label, stands, _⟩
  · rw [kind] at executable
    cases executable
  · have distinct : ((proposal.tasks.filter (·.rowKind = .baselineSatisfied)).map
        TaskRow.requirementId).Nodup :=
      (nodup_rows approved).sublist (List.filter_sublist.map _)
    rw [bundleInput, currentInput, stands.certificate,
      Dict.lookup_ofPairs (by simpa [Function.comp_def] using distinct)]
    refine List.mem_map.mpr ⟨task, List.mem_filter.mpr ⟨member, decide_eq_true kind⟩, ?_⟩
    rw [currentCertificate_eq approved read archived checked member stands
      (proven task member kind label stands.satisfying)
      (kept task member kind label stands.satisfying)]

variable (hex : ∀ text, (sha.hash text).length = 64)
include hex

theorem checkBaseline_eq {task : TaskRow} (member : task ∈ proposal.tasks) :
    checkBaseline (bundleInput pyHash sha u tables facts proposal archived observed) task = none := by
  unfold checkBaseline
  split_ifs with kind
  · rfl
  · rw [not_not] at kind
    have current := @certificates_lookup u pyHash sha rules successor tables facts proposal approved
      read archived observed checked proven kept task member kind
    obtain ⟨req, label, stands, _⟩ : ∃ req label, Matches u sha facts task req label ∧
        task.identityEpoch = some ((facts.identity label).epoch : Int) := by
      rcases (row_cases approved member).2 with ⟨executable, _⟩ | ⟨_, baseline⟩
      · rw [kind] at executable
        cases executable
      · exact baseline
    have named : task.targetDrive = some label ∨ task.satisfyingDrive = some label ∨
        task.sourceDrive = some label := .inl stands.placed
    have active := active_of_named approved read checked member named
    have first : (labelled task.satisfyingDrive <|> labelled task.targetDrive) = some label := by
      rw [stands.satisfying, labelled_of_ne active.nonblank]
      rfl
    have stated := (driveState_of_named approved read checked member named).2
    have digest : ∀ text, some (sha.hash text) ≠ some "__MISSING__" := by
      intro text same
      have short := hex text
      rw [Option.some.inj same] at short
      cases short
    rw [first]
    dsimp only
    rw [current, stands.certificate, baselineCertificate, if_neg (digest _)]
    simp only [bundleInput, currentInput, driveState_withArchived, stated]
    simp [truthy, isGone, lifecycleOf, orDefault, sha.nonempty]

/-- No check of the proposal as a whole refuses it. -/
theorem checkProposal_eq (lifecycle : proposal.lifecycle = .approved)
    (young : ∀ task ∈ proposal.tasks, ∀ epoch, task.identityEpoch = some epoch → epoch < 99) :
    checkProposal proposal (bundleInput pyHash sha u tables facts proposal archived observed)
      (currentGraph sha (tables.withArchived archived) proposal) = none := by
  have manifests : proposal.tasks.findSome? (checkManifest
      (bundleInput pyHash sha u tables facts proposal archived observed)) = none :=
    List.findSome?_eq_none_iff.mpr fun _ => checkManifest_eq approved archived
  have lifecycles : proposal.tasks.findSome? (checkLifecycle
      (bundleInput pyHash sha u tables facts proposal archived observed)) = none :=
    List.findSome?_eq_none_iff.mpr fun _ => checkLifecycle_eq approved read archived checked
  have identities : proposal.tasks.findSome? (checkIdentity
      (bundleInput pyHash sha u tables facts proposal archived observed)) = none :=
    List.findSome?_eq_none_iff.mpr fun task member =>
      checkIdentity_eq approved read archived checked member (young task member)
  have baselines : proposal.tasks.findSome? (checkBaseline
      (bundleInput pyHash sha u tables facts proposal archived observed)) = none :=
    List.findSome?_eq_none_iff.mpr fun _ =>
      checkBaseline_eq approved read archived checked proven kept hex
  rw [checkProposal, if_neg (not_not.mpr lifecycle),
    checkRequirements_eq (expandedIds_eq approved read archived), checkInvariants_eq approved archived,
    manifests, lifecycles, identities, baselines]
  rfl

end Drives

end Checks

end Modelark.Fill
