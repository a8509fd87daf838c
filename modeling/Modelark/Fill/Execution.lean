import Modelark.Fill.Current
import Modelark.Library.Runs

/-!
# Executing an approved proposal

The projection of an approved proposal at every point of its execution, when its tasks are executed in
any order in which a copy is made after the home that it is copied from.
-/

namespace Modelark.Revision.Tables

open Library

theorem find_upsertArchived (tables : Tables) (row : ArchivedRow) (wanted : String × String × String) :
    (tables.upsertArchived row).archived.find wanted =
      if row.key = wanted then some row else tables.archived.find wanted := by
  have looked := Table.find_upsert tables.archived row (fun old : ArchivedRow => { row with
    repoId := old.repoId
    rfilename := old.rfilename
    driveLabel := old.driveLabel }) (fun _ => rfl) wanted
  apply looked.trans
  split_ifs with same
  · cases found : tables.archived.find wanted with
    | none => rfl
    | some old =>
        have key := ((Table.find_eq_some _).mp found).2
        rw [← same] at key
        simp only [ArchivedRow.key, Prod.mk.injEq] at key
        simp [key]
  · rfl

/-- One archived row after another. -/
def storeRows (tables : Tables) (rows : List ArchivedRow) : Tables :=
  rows.foldl upsertArchived tables

@[simp] theorem storeRows_nil (tables : Tables) : tables.storeRows [] = tables := rfl

@[simp] theorem storeRows_cons (tables : Tables) (row : ArchivedRow) (rows : List ArchivedRow) :
    tables.storeRows (row :: rows) = (tables.upsertArchived row).storeRows rows := rfl

theorem storeRows_eq (tables : Tables) (rows : List ArchivedRow) :
    tables.storeRows rows = tables.withArchived (tables.storeRows rows).archived := by
  induction rows generalizing tables with
  | nil => rfl
  | cons row rows ih =>
      rw [storeRows_cons, ih]
      rfl

/-- Stored rows are found; the others are what they were. -/
theorem find_storeRows (tables : Tables) {rows : List ArchivedRow}
    (agree : ∀ left ∈ rows, ∀ right ∈ rows, left.key = right.key → left = right)
    (wanted : String × String × String) : (tables.storeRows rows).archived.find wanted =
      (rows.find? fun row => row.key = wanted).or (tables.archived.find wanted) := by
  induction rows generalizing tables with
  | nil => simp
  | cons row rows ih =>
      have later := ih (tables.upsertArchived row) fun left member right member' =>
        agree left (List.mem_cons_of_mem row member) right (List.mem_cons_of_mem row member')
      rw [storeRows_cons, later, find_upsertArchived, List.find?_cons]
      by_cases here : row.key = wanted
      · cases again : rows.find? fun row => row.key = wanted with
        | none => simp [here]
        | some other =>
            have among := List.mem_of_find?_eq_some again
            have key : other.key = wanted := by simpa using List.find?_some again
            have same := agree other (List.mem_cons_of_mem row among) row List.mem_cons_self
              (key.trans here.symm)
            simp [here, same]
      · simp [here]

/-- Rows that a condition on the key does not select among the stored ones. -/
theorem filter_storeRows (tables : Tables) {where' : ArchivedRow → Bool}
    (pins : ∀ left right : ArchivedRow, left.key = right.key → where' left = where' right)
    {rows : List ArchivedRow} (spared : ∀ row ∈ rows, where' row = false) :
    (tables.storeRows rows).archived.rows.filter where' = tables.archived.rows.filter where' := by
  induction rows generalizing tables with
  | nil => rfl
  | cons row rows ih =>
      rw [storeRows_cons, ih _ fun other member => spared other (List.mem_cons_of_mem row member)]
      exact Table.filter_upsert _ pins (spared row List.mem_cons_self) _ _

end Modelark.Revision.Tables

namespace Modelark.Fill

open Modelark.Archive Library Planning PlannerInput Placement Proposal
open Modelark.Execution (FleetDrive)
open Revision (Tables ReadRules ArchivedRow)

/-- What executing a task archives: a satisfying row on its target for each of its approved files. -/
structure TaskExecution (u : Unicode) (proposal : Loaded) where
  task : TaskRow
  row : FileRow → ArchivedRow
  listed : task ∈ proposal.tasks
  executable : task.rowKind = .executable
  keyed : ∀ file ∈ fileGroup proposal task.requirementId,
    (row file).repoId = task.repoId ∧ (row file).rfilename = file.rfilename ∧
      some (row file).driveLabel = task.targetDrive
  satisfying : ∀ file ∈ fileGroup proposal task.requirementId,
    satisfiedBy u file.origSha256 (row file).fact = true

variable {u : Unicode} {proposal : Loaded}

def TaskExecution.rows (execution : TaskExecution u proposal) : List ArchivedRow :=
  (fileGroup proposal execution.task.requirementId).map execution.row

/-- The key of an executed row is that of its file on the target. -/
theorem TaskExecution.key_of_row (execution : TaskExecution u proposal) {row : ArchivedRow}
    (member : row ∈ execution.rows) :
    ∃ file ∈ fileGroup proposal execution.task.requirementId, row = execution.row file ∧
      ∃ target, execution.task.targetDrive = some target ∧
        row.key = (execution.task.repoId, file.rfilename, target) := by
  obtain ⟨file, grouped, rfl⟩ := List.mem_map.mp member
  obtain ⟨repo, name, target⟩ := execution.keyed file grouped
  exact ⟨file, grouped, rfl, _, target.symm, by rw [ArchivedRow.key, repo, name]⟩

/-- The stored bytes do not overrun what the projection allows a task with a durable charge. -/
def TaskExecution.Affordable (execution : TaskExecution u proposal) : Prop :=
  ∀ durable, execution.task.guaranteedDurable = some durable → 0 < durable →
    ((total (fun row : ArchivedRow => row.storedBytes.getD 0) execution.rows : Nat) : Int) ≤
      max (durable * 1000) (10 ^ 12)

/-- The catalog, and what was executed so far. -/
structure FillState (u : Unicode) (proposal : Loaded) where
  tables : Tables
  executed : List (TaskExecution u proposal)

def FillState.done (state : FillState u proposal) : List TaskRow :=
  state.executed.map TaskExecution.task

def FillState.execute (state : FillState u proposal) (execution : TaskExecution u proposal) :
    FillState u proposal where
  tables := state.tables.storeRows execution.rows
  executed := state.executed ++ [execution]

/-- A task is executed once, and a copy from another drive after its executable home. -/
structure Allowed (state : FillState u proposal) (execution : TaskExecution u proposal) : Prop where
  pending : execution.task ∉ state.done
  sourced : execution.task.sourceDrive ≠ none → ∀ home ∈ proposal.tasks, home.rowKind = .executable →
    home.requirementId = "primary:" ++ execution.task.repoId → home ∈ state.done

section Rows

variable {pyHash : KeyPart → HashValue} {sha : Digester} {facts : PreviewFacts}
  (approved : ApprovedFrom u pyHash sha facts proposal)
include approved

theorem finishes_of_executable {task : TaskRow} (member : task ∈ proposal.tasks)
    (executable : task.rowKind = .executable) :
    ∃ req target, Finishes u facts proposal task req target := by
  rcases (row_cases approved member).2 with ⟨_, req, target, finishes, _⟩ | ⟨baseline, _⟩
  · exact ⟨req, target, finishes⟩
  · rw [executable] at baseline
    cases baseline

/-- Two executable rows of one repository have different targets. -/
theorem eq_of_target {task other : TaskRow} (member : task ∈ proposal.tasks)
    (member' : other ∈ proposal.tasks) (executable : task.rowKind = .executable)
    (executable' : other.rowKind = .executable) (repo : task.repoId = other.repoId)
    (target : task.targetDrive = other.targetDrive) : task = other := by
  obtain ⟨req, label, finishes⟩ := finishes_of_executable approved member executable
  obtain ⟨req', label', finishes'⟩ := finishes_of_executable approved member' executable'
  obtain rfl : label = label' := by
    rw [finishes.placed, finishes'.placed] at target
    exact Option.some.inj target
  obtain ⟨drive, known, tier⟩ :=
    tier_of_pool finishes.desired (missing_nonempty finishes.finishable).1
  obtain ⟨drive', known', tier'⟩ :=
    tier_of_pool finishes'.desired (missing_nonempty finishes'.finishable).1
  obtain rfl : drive = drive' := Option.some.inj (known.symm.trans known')
  have same : req = req' := eq_of_tier finishes.desired finishes'.desired
    (by rw [← finishes.repo, ← finishes'.repo, repo]) tier tier'
  exact List.inj_on_of_nodup_map (nodup_rows approved) member member'
    (by rw [finishes.named, finishes'.named, same])

/-- A drive with a complete copy is no target of another copy of its repository. -/
theorem target_ne_of_complete {task : TaskRow} (member : task ∈ proposal.tasks)
    (executable : task.rowKind = .executable) {req : CopyRequirement} (repo : task.repoId = req.repoId)
    {label : String} (complete : label ∈ (facts.input.planner.complete u req).map Holding.driveLabel) :
    task.targetDrive ≠ some label := by
  intro placed
  obtain ⟨other, target, finishes⟩ := finishes_of_executable approved member executable
  obtain rfl : label = target := Option.some.inj (placed.symm.trans finishes.placed)
  obtain ⟨_, _, _, missing⟩ := missing_nonempty finishes.finishable
  obtain ⟨mf, lacks⟩ := List.exists_mem_of_ne_nil _ missing
  have proven := (holds_copy.mp complete).2 mf (by
    rw [← repo, finishes.repo]
    exact missing_listed lacks)
  have absent := verdict_of_missing lacks
  rw [← finishes.repo, repo, proven] at absent
  cases absent

end Rows

/-- The archive of a state: what was executed is there, and everything else is as at the start. -/
structure Follows (start : Tables) (state : FillState u proposal) : Prop where
  tables : state.tables = start.withArchived state.tables.archived
  stored : ∀ execution ∈ state.executed, ∀ row ∈ execution.rows,
    state.tables.archived.find row.key = some row
  untouched : ∀ wanted, (∀ execution ∈ state.executed, ∀ row ∈ execution.rows, row.key ≠ wanted) →
    state.tables.archived.find wanted = start.archived.find wanted
  baseline : KeepsBaseline start state.tables.archived proposal

theorem Follows.start (tables : Tables) : Follows tables (⟨tables, []⟩ : FillState u proposal) where
  tables := rfl
  stored := by simp
  untouched := by simp
  baseline := fun _ _ _ _ _ => rfl

section Run

variable {pyHash : KeyPart → HashValue} {sha : Digester} {rules : ReadRules}
  {successor : Tables.SuccessorRules} {start : Tables} {facts : PreviewFacts}
  (approved : ApprovedFrom u pyHash sha facts proposal) (read : ReadFrom rules successor start facts)
  {state : FillState u proposal}

include approved read

/-- The rows of one execution have different keys. -/
theorem TaskExecution.agree (execution : TaskExecution u proposal) : ∀ left ∈ execution.rows,
    ∀ right ∈ execution.rows, left.key = right.key → left = right := by
  intro left member right member' same
  obtain ⟨_, _, finishes⟩ := finishes_of_executable approved execution.listed execution.executable
  obtain ⟨file, grouped, rfl, _, _, key⟩ := execution.key_of_row member
  obtain ⟨file', grouped', rfl, _, _, key'⟩ := execution.key_of_row member'
  rw [key, key', Prod.mk.injEq, Prod.mk.injEq] at same
  rw [finishes.eq_of_name read grouped grouped' same.2.1]

omit read in
/-- Executions of different tasks write different keys. -/
theorem TaskExecution.apart {execution other : TaskExecution u proposal} (different : execution.task ≠ other.task)
    {row row' : ArchivedRow} (member : row ∈ execution.rows) (member' : row' ∈ other.rows) :
    row.key ≠ row'.key := by
  obtain ⟨_, _, _, target, placed, key⟩ := execution.key_of_row member
  obtain ⟨_, _, _, target', placed', key'⟩ := other.key_of_row member'
  intro same
  rw [key, key', Prod.mk.injEq, Prod.mk.injEq] at same
  apply different
  apply eq_of_target approved execution.listed other.listed execution.executable other.executable same.1
  rw [placed, placed', same.2.2]

/-- An execution that is allowed keeps the archive in line. -/
theorem follows_execute {execution : TaskExecution u proposal} (allowed : Allowed state execution)
    (follows : Follows start state) : Follows start (state.execute execution) := by
  have found := state.tables.find_storeRows (execution.agree approved read)
  refine ⟨?_, ?_, ?_, ?_⟩
  · calc state.tables.storeRows execution.rows
      _ = state.tables.withArchived (state.tables.storeRows execution.rows).archived :=
        state.tables.storeRows_eq execution.rows
      _ = (start.withArchived state.tables.archived).withArchived
          (state.tables.storeRows execution.rows).archived :=
        congrArg (Tables.withArchived · (state.tables.storeRows execution.rows).archived) follows.tables
      _ = start.withArchived (state.tables.storeRows execution.rows).archived := rfl
  · intro other listed row member
    rcases List.mem_append.mp listed with before | now
    · have different : execution.task ≠ other.task := fun same =>
        allowed.pending (same ▸ List.mem_map_of_mem before)
      have fresh : (execution.rows.find? fun new => new.key = row.key) = none := by
        rw [List.find?_eq_none]
        intro new written
        simpa using TaskExecution.apart approved different written member
      rw [FillState.execute, found, fresh, Option.none_or]
      exact follows.stored other before row member
    · obtain rfl := List.mem_singleton.mp now
      have first : (other.rows.find? fun new => new.key = row.key) = some row := by
        cases sought : other.rows.find? fun new => new.key = row.key with
        | none =>
            have absent := List.find?_eq_none.mp sought row member
            simp at absent
        | some new =>
            have key : new.key = row.key := by simpa using List.find?_some sought
            rw [other.agree approved read new (List.mem_of_find?_eq_some sought) row member key]
      rw [FillState.execute, found, first, Option.some_or]
  · intro wanted spared
    have fresh : (execution.rows.find? fun new => new.key = wanted) = none := by
      rw [List.find?_eq_none]
      intro new written
      simpa using spared execution (List.mem_append_right _ (List.mem_singleton_self _)) new written
    rw [FillState.execute, found, fresh, Option.none_or]
    exact follows.untouched wanted fun other before =>
      spared other (List.mem_append_left _ before)
  · intro task member baseline label satisfying
    rw [← follows.baseline task member baseline label satisfying]
    apply state.tables.filter_storeRows
    · intro left right same
      simp only [ArchivedRow.key, Prod.mk.injEq] at same
      rw [same.1, same.2.2]
    · intro row written
      obtain ⟨file, _, _, target, placed, key⟩ := execution.key_of_row written
      simp only [ArchivedRow.key, Prod.mk.injEq] at key
      rcases (row_cases approved member).2 with ⟨executable, _⟩ | ⟨_, req, label', stands, _⟩
      · rw [baseline] at executable
        cases executable
      · obtain rfl : label = label' := Option.some.inj (satisfying.symm.trans stands.satisfying)
        rw [key.1, key.2.2, Bool.and_eq_false_imp]
        intro repo
        have free := target_ne_of_complete approved execution.listed execution.executable
          ((beq_iff_eq.mp repo).trans stands.repo) stands.complete
        rw [placed] at free
        simpa using free

/-- Every state of an allowed run is in line. -/
theorem follows_run {executions : List (TaskExecution u proposal)}
    (permitted : Permitted FillState.execute Allowed ⟨start, []⟩ executions) :
    Follows start (run FillState.execute ⟨start, []⟩ executions) :=
  run_invariant (fun _ _ => follows_execute approved read) permitted (Follows.start start)

end Run

section Content

variable {tables : Tables} {repo label : String} {files : List FileRow}

theorem fileContent_iff {file : FileRow} :
    fileContentSatisfied u tables.facts.archived repo label file = true ↔
      ∃ row, tables.archived.find (repo, file.rfilename, label) = some row ∧
        satisfiedBy u file.origSha256 row.fact = true := by
  rw [fileContentSatisfied, archivedRow_find]
  cases tables.archived.find (repo, file.rfilename, label) with
  | none => simp
  | some row => simp [satisfiedBy]

theorem allFiles_iff (named : label ≠ "") (present : files ≠ []) :
    allFilesContentSatisfied u tables.facts.archived repo files (some label) = true ↔
      ∀ file ∈ files, ∃ row, tables.archived.find (repo, file.rfilename, label) = some row ∧
        satisfiedBy u file.origSha256 row.fact = true := by
  simp only [allFilesContentSatisfied, labelled_of_ne named, Bool.and_eq_true, List.all_eq_true,
    fileContent_iff]
  simp [present]

end Content

section Points

variable {pyHash : KeyPart → HashValue} {sha : Digester} {rules : ReadRules}
  {successor : Tables.SuccessorRules} {start : Tables} {facts : PreviewFacts}
  (approved : ApprovedFrom u pyHash sha facts proposal) (read : ReadFrom rules successor start facts)
  (checked : start.Checked) {state : FillState u proposal} (follows : Follows start state)
  {task : TaskRow} (member : task ∈ proposal.tasks) (executable : task.rowKind = .executable)

include approved follows

omit approved in
/-- The rows of an executed task are there. -/
theorem found_of_done (done : task ∈ state.done) :
    ∃ execution ∈ state.executed, execution.task = task ∧
      ∀ file ∈ fileGroup proposal task.requirementId, ∀ target, task.targetDrive = some target →
        state.tables.archived.find (task.repoId, file.rfilename, target) =
          some (execution.row file) := by
  obtain ⟨execution, executed, rfl⟩ := List.mem_map.mp done
  refine ⟨execution, executed, rfl, ?_⟩
  intro file grouped target placed
  have written : execution.row file ∈ execution.rows := List.mem_map_of_mem grouped
  obtain ⟨repo, name, label⟩ := execution.keyed file grouped
  obtain rfl : (execution.row file).driveLabel = target := by
    rw [placed] at label
    exact Option.some.inj label
  rw [← follows.stored execution executed _ written, ArchivedRow.key, repo, name]

include member executable in
/-- Nothing is written to a target before its task is executed. -/
theorem find_of_pending (pending : task ∉ state.done) {target : String}
    (placed : task.targetDrive = some target) (rfilename : String) :
    state.tables.archived.find (task.repoId, rfilename, target) =
      start.archived.find (task.repoId, rfilename, target) := by
  apply follows.untouched
  intro execution executed row written same
  obtain ⟨_, _, _, label, placed', key⟩ := execution.key_of_row written
  rw [key, Prod.mk.injEq, Prod.mk.injEq] at same
  apply pending
  have here : execution.task = task := by
    apply eq_of_target approved execution.listed member execution.executable executable same.1
    rw [placed', placed, same.2.2]
  exact here ▸ List.mem_map_of_mem executed

/-- Nothing is written to a drive with a complete copy. -/
theorem find_of_complete {req : CopyRequirement} {label : String}
    (complete : label ∈ (facts.input.planner.complete u req).map Holding.driveLabel)
    (rfilename : String) : state.tables.archived.find (req.repoId, rfilename, label) =
      start.archived.find (req.repoId, rfilename, label) := by
  apply follows.untouched
  intro execution executed row written same
  obtain ⟨_, _, _, target, placed, key⟩ := execution.key_of_row written
  rw [key, Prod.mk.injEq, Prod.mk.injEq] at same
  apply target_ne_of_complete approved execution.listed execution.executable same.1 complete
  rw [placed, same.2.2]

include read checked member executable

/-- All approved files are on the target of a task exactly when it was executed. -/
theorem allFiles_target : allFilesContentSatisfied u state.tables.facts.archived task.repoId
    (fileGroup proposal task.requirementId) task.targetDrive = true ↔ task ∈ state.done := by
  obtain ⟨req, target, finishes⟩ := finishes_of_executable approved member executable
  have active := active_of_named approved read checked member (.inl finishes.placed)
  rw [finishes.placed, allFiles_iff active.nonblank finishes.nonempty]
  constructor
  · intro held
    by_contra pending
    obtain ⟨file, grouped⟩ := List.exists_mem_of_ne_nil _ finishes.nonempty
    obtain ⟨row, found, _⟩ := held file grouped
    obtain ⟨mf, lacks, rfl⟩ := (finishes.files file).mp grouped
    rw [find_of_pending approved follows member executable pending finishes.placed] at found
    have absent := finishes.absent read lacks
    simp [fileRow, absent] at found
  · intro done file grouped
    obtain ⟨execution, _, rfl, found⟩ := found_of_done follows done
    exact ⟨_, found file grouped target finishes.placed, execution.satisfying file grouped⟩

/-- The budget of a task is never exceeded. -/
theorem checkBudget_eq (affordable : ∀ execution ∈ state.executed, execution.Affordable)
    {input : ProjectionInput} (archived : input.archived = state.tables.facts.archived)
    (ratios : input.observedRatio = []) {durable : Int} (charged : task.guaranteedDurable = some durable) :
    checkBudget input task durable (fileGroup proposal task.requirementId) = none := by
  obtain ⟨req, target, finishes⟩ := finishes_of_executable approved member executable
  have active := active_of_named approved read checked member (.inl finishes.placed)
  have bounded : ¬(0 < durable ∧ max (durable * 1000) (10 ^ 12) <
      ((approvedStoredSum input.archived task.repoId (fileGroup proposal task.requirementId)
        task.targetDrive : Nat) : Int)) := by
    rintro ⟨positive, overrun⟩
    rw [finishes.placed, approvedStoredSum, labelled_of_ne active.nonblank, archived] at overrun
    dsimp only at overrun
    by_cases done : task ∈ state.done
    · obtain ⟨execution, executed, rfl, found⟩ := found_of_done follows done
      have sum : total (fun file : FileRow => storedBytes state.tables.facts.archived
          execution.task.repoId file.rfilename target)
          (fileGroup proposal execution.task.requirementId) =
            total (fun row : ArchivedRow => row.storedBytes.getD 0) execution.rows := by
        rw [TaskExecution.rows, total_map]
        apply congrArg List.sum
        apply List.map_congr_left
        intro file grouped
        rw [storedBytes, archivedRow_find, found file grouped target finishes.placed]
        rfl
      have bound := affordable execution executed durable charged positive
      rw [sum] at overrun
      omega
    · have sum : total (fun file : FileRow => storedBytes state.tables.facts.archived task.repoId
          file.rfilename target) (fileGroup proposal task.requirementId) = 0 := by
        apply List.sum_eq_zero
        intro bytes counted
        obtain ⟨file, grouped, rfl⟩ := List.mem_map.mp counted
        obtain ⟨mf, lacks, rfl⟩ := (finishes.files file).mp grouped
        have absent := finishes.absent read lacks
        rw [storedBytes, archivedRow_find,
          find_of_pending approved follows member executable done finishes.placed]
        simp [fileRow, absent]
      rw [sum] at overrun
      omega
  simp only [checkBudget, ratios, if_neg bounded]
  rfl

omit checked in
/-- The target of an executed task holds every file of the manifest. -/
theorem held_of_done (done : task ∈ state.done) {req : CopyRequirement} {target : String}
    (finishes : Finishes u facts proposal task req target) {mf : ManifestFile}
    (planned : mf ∈ facts.input.planner.manifestOf req.repoId) :
    ∃ row, state.tables.archived.find (task.repoId, mf.rfilename, target) = some row ∧
      satisfiedBy u mf.sha256 row.fact = true := by
  by_cases lacks : mf ∈ (facts.input.planner.holding u req target).missing
  · obtain ⟨execution, _, rfl, found⟩ := found_of_done follows done
    have grouped := (finishes.files _).mpr ⟨mf, lacks, rfl⟩
    exact ⟨_, found _ grouped target finishes.placed, execution.satisfying _ grouped⟩
  · obtain ⟨row, found, satisfied⟩ := finishes.held read planned lacks
    refine ⟨row, ?_, satisfied⟩
    rw [← found, ← finishes.repo]
    apply follows.untouched
    intro execution executed other written same
    obtain ⟨file, grouped, _, label, placed, key⟩ := execution.key_of_row written
    rw [key, Prod.mk.injEq, Prod.mk.injEq] at same
    obtain rfl : execution.task = task := by
      apply eq_of_target approved execution.listed member execution.executable executable same.1
      rw [placed, finishes.placed, same.2.2]
    obtain ⟨mf', lacks', rfl⟩ := (finishes.files file).mp grouped
    apply lacks
    rw [← List.inj_on_of_nodup_map (read.names (repo_of_desired finishes.desired)).1
      (missing_listed lacks') planned same.2.1]
    exact lacks'

/-- The source of a copy has all its files, or else the executable home is still to be executed. -/
theorem source_or_pending {source : String} (sourced : task.sourceDrive = some source) :
    allFilesContentSatisfied u state.tables.facts.archived task.repoId
        (fileGroup proposal task.requirementId) task.sourceDrive = true ∨
      ∃ home ∈ proposal.tasks, home.rowKind = .executable ∧
        home.requirementId = "primary:" ++ task.repoId ∧ home ∉ state.done := by
  obtain ⟨req, target, finishes⟩ := finishes_of_executable approved member executable
  have active := active_of_named approved read checked member (.inr (.inr sourced))
  obtain ⟨home, pair, from_⟩ := finishes.sourced source sourced
  have repo : home.repoId = task.repoId := by rw [finishes.repo, pair.kind.2]
  rw [sourced, allFiles_iff active.nonblank finishes.nonempty]
  rcases from_ with complete | ⟨row, listed, rowExecutable, named, placed⟩
  · left
    intro file grouped
    obtain ⟨mf, lacks, rfl⟩ := (finishes.files file).mp grouped
    have planned : mf ∈ facts.input.planner.manifestOf home.repoId := by
      rw [repo, finishes.repo]
      exact missing_listed lacks
    obtain ⟨row, found, satisfied⟩ := held_of_complete read pair.homeDesired complete planned
    refine ⟨row, ?_, satisfied⟩
    rw [← repo, find_of_complete approved follows complete]
    exact found
  · by_cases done : row ∈ state.done
    · left
      intro file grouped
      obtain ⟨mf, lacks, rfl⟩ := (finishes.files file).mp grouped
      obtain ⟨other, label, finishes'⟩ := finishes_of_executable approved listed rowExecutable
      obtain rfl : source = label := Option.some.inj (placed.symm.trans finishes'.placed)
      obtain rfl : home = other := eq_of_proposalId pair.homeDesired finishes'.desired
        (named.symm.trans finishes'.named)
      have planned : mf ∈ facts.input.planner.manifestOf home.repoId := by
        rw [repo, finishes.repo]
        exact missing_listed lacks
      have held := held_of_done approved read follows listed rowExecutable done finishes' planned
      rwa [finishes'.repo, repo] at held
    · right
      refine ⟨row, listed, rowExecutable, ?_, done⟩
      rw [named, primary_of_home pair, finishes.repo]

omit read checked follows in
/-- The primary of a repository is about that repository. -/
theorem repo_of_primary {repo : String} (named : task.requirementId = "primary:" ++ repo) :
    task.repoId = repo := by
  obtain ⟨req, target, finishes⟩ := finishes_of_executable approved member executable
  calc task.repoId = repoOf req.requirementId := by rw [finishes.repo, repoOf_desired finishes.desired]
    _ = repoOf ("primary:" ++ repo) := by
        rw [← repoOf_proposalRequirementId, ← finishes.named, named]
    _ = repo := @repoOf_append "primary" (by decide) repo

/-- A home that is still to be executed counts as unfinished. -/
theorem primaryUnfinished_of_pending {repo : String}
    (named : task.requirementId = "primary:" ++ repo) (pending : task ∉ state.done) :
    primaryUnfinished u proposal state.tables.facts.archived repo = true := by
  obtain ⟨req, target, finishes⟩ := finishes_of_executable approved member executable
  have found : (proposal.tasks.find? fun task =>
      task.requirementId == "primary:" ++ repo && task.rowKind == .executable) = some task := by
    cases sought : proposal.tasks.find? fun task =>
        task.requirementId == "primary:" ++ repo && task.rowKind == .executable with
    | none =>
        have absent := List.find?_eq_none.mp sought task member
        simp [named, executable] at absent
    | some other =>
        have holds := List.find?_some sought
        simp only [Bool.and_eq_true, beq_iff_eq] at holds
        rw [List.inj_on_of_nodup_map (nodup_rows approved) (List.mem_of_find?_eq_some sought) member
          (holds.1.trans named.symm)]
  have unfinished : ¬allFilesContentSatisfied u state.tables.facts.archived repo
      (fileGroup proposal task.requirementId) task.targetDrive = true := by
    rw [← repo_of_primary approved member executable named]
    exact fun held => pending ((allFiles_target approved read checked follows member executable).mp held)
  rw [primaryUnfinished, found]
  dsimp only
  rw [← named, finishes.usable read checked]
  simp [unfinished]

end Points

/-- A task has no source, or all its approved files are on it. -/
def Sourced (u : Unicode) (proposal : Loaded) (tables : Tables) (task : TaskRow) : Prop :=
  task.sourceDrive = none ∨ allFilesContentSatisfied u tables.facts.archived task.repoId
    (fileGroup proposal task.requirementId) task.sourceDrive = true

instance (tables : Tables) (task : TaskRow) : Decidable (Sourced u proposal tables task) :=
  inferInstanceAs (Decidable (_ ∨ _))

/-- The state in which a task is returned. -/
def scheduleOf (u : Unicode) (proposal : Loaded) (parked : List String) (tables : Tables)
    (task : TaskRow) : ScheduleState :=
  if task.repoId ∈ parked then .parkedGated
  else if Sourced u proposal tables task then .ready
  else .waitingDependency

/-- No evidence of a target is unknown. -/
def Observed (proposal : Loaded) (observed : List (String × EvidenceState)) : Prop :=
  ∀ task ∈ proposal.tasks, task.rowKind = .executable → ∀ target, task.targetDrive = some target →
    ∀ evidence, (Dict.ofPairs observed)[target]? = some evidence →
      evidence.executable = true ∨ evidence.kind ≠ some "unknown"

section Projected

variable {pyHash : KeyPart → HashValue} {sha : Digester} {rules : ReadRules}
  {successor : Tables.SuccessorRules} {start : Tables} {facts : PreviewFacts}
  (approved : ApprovedFrom u pyHash sha facts proposal) (read : ReadFrom rules successor start facts)
  (checked : start.Checked) {state : FillState u proposal} (follows : Follows start state)
  {observed : List (String × EvidenceState)} (known : Observed proposal observed)
  (parked : List String)

include approved read checked follows

section Task

variable {task : TaskRow} (member : task ∈ proposal.tasks) (executable : task.rowKind = .executable)
include member executable

theorem schedule_eq {input : ProjectionInput} (archived : input.archived = state.tables.facts.archived) :
    schedule u proposal input task (fileGroup proposal task.requirementId) =
      .ok (if Sourced u proposal state.tables task then .ready else .waitingDependency) := by
  unfold schedule
  rw [archived]
  cases sourced : task.sourceDrive with
  | none =>
      have free : Sourced u proposal state.tables task := .inl sourced
      rw [if_pos free]
      rfl
  | some source =>
      have active := active_of_named approved read checked member (.inr (.inr sourced))
      have either := source_or_pending approved read checked follows member executable sourced
      have same : Sourced u proposal state.tables task ↔ allFilesContentSatisfied u
          state.tables.facts.archived task.repoId (fileGroup proposal task.requirementId)
            (some source) = true := by simp [Sourced, sourced]
      rw [sourced] at either
      rw [labelled_of_ne active.nonblank]
      dsimp only
      by_cases held : allFilesContentSatisfied u state.tables.facts.archived task.repoId
          (fileGroup proposal task.requirementId) (some source) = true
      · rw [if_pos held, if_pos (same.mpr held)]
      · obtain ⟨home, listed, homeExecutable, named, pending⟩ := either.resolve_left held
        have unfinished := primaryUnfinished_of_pending approved read checked follows listed
          homeExecutable named pending
        rw [if_neg held, if_pos unfinished, if_neg fun free => held (same.mp free)]

include known in
omit follows in
theorem checkTargetEvidence_eq : checkTargetEvidence
    (bundleInput pyHash sha u start facts proposal state.tables.archived observed) task = none := by
  obtain ⟨req, target, finishes⟩ := finishes_of_executable approved member executable
  have active := active_of_named approved read checked member (.inl finishes.placed)
  have stated := (driveState_of_named approved read checked member (.inl finishes.placed)).2
  rw [checkTargetEvidence, finishes.placed, labelled_of_ne active.nonblank, Option.bind_some]
  cases evidence : (Dict.ofPairs observed)[target]? with
  | none => simp [bundleInput, currentInput, evidence]
  | some evidence' =>
      have sure := known task member executable target finishes.placed evidence' evidence
      simp only [bundleInput, currentInput, driveState_withArchived, evidence, stated]
      cases admits : evidence'.executable with
      | true => simp [admits]
      | false =>
          have kind : evidence'.kind ≠ some "unknown" := sure.resolve_left (by simp [admits])
          simp [admits, kind]

variable (affordable : ∀ execution ∈ state.executed, execution.Affordable)
include affordable known

/-- A task is dropped once it was executed, and returned before. -/
theorem projectTask_eq : projectTask u proposal
    (bundleInput pyHash sha u start facts proposal state.tables.archived observed) parked task =
      .ok (if task ∈ state.done then none
        else some ⟨task, scheduleOf u proposal parked state.tables task⟩) := by
  obtain ⟨req, target, finishes⟩ := finishes_of_executable approved member executable
  obtain ⟨durable, charged⟩ := finishes.durable
  have archived : (bundleInput pyHash sha u start facts proposal state.tables.archived
      observed).archived = state.tables.facts.archived := by
    rw [follows.tables]
    rfl
  have budget := checkBudget_eq approved read checked follows member executable affordable archived
    rfl charged
  have scheduled := schedule_eq approved read checked follows member executable archived
  have evidence := @checkTargetEvidence_eq u proposal pyHash sha rules successor start facts approved read checked
    state observed known task member executable
  have complete := allFiles_target approved read checked follows member executable
  unfold projectTask
  rw [if_neg (by simp [executable])]
  dsimp only
  rw [if_neg finishes.nonempty, finishes.usable read checked, if_neg finishes.nonempty, charged]
  dsimp only
  rw [budget]
  dsimp only
  rw [archived]
  by_cases done : task ∈ state.done
  · rw [if_pos (complete.mpr done), if_pos done]
  · rw [if_neg fun held => done (complete.mp held), if_neg done, scheduled, evidence]
    dsimp only [scheduleOf]

end Task

end Projected

/-- Approved order. -/
def approvedOrder (task : TaskRow) : Int ×ₗ String :=
  toLex (task.orderKey, task.requirementId)

/-- The tasks that were not executed yet. -/
def FillState.remaining (state : FillState u proposal) : List TaskRow :=
  sortBy approvedOrder (proposal.tasks.filter fun task =>
    task.rowKind = .executable ∧ task ∉ state.done)

/-- A projection of what remains. A task waits only for a home that was not executed yet. -/
structure Projects (parked : List String) (state : FillState u proposal)
    (result : ExecutionProjection) : Prop where
  rows : result.tasks.map ProjectedTask.row = state.remaining
  schedules : ∀ projected ∈ result.tasks,
    projected.schedule = scheduleOf u proposal parked state.tables projected.row
  waits : ∀ projected ∈ result.tasks, projected.schedule = .waitingDependency →
    ∃ home ∈ proposal.tasks, home.rowKind = .executable ∧
      home.requirementId = "primary:" ++ projected.row.repoId ∧ home ∉ state.done
  finished : (∀ task ∈ proposal.tasks, task.rowKind = .executable → task ∈ state.done) →
    result.tasks = []

section Follows

variable {pyHash : KeyPart → HashValue} {sha : Digester} {rules : ReadRules}
  {successor : Tables.SuccessorRules} {start : Tables} {facts : PreviewFacts}
  (approved : ApprovedFrom u pyHash sha facts proposal) (read : ReadFrom rules successor start facts)
  (checked : start.Checked) {state : FillState u proposal} (follows : Follows start state)
  {observed : List (String × EvidenceState)} (known : Observed proposal observed)
  (parked : List String) (affordable : ∀ execution ∈ state.executed, execution.Affordable)
include approved read checked follows known affordable

/-- In a state that is in line, the projection returns what remains. -/
theorem projects_of_follows (clear : checkProposal proposal
      (bundleInput pyHash sha u start facts proposal state.tables.archived observed)
      (currentGraph sha (start.withArchived state.tables.archived) proposal) = none) :
    ∃ result, projectPure u proposal
        (bundleInput pyHash sha u start facts proposal state.tables.archived observed) parked sha
        (currentGraph sha (start.withArchived state.tables.archived) proposal) = .ok result ∧
      Projects parked state result := by
  have each : ∀ task ∈ proposal.tasks, projectTask u proposal
      (bundleInput pyHash sha u start facts proposal state.tables.archived observed) parked task =
        .ok (if task.rowKind = .executable ∧ task ∉ state.done then
          some ⟨task, scheduleOf u proposal parked state.tables task⟩ else none) := by
    intro task member
    by_cases executable : task.rowKind = .executable
    · rw [projectTask_eq approved read checked follows known parked member executable affordable]
      by_cases done : task ∈ state.done <;> simp [executable, done]
    · unfold projectTask
      rw [if_pos executable, if_neg fun both => executable both.1]
  let kept := (proposal.tasks.filter fun task => task.rowKind = .executable ∧ task ∉ state.done).map
    fun task => (⟨task, scheduleOf u proposal parked state.tables task⟩ : ProjectedTask)
  have collected : collect (projectTask u proposal
      (bundleInput pyHash sha u start facts proposal state.tables.archived observed) parked)
        proposal.tasks = .ok kept := by
    refine collect_eq_ok.mpr ⟨fun task member => ⟨_, each task member⟩, ?_⟩
    rw [List.filterMap_congr fun task member => by rw [each task member]]
    simp only [kept, ← List.filterMap_eq_map, List.filterMap_filter]
    apply List.filterMap_congr
    intro task _
    split_ifs <;> simp_all [Except.toOption]
  let projected := sortBy executionKey kept
  refine ⟨⟨proposal.proposalId, projected, canonicalProjectionHash sha projected⟩, ?_, ?_, ?_, ?_, ?_⟩
  · rw [projectPure, clear, collected]
  · have rows : (sortBy executionKey kept).map ProjectedTask.row =
        sortBy approvedOrder (kept.map ProjectedTask.row) :=
      sortBy_map ProjectedTask.row approvedOrder kept
    rw [rows, FillState.remaining]
    simp [kept, Function.comp_def]
  · intro projected listed
    obtain ⟨task, _, rfl⟩ := List.mem_map.mp (mem_sortBy.mp listed)
    rfl
  · intro projected listed waits
    obtain ⟨task, among, rfl⟩ := List.mem_map.mp (mem_sortBy.mp listed)
    obtain ⟨member, both⟩ := List.mem_filter.mp among
    obtain ⟨executable, _⟩ := of_decide_eq_true both
    have unsourced : ¬Sourced u proposal state.tables task := by
      intro free
      simp only [scheduleOf, if_pos free] at waits
      split_ifs at waits
    cases sourced : task.sourceDrive with
    | none => exact absurd (.inl sourced) unsourced
    | some source =>
        exact (source_or_pending approved read checked follows member executable sourced).resolve_left
          fun held => unsourced (.inr held)
  · intro all
    rw [sortBy_eq_nil, List.map_eq_nil_iff, List.filter_eq_nil_iff]
    intro task member
    simpa using all task member

end Follows

theorem executed_run (executions : List (TaskExecution u proposal)) (state : FillState u proposal) :
    (run FillState.execute state executions).executed = state.executed ++ executions := by
  induction executions generalizing state with
  | nil => simp
  | cons execution executions ih => simp [ih, FillState.execute]

/-- An approval that finalizes nothing leaves the selection as it was. -/
theorem approved_unchanged {now : String} {mutation : Proposal.Mutation} {before after : Tables}
    (accepted : before.approved now mutation = .ok after) (kept : mutation.kind ≠ "finalize") :
    after = before ∧ mutation.kind ≠ "" := by
  unfold Tables.approved at accepted
  split_ifs at accepted with adopt replan
  · cases accepted
    exact ⟨rfl, by simp [adopt]⟩
  · cases accepted
    exact ⟨rfl, by simp [replan]⟩

/-- What the approval of a previewed proposal leaves, as far as its execution depends on it. -/
structure Accepted (u : Unicode) (pyHash : KeyPart → HashValue) (sha : Digester) (rules : ReadRules)
    (successor : Tables.SuccessorRules) (facts : PreviewFacts) (proposal : Loaded) (now : String)
    (before after : Tables) : Prop where
  read : ReadFrom rules successor before facts
  checked : before.Checked
  approved : ApprovedFrom u pyHash sha facts proposal
  lifecycle : proposal.lifecycle = .approved
  /-- The approval recomputes the certificates, which takes an identified drive. -/
  proven : ∀ task ∈ proposal.tasks, task.rowKind = .baselineSatisfied →
    ∀ label, task.satisfyingDrive = some label → (facts.identity label).fingerprint ≠ ""
  mutated : before.approved now facts.mutation = .ok after

/-- At every point of every execution in dependency order, the projection returns what remains, and
    every baseline certificate is what it was. -/
theorem projection_follows {pyHash : KeyPart → HashValue} {sha : Digester} {rules : ReadRules}
    {successor : Tables.SuccessorRules} {facts : PreviewFacts} {now : String} {before after : Tables}
    (accepted : Accepted u pyHash sha rules successor facts proposal now before after)
    (hex : ∀ text, (sha.hash text).length = 64) (kept : facts.mutation.kind ≠ "finalize")
    (young : ∀ task ∈ proposal.tasks, ∀ epoch, task.identityEpoch = some epoch → epoch < 99)
    {observed : List (String × EvidenceState)}
    (covered : ∀ label ∈ proposalDriveIds proposal, label ∈ observed.map Prod.fst)
    (known : Observed proposal observed) (parked : List String)
    {executions : List (TaskExecution u proposal)}
    (permitted : Permitted FillState.execute Allowed ⟨after, []⟩ executions)
    (affordable : ∀ execution ∈ executions, execution.Affordable) :
    let state := run FillState.execute ⟨after, []⟩ executions
    ∃ input graph result,
      catalogProjectionBundle sha rules successor state.tables proposal observed = .ok (input, graph) ∧
        projectPure u proposal input parked sha graph = .ok result ∧ Projects parked state result ∧
        ∀ task ∈ proposal.tasks, task.rowKind = .baselineSatisfied →
          (Dict.ofPairs input.certificates)[task.requirementId]? = task.baselineCertificate := by
  intro state
  obtain ⟨read, checked, approved, lifecycle, proven, mutated⟩ := accepted
  obtain ⟨rfl, named⟩ := approved_unchanged mutated kept
  have follows : Follows after state := follows_run approved read permitted
  have executed : ∀ execution ∈ state.executed, execution.Affordable := by
    rw [executed_run]
    simpa using affordable
  have clear : checkProposal proposal
      (bundleInput pyHash sha u after facts proposal state.tables.archived observed)
      (currentGraph sha (after.withArchived state.tables.archived) proposal) = none :=
    checkProposal_eq approved read state.tables.archived checked proven follows.baseline hex lifecycle
      young
  obtain ⟨result, projected, projects⟩ :=
    projects_of_follows approved read checked follows known parked executed clear
  have bundle := catalogProjectionBundle_eq approved read state.tables.archived named covered
  rw [← follows.tables] at bundle projected
  exact ⟨_, _, result, bundle, projected, projects, fun _ =>
    certificates_lookup approved read state.tables.archived checked proven follows.baseline⟩

/-- A projection that succeeds has compared the semantic input. -/
theorem checkInvariants_of_projected {sha : Digester} {input : ProjectionInput}
    {graph : ProjectionGraph} {parked : List String} {result : ExecutionProjection}
    (projected : projectPure u proposal input parked sha graph = .ok result) :
    checkInvariants proposal input = none := by
  unfold projectPure at projected
  cases checked : checkProposal proposal input graph with
  | some refused =>
      rw [checked] at projected
      cases projected
  | none =>
      unfold checkProposal at checked
      split_ifs at checked
      simp only [Option.orElse_eq_orElse, Option.orElse_eq_or, Option.or_eq_none_iff] at checked
      exact checked.2.1

theorem invariants_of_bundle {sha : Digester} {rules : ReadRules} {successor : Tables.SuccessorRules}
    {tables : Tables} {observed : List (String × EvidenceState)} {input : ProjectionInput}
    {graph : ProjectionGraph}
    (bundle : catalogProjectionBundle sha rules successor tables proposal observed = .ok (input, graph)) :
    ∃ semantic, tables.semanticInput successor proposal.header.planId
        (recordedMutation proposal.header) = .ok semantic ∧
      input.executionInvariants = some (sha.hash semantic) := by
  simp only [catalogProjectionBundle, bind_eq_ok] at bundle
  obtain ⟨_, _, manifests, _, semantic, read, made⟩ := bundle
  cases current : tables.semanticInput successor proposal.header.planId
      (recordedMutation proposal.header) with
  | error cause =>
      rw [current] at read
      cases read
  | ok text =>
      rw [current] at read
      cases read
      cases made
      exact ⟨_, rfl, rfl⟩

section Sample

def halvesRow (label rfilename digest : String) (bytes : Nat) : ArchivedRow :=
  { repoId := "m", rfilename, driveLabel := label, storedName := none, storedRelpath := none,
    origSha256 := some digest, origBytes := some bytes, storedBytes := some bytes, compressed := false,
    annexKey := none, origSha256Provenance := none }

def halvesDrive (epoch : Nat) (label : String) : FleetDrive where
  driveLabel := label
  fence :=
    { fsUuid := none, annexUuid := some label, serial := none, filesystemCapacityBytes := some 200,
      identityEpoch := epoch, identityFingerprint := some (String.ofList (List.replicate 64 'f')) }
  writeGeneration := 0
  writeAuthority := "dedicated_local"

/-- A repository with half a copy on either drive. -/
def halvesTables (finalized : Option String) (epoch : Nat) : Tables :=
  { models := ⟨[⟨"m", "selected", 2⟩], by decide⟩
    files := ⟨[⟨"m", "a.gguf", some 5, some "aa", some "gguf", none⟩,
      ⟨"m", "b.txt", some 3, some "bb", some "aux", none⟩], by decide⟩
    replicas := Table.empty
    selection := ⟨[⟨"m", finalized⟩], List.nodup_singleton _⟩
    archived := ⟨[halvesRow "alpha" "a.gguf" "aa" 5, halvesRow "beta" "b.txt" "bb" 3], by decide +kernel⟩
    plans := ⟨[⟨"ark", "guaranteed", true⟩], by decide⟩
    planDrives := ⟨[⟨"ark", "alpha"⟩, ⟨"ark", "beta"⟩], by decide⟩
    driveColumns := ⟨[⟨"alpha", "primary", false, some 200, none, "active", "enabled"⟩,
      ⟨"beta", "replica", false, some 200, none, "active", "enabled"⟩], by decide⟩
    drives := [halvesDrive epoch "alpha", halvesDrive epoch "beta"]
    dirty := []
    anchors := []
    hashRepairState := Table.empty }

def plainRules : ReadRules where
  lower := id
  isUpstreamPayloadPath _ := true
  allowPickle := false
  budget _ _ := ⟨⟨fun _ => true, true, true⟩, ManifestFile.sizeBytes⟩

def plainSuccessor : Tables.SuccessorRules := ⟨asciiUnicode, fun _ _ => 0, fun _ => none⟩

def alphaDrive : DriveFact := ⟨"alpha", "primary", false, 200, none, none, none, "active", "enabled"⟩

def snapshot (tables : Tables) (mutation : Proposal.Mutation) : PreviewFacts where
  labels := tables.fileLabel
  identity := tables.driveIdentity
  archived := tables.facts.archived
  planId := "ark"
  plannerRevision := 3
  mutation := mutation
  input :=
    { planner := (tables.facts.capture plainRules "ark" (some (tables.selectedRepos mutation))).planner
      policyErrors := (tables.facts.capture plainRules "ark"
        (some (tables.selectedRepos mutation))).errors.map Prod.fst
      drives := [⟨alphaDrive, 200, 20, by decide⟩,
        ⟨⟨"beta", "replica", false, 200, none, none, none, "active", "enabled"⟩, 200, 20, by decide⟩]
      capacityMode := .guaranteed
      evidenceByDrive := [("alpha", ⟨true, 150, some 180⟩), ("beta", ⟨true, 150, some 180⟩)]
      bounds := ⟨200000, 1500⟩
      preference := none }
  selectionBefore := "m"
  selectionAfter := "m"
  semanticInput := (Json.dict (tables.semanticFields "ark" mutation)).dumps
  executionConfig := "guaranteed"
  publicationClear := true

def storedProposal (sha : Digester) (facts : PreviewFacts) : Loaded where
  proposalId := "p"
  lifecycle := .approved
  canonicalHash := ""
  createdAt := "then"
  approvedAt := some "now"
  supersededAt := none
  header := headerFromFacts sha facts (facts.planned asciiUnicode pairHash)
    (taskRows sha facts.toProposalFacts (facts.planned asciiUnicode pairHash).graph
      (facts.planned asciiUnicode pairHash).capacity)
  tasks := taskRows sha facts.toProposalFacts (facts.planned asciiUnicode pairHash).graph
    (facts.planned asciiUnicode pairHash).capacity
  files := fileRows facts.toProposalFacts (facts.planned asciiUnicode pairHash).graph
    (facts.planned asciiUnicode pairHash).capacity

theorem semanticInputHash_stored (sha : Digester) (facts : PreviewFacts) :
    (storedProposal sha facts).header.semanticInputHash = some (sha.hash facts.semanticInput) := rfl

def stamp (digest : Char) : Digester where
  hash _ := String.ofList (List.replicate 64 digest)
  nonempty _ none := by
    have chars := congrArg String.toList none
    simp at chars

def halvesFacts (finalized : Option String) (epoch : Nat) (mutation : Proposal.Mutation) : PreviewFacts :=
  snapshot (halvesTables finalized epoch) mutation

def adopting : Proposal.Mutation := ⟨"adopt_current", []⟩

def homeRow (epoch : Nat) : TaskRow where
  requirementId := "primary:m"
  rowKind := .executable
  repoId := "m"
  targetDrive := some "alpha"
  sourceDrive := none
  satisfyingDrive := none
  fullManifestHash := (stamp 'a').hash ""
  orderKey := 1
  guaranteedDurable := some 3
  expectedDurable := some 3
  identityEpoch := some epoch
  baselineCertificate := none

def replicaRow (epoch : Nat) : TaskRow :=
  { homeRow epoch with
    requirementId := "replica:m"
    targetDrive := some "beta"
    sourceDrive := some "alpha"
    orderKey := 2
    guaranteedDurable := some 5
    expectedDurable := some 5 }

/-- The proposal that adopts the selection as it is: the text is fetched for the home, and the weights
    are copied from there. -/
def halvesProposal (epoch : Nat) : Loaded :=
  { storedProposal (stamp 'a') (halvesFacts (some "then") epoch adopting) with
    tasks := [homeRow epoch, replicaRow epoch]
    files := [⟨"primary:m", "b.txt", "missing", some 3, some "bb", some "aux", none, some "raw"⟩,
      ⟨"replica:m", "a.gguf", "missing", some 5, some "aa", some "gguf", none, some "raw"⟩] }

theorem halves_read (finalized : Option String) (epoch : Nat) {mutation : Proposal.Mutation}
    (plain : mutation.kind ≠ "successor_replan") : ReadFrom plainRules plainSuccessor
      (halvesTables finalized epoch) (halvesFacts finalized epoch mutation) where
  planner := rfl
  errors := rfl
  labels := rfl
  identity := rfl
  archived := rfl
  semantic := if_neg plain

theorem halves_checked (finalized : Option String) {epoch : Nat} (positive : 1 ≤ epoch) :
    (halvesTables finalized epoch).Checked where
  repos := by simp [halvesTables]
  named := by simp [halvesTables]
  labelled := by simp [halvesTables, halvesDrive]
  epochs := by simpa [halvesTables, halvesDrive] using positive

theorem halves_accepted (sha : Digester) {before after : Option String} {epoch : Nat}
    (positive : 1 ≤ epoch) {mutation : Proposal.Mutation} (plain : mutation.kind ≠ "successor_replan") {proposal : Loaded}
    (approved : ApprovedFrom asciiUnicode pairHash sha (halvesFacts before epoch mutation) proposal)
    (lifecycle : proposal.lifecycle = .approved)
    (fresh : ∀ task ∈ proposal.tasks, task.rowKind ≠ .baselineSatisfied)
    (mutated : (halvesTables before epoch).approved "now" mutation = .ok (halvesTables after epoch)) :
    Accepted asciiUnicode pairHash sha plainRules plainSuccessor (halvesFacts before epoch mutation)
      proposal "now" (halvesTables before epoch) (halvesTables after epoch) where
  read := halves_read before epoch plain
  checked := halves_checked before positive
  approved := approved
  lifecycle := lifecycle
  proven task member baseline := absurd baseline (fresh task member)
  mutated := mutated

theorem halves_rows {epoch : Nat} (small : epoch = 1 ∨ epoch = 99) :
    (halvesProposal epoch).tasks =
        (storedProposal (stamp 'a') (halvesFacts (some "then") epoch adopting)).tasks ∧
      (halvesProposal epoch).files =
        (storedProposal (stamp 'a') (halvesFacts (some "then") epoch adopting)).files ∧
      (halvesProposal epoch).header.gateBCode = "FEASIBLE" := by
  rcases small with rfl | rfl <;> decide +kernel

theorem halves_adopted {epoch : Nat} (small : epoch = 1 ∨ epoch = 99) :
    Accepted asciiUnicode pairHash (stamp 'a') plainRules plainSuccessor
      (halvesFacts (some "then") epoch adopting) (halvesProposal epoch) "now"
      (halvesTables (some "then") epoch) (halvesTables (some "then") epoch) := by
  obtain ⟨tasks, files, gate⟩ := halves_rows small
  have approved : ApprovedFrom asciiUnicode pairHash (stamp 'a')
      (halvesFacts (some "then") epoch adopting) (halvesProposal epoch) :=
    ⟨⟨_, if_pos rfl, rfl, .of_eq tasks, .of_eq files⟩, gate⟩
  have positive : 1 ≤ epoch := by omega
  have fresh : ∀ task ∈ (halvesProposal epoch).tasks, task.rowKind ≠ .baselineSatisfied := by
    simp [halvesProposal, homeRow, replicaRow]
  exact halves_accepted _ positive (by decide) approved rfl fresh rfl

def fetchedRow (bytes : Nat) (task : TaskRow) (file : FileRow) : ArchivedRow :=
  { halvesRow (task.targetDrive.getD "") file.rfilename "" bytes with
    repoId := task.repoId
    origSha256 := file.origSha256 }

/-- A task of the sample, executed with as many stored bytes for each of its files. -/
def halvesExecution (bytes : Nat) (task : TaskRow) (listed : task ∈ (halvesProposal 1).tasks) :
    TaskExecution asciiUnicode (halvesProposal 1) where
  task := task
  row := fetchedRow bytes task
  listed := listed
  executable := (by decide : ∀ task ∈ (halvesProposal 1).tasks, task.rowKind = .executable) task listed
  keyed file _ := by
    have placed := (by decide : ∀ task ∈ (halvesProposal 1).tasks,
      some (task.targetDrive.getD "") = task.targetDrive) task listed
    exact ⟨rfl, rfl, placed⟩
  satisfying file grouped := by
    have proven := (by decide : ∀ file ∈ (halvesProposal 1).files,
      asciiUnicode.contentSatisfies file.origSha256 file.origSha256 (some false) none = true)
    exact proven file (List.mem_of_mem_filter grouped)

def homeExecution (bytes : Nat) : TaskExecution asciiUnicode (halvesProposal 1) :=
  halvesExecution bytes (homeRow 1) List.mem_cons_self

def replicaExecution (bytes : Nat) : TaskExecution asciiUnicode (halvesProposal 1) :=
  halvesExecution bytes (replicaRow 1) (List.mem_cons_of_mem _ List.mem_cons_self)

def mounted : List (String × EvidenceState) :=
  [("alpha", ⟨true, some "observed", none⟩), ("beta", ⟨true, some "observed", none⟩)]

def unmounted : List (String × EvidenceState) :=
  [("alpha", ⟨false, some "unknown", none⟩), ("beta", ⟨false, some "unknown", none⟩)]

/-- What a fill is told: the returned tasks, or the code of a refusal. -/
def projectedFrom (tables : Tables) (proposal : Loaded) (observed : List (String × EvidenceState)) :
    Except String (List (String × ScheduleState)) :=
  match catalogProjectionBundle (stamp 'a') plainRules plainSuccessor tables proposal observed with
  | .error _ => .error "BUNDLE"
  | .ok (input, graph) =>
      match projectPure asciiUnicode proposal input [] (stamp 'a') graph with
      | .error refused => .error refused.code
      | .ok result => .ok (result.tasks.map fun task => (task.row.requirementId, task.schedule))

def halvesStart : FillState asciiUnicode (halvesProposal 1) := ⟨halvesTables (some "then") 1, []⟩

theorem halves_permitted (bytes : Nat) : Permitted FillState.execute Allowed halvesStart
    [homeExecution bytes, replicaExecution bytes] := by
  have home : Allowed halvesStart (homeExecution bytes) :=
    ⟨List.not_mem_nil, fun sourced => absurd rfl sourced⟩
  have replica : Allowed (halvesStart.execute (homeExecution bytes)) (replicaExecution bytes) := by
    constructor
    · exact fun done => absurd (List.mem_singleton.mp done) (by decide : replicaRow 1 ≠ homeRow 1)
    · intro _ row member _ named
      rcases List.mem_pair.mp member with rfl | rfl
      · exact List.mem_singleton_self _
      · exact absurd named (by decide : "replica:m" ≠ "primary:" ++ "m")
  exact permitted_cons.mpr ⟨home, permitted_cons.mpr ⟨replica, .nil⟩⟩

/-- The home and then the copy, after which nothing is left. -/
theorem projection_follows_halves : ∃ input graph result,
    catalogProjectionBundle (stamp 'a') plainRules plainSuccessor
        (run FillState.execute halvesStart [homeExecution 5, replicaExecution 5]).tables
        (halvesProposal 1) mounted = .ok (input, graph) ∧
      projectPure asciiUnicode (halvesProposal 1) input [] (stamp 'a') graph = .ok result ∧
      result.tasks = [] := by
  have young : ∀ task ∈ (halvesProposal 1).tasks, ∀ epoch, task.identityEpoch = some epoch →
      epoch < 99 := by
    simp [halvesProposal, homeRow, replicaRow]
  have covered : ∀ label ∈ proposalDriveIds (halvesProposal 1), label ∈ mounted.map Prod.fst := by
    decide +kernel
  have known : Observed (halvesProposal 1) mounted := by
    intro _ _ _ target _ evidence found
    have listed := Dict.mem_of_lookup_ofPairs found
    simp only [mounted, List.mem_cons, Prod.mk.injEq, List.not_mem_nil, or_false] at listed
    rcases listed with ⟨_, rfl⟩ | ⟨_, rfl⟩ <;> exact .inl rfl
  have affordable : ∀ execution ∈ [homeExecution 5, replicaExecution 5], execution.Affordable := by
    intro execution member durable charged _
    rcases List.mem_pair.mp member with rfl | rfl
    · cases charged
      decide +kernel
    · cases charged
      decide +kernel
  have hex : ∀ text, ((stamp 'a').hash text).length = 64 := by
    intro text
    rw [stamp, String.length_ofList, List.length_replicate]
  obtain ⟨input, graph, result, bundle, projected, projects, _⟩ :=
    projection_follows (halves_adopted (.inl rfl)) hex (by decide) young covered known []
      (halves_permitted 5) affordable
  refine ⟨input, graph, result, bundle, projected, projects.finished ?_⟩
  exact fun task member _ => member

/-- The selection is still in the cart, and approval finalizes it. -/
def cartFacts : PreviewFacts := halvesFacts none 1 ⟨"finalize", ["m"]⟩

/-- A digest that tells one text from every other. -/
def telling (text : String) : Digester where
  hash other := if other = text then (stamp 'a').hash other else (stamp 'b').hash other
  nonempty other := by
    split_ifs
    · exact (stamp 'a').nonempty other
    · exact (stamp 'b').nonempty other

theorem hash_telling (text : String) : (telling text).hash text = (stamp 'a').hash text := if_pos rfl

theorem hash_telling_ne {text other : String} (different : other ≠ text) :
    (telling text).hash other = (stamp 'b').hash other := if_neg different

def cartProposal : Loaded := storedProposal (telling cartFacts.semanticInput) cartFacts

theorem semantic_ne : (Json.dict ((halvesTables (some "now") 1).semanticFields "ark"
    ⟨"finalize", ["m"]⟩)).dumps ≠ cartFacts.semanticInput := by
  intro same
  have fields := Json.fields_of_dict_eq (Json.dumps_injective same) rfl (by simp [Tables.semanticFields])
  have selection := (List.cons.inj fields).1
  simp [halvesTables, sortBy, Json.ofText] at selection

/-- The executable home is unfinished and the copy ready; a fetch may overrun its budget; a drive may be
    unknown; and neither an approval that finalizes nor a drive of the ninety-ninth epoch is projected. -/
theorem projection_strays :
    (Accepted asciiUnicode pairHash (stamp 'a') plainRules plainSuccessor
        (halvesFacts (some "then") 1 adopting) (halvesProposal 1) "now" (halvesTables (some "then") 1)
        (halvesTables (some "then") 1) ∧
      projectedFrom halvesStart.tables (halvesProposal 1) mounted =
        .ok [("primary:m", .ready), ("replica:m", .ready)] ∧
      Permitted FillState.execute Allowed halvesStart [homeExecution (10 ^ 13)] ∧
      projectedFrom (halvesStart.execute (homeExecution (10 ^ 13))).tables
        (halvesProposal 1) mounted = .error "APPROVED_PLACEMENT_NO_LONGER_FEASIBLE" ∧
      projectedFrom halvesStart.tables (halvesProposal 1) unmounted =
        .error "CAPACITY_EVIDENCE_UNKNOWN") ∧
    (Accepted asciiUnicode pairHash (stamp 'a') plainRules plainSuccessor
        (halvesFacts (some "then") 99 adopting) (halvesProposal 99) "now"
        (halvesTables (some "then") 99) (halvesTables (some "then") 99) ∧
      projectedFrom (halvesTables (some "then") 99) (halvesProposal 99) mounted =
        .error "APPROVED_TARGET_IDENTITY_CHANGED") ∧
    (Accepted asciiUnicode pairHash (telling cartFacts.semanticInput) plainRules plainSuccessor cartFacts
        cartProposal "now" (halvesTables none 1) (halvesTables (some "now") 1) ∧
      ∀ input graph result, catalogProjectionBundle (telling cartFacts.semanticInput) plainRules
          plainSuccessor (halvesTables (some "now") 1) cartProposal mounted = .ok (input, graph) →
        projectPure asciiUnicode cartProposal input [] (telling cartFacts.semanticInput) graph ≠
          .ok result) := by
  refine ⟨⟨halves_adopted (.inl rfl), by decide +kernel, ?_, by decide +kernel, by decide +kernel⟩,
    ⟨halves_adopted (.inr rfl), by decide +kernel⟩, ?_, ?_⟩
  · exact permitted_cons.mpr ⟨(permitted_cons.mp (halves_permitted (10 ^ 13))).1, .nil⟩
  · have gate : cartProposal.header.gateBCode = "FEASIBLE" ∧
        ∀ task ∈ cartProposal.tasks, task.rowKind ≠ .baselineSatisfied := by decide +kernel
    exact halves_accepted _ (le_refl 1) (by decide)
      ⟨⟨_, if_pos rfl, rfl, .refl _, .refl _⟩, gate.1⟩ rfl gate.2 rfl
  · intro input graph result bundle projected
    have checked := checkInvariants_of_projected projected
    obtain ⟨semantic, current, invariants⟩ := invariants_of_bundle bundle
    have text : semantic = (Json.dict ((halvesTables (some "now") 1).semanticFields "ark"
        ⟨"finalize", ["m"]⟩)).dumps := (Except.ok.inj current).symm
    have approved : cartProposal.header.semanticInputHash =
        some ((telling cartFacts.semanticInput).hash cartFacts.semanticInput) := by
      rw [cartProposal, semanticInputHash_stored]
    have different : semantic ≠ cartFacts.semanticInput := text ▸ semantic_ne
    have apart : ∀ left right, (stamp 'b').hash left ≠ (stamp 'a').hash right ∧
        ((stamp 'b').hash left).length = 64 ∧ ((stamp 'a').hash right).length = 64 := by
      have digests : String.ofList (List.replicate 64 'b') ≠ String.ofList (List.replicate 64 'a') ∧
          (String.ofList (List.replicate 64 'b')).length = 64 ∧
          (String.ofList (List.replicate 64 'a')).length = 64 := by decide +kernel
      exact fun _ _ => digests
    rw [checkInvariants, invariants, approved, hash_telling, hash_telling_ne different] at checked
    dsimp only at checked
    rw [if_pos (apart _ _)] at checked
    cases checked

end Sample

end Modelark.Fill
