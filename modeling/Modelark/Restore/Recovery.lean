import Modelark.Restore.Restoring

/-!
# Recovery

When a restore succeeds: a copy whose evidence contradicts itself ends it, unless a good copy of the file is
tried before.
-/

namespace Modelark.Restore

open Library Revision

/-- The content of a copy is reached, its evidence is consistent and its bytes are the original ones. -/
def Good (env : Environment) (tables : Tables) (row : CopyRow) : Prop :=
  ∃ source retrieved expected bytes, Reached env tables row source retrieved ∧
    row.evidence env.unicode = .ok (some expected) ∧ originalBytes env row source = .ok bytes ∧
      env.unicode.lower (sha256 bytes) = expected

/-- The content of a copy is reached and its evidence is refused. -/
def Contradicted (env : Environment) (tables : Tables) (row : CopyRow) : Prop :=
  ∃ source retrieved refused, Reached env tables row source retrieved ∧
    row.evidence env.unicode = .error refused

/-- Before every copy whose evidence is refused stands a good one. -/
def Unblocked (env : Environment) (tables : Tables) (rows : List CopyRow) : Prop :=
  ∀ before row after, rows = before ++ row :: after → Contradicted env tables row →
    ∃ good ∈ before, Good env tables good

/-- The planned paths are safe, and none of them is that of another or of a directory above it. -/
structure ClearPaths (planned : List String) : Prop where
  safe : ∀ name ∈ planned, (safeRelative? name).isSome = true ∧ outputPath name ≠ []
  apart : ∀ one ∈ planned, ∀ other ∈ planned, one ≠ other → ¬outputPath one <+: outputPath other

/-- Every planned file has a good copy, and the paths and the destination are free. -/
structure Recoverable (rules : ReadRules) (env : Environment) (tables : Tables) (repoId : String)
    (root : OutputRoot) : Prop where
  repo : (safeRelative? repoId).isSome = true
  inside : root.escapes = false
  free : root.destination = .absent
  planned : plannedFiles rules tables repoId ≠ []
  paths : ClearPaths (plannedFiles rules tables repoId)
  good : ∀ name ∈ plannedFiles rules tables repoId, ∃ row ∈ copiesOf tables repoId name, Good env tables row

section Copies

variable {env : Environment} {tables : Tables} {repoId : String}

theorem not_contradicted_of_good {row : CopyRow} (good : Good env tables row) :
    ¬Contradicted env tables row := by
  intro ⟨_, _, refused, _, evidence⟩
  obtain ⟨_, _, expected, _, _, consistent, _⟩ := good
  rw [evidence] at consistent
  cases consistent

theorem unblocked_cons {row : CopyRow} {rows : List CopyRow} :
    Unblocked env tables (row :: rows) ↔
      ¬Contradicted env tables row ∧ (Good env tables row ∨ Unblocked env tables rows) := by
  constructor
  · intro unblocked
    have first : ¬Contradicted env tables row := by
      intro contradicted
      obtain ⟨good, member, _⟩ := unblocked [] row rows rfl contradicted
      cases member
    refine ⟨first, ?_⟩
    by_cases good : Good env tables row
    · exact .inl good
    · refine .inr fun before other after split contradicted => ?_
      obtain ⟨copy, member, copyGood⟩ := unblocked (row :: before) other after (by rw [split]; rfl) contradicted
      rcases List.mem_cons.mp member with rfl | member
      · exact absurd copyGood good
      · exact ⟨copy, member, copyGood⟩
  · intro ⟨first, rest⟩ before other after split contradicted
    cases before with
    | nil =>
        obtain ⟨rfl, _⟩ := List.cons.inj split
        exact absurd contradicted first
    | cons head before =>
        obtain ⟨rfl, later⟩ := List.cons.inj split
        rcases rest with good | unblocked
        · exact ⟨row, List.mem_cons_self, good⟩
        · obtain ⟨copy, member, copyGood⟩ := unblocked before other after later contradicted
          exact ⟨copy, List.mem_cons_of_mem _ member, copyGood⟩

/-- Nothing in the staging directory is in the way of a file. -/
structure Clear (stage : Stage) (output : List String) : Prop where
  named : output ≠ []
  files : ∀ file ∈ stage.files, ¬file.1 <+: output.dropLast
  made : ∀ path ∈ stage.made, ¬output <+: path

/-- The staging directory has only what planned files bring there. -/
structure Within (planned : List String) (stage : Stage) : Prop where
  files : ∀ file ∈ stage.files, ∃ name ∈ planned, file.1 = outputPath name
  made : ∀ path ∈ stage.made, ∃ name ∈ planned, path = (outputPath name).dropLast

theorem not_prefix_dropLast {path : List String} (named : path ≠ []) : ¬path <+: path.dropLast := by
  intro shorter
  have length := shorter.length_le
  have positive := List.length_pos_of_ne_nil named
  rw [List.length_dropLast] at length
  omega

theorem Within.clear {planned : List String} {stage : Stage} (within : Within planned stage)
    (paths : ClearPaths planned) {name : String} (member : name ∈ planned) : Clear stage (outputPath name) where
  named := (paths.safe name member).2
  files := by
    intro file fileMember shorter
    obtain ⟨other, otherMember, same⟩ := within.files file fileMember
    rw [same] at shorter
    by_cases equal : other = name
    · rw [equal] at shorter
      exact not_prefix_dropLast (paths.safe name member).2 shorter
    · exact paths.apart other otherMember name member equal (shorter.trans (List.dropLast_prefix _))
  made := by
    intro path pathMember longer
    obtain ⟨other, otherMember, same⟩ := within.made path pathMember
    rw [same] at longer
    by_cases equal : name = other
    · rw [equal] at longer
      exact not_prefix_dropLast (paths.safe other otherMember).2 longer
    · exact paths.apart name member other otherMember equal (longer.trans (List.dropLast_prefix _))

theorem Within.mkdir {planned : List String} {stage after : Stage} (within : Within planned stage)
    {name : String} (member : name ∈ planned) (made : stage.mkdir (outputPath name).dropLast = some after) :
    Within planned after := by
  obtain ⟨_, rfl⟩ := mkdir_eq_some made
  refine ⟨within.files, ?_⟩
  intro path pathMember
  rcases List.mem_cons.mp pathMember with rfl | old
  · exact ⟨name, member, rfl⟩
  · exact within.made path old

theorem Within.replace {planned : List String} {stage after : Stage} (within : Within planned stage)
    {name : String} {bytes : Bytes} (member : name ∈ planned)
    (replaced : stage.replace (outputPath name) bytes = some after) : Within planned after := by
  obtain rfl := replace_eq_some replaced
  refine ⟨?_, within.made⟩
  intro file fileMember
  rcases List.mem_append.mp fileMember with old | new
  · exact within.files file (List.mem_filter.mp old).1
  · rw [List.mem_singleton.mp new]
    exact ⟨name, member, rfl⟩

/-- An attempt brings only its own file there. -/
theorem Tried.within {planned : List String} {stage after : Stage} {name : String} {row : CopyRow}
    {outcome : Attempt} (within : Within planned stage) (member : name ∈ planned)
    (tried : Tried env tables stage (outputPath name) row after outcome) : Within planned after := by
  cases tried with
  | unreached => exact within
  | contradicted => exact within
  | unknown => exact within
  | failed _ _ materialized =>
      rcases (materialize_eq_error materialized).1 with rfl | made
      · exact within
      · exact within.mkdir member made
  | restored _ _ materialized =>
      obtain ⟨middle, bytes, made, _, replaced, _⟩ := materialize_eq_ok materialized
      exact (within.mkdir member made).replace member replaced

/-- The original bytes are written where nothing is in the way. -/
theorem materialize_of_clear {stage : Stage} {output : List String} (clear : Clear stage output) {row : CopyRow}
    {source : Source} {bytes : Bytes} {expected : String} (read : originalBytes env row source = .ok bytes)
    (same : env.unicode.lower (sha256 bytes) = expected) :
    ∃ after, materialize env stage output row source expected = (after, .ok ()) := by
  have made : stage.mkdir output.dropLast = some { stage with made := output.dropLast :: stage.made } := by
    rw [Stage.mkdir, if_neg]
    simpa using clear.files
  have free : ({ stage with made := output.dropLast :: stage.made } : Stage).isDirectory output = false := by
    have apart : output.isPrefixOf output.dropLast = false := by
      apply Bool.eq_false_of_not_eq_true
      intro shorter
      exact not_prefix_dropLast clear.named (List.isPrefixOf_iff_prefix.mp shorter)
    simpa [Stage.isDirectory, clear.named, apart] using clear.made
  simp only [materialize, made, read, same, bne_self_eq_false, Bool.false_eq_true, if_false, Stage.replace, free]
  exact ⟨_, rfl⟩

/-- A copy is restored exactly when it is good, and ends the restore exactly when it is contradicted. -/
theorem Tried.outcome {stage after : Stage} {output : List String} (clear : Clear stage output) {row : CopyRow}
    {outcome : Attempt} (tried : Tried env tables stage output row after outcome) :
    (Good env tables row ↔ ∃ retrieved expected, outcome = .restored retrieved expected) ∧
      (Contradicted env tables row ↔ ∃ raised, outcome = .escaped raised) := by
  cases tried with
  | unreached retrieved detail absent =>
      refine ⟨⟨?_, nofun⟩, ?_, nofun⟩
      · intro ⟨source, retrieved, _, _, reached, _⟩
        exact absurd reached (absent source retrieved)
      · intro ⟨source, retrieved, _, reached, _⟩
        exact absurd reached (absent source retrieved)
  | contradicted reached evidence =>
      refine ⟨⟨?_, nofun⟩, ?_, ?_⟩
      · intro good
        exact absurd ⟨_, _, _, reached, evidence⟩ (not_contradicted_of_good good)
      · intro _
        exact ⟨_, rfl⟩
      · intro _
        exact ⟨_, _, _, reached, evidence⟩
  | unknown detail reached evidence =>
      refine ⟨⟨?_, nofun⟩, ?_, nofun⟩
      · intro ⟨_, _, _, _, _, consistent, _⟩
        rw [evidence] at consistent
        cases consistent
      · intro ⟨_, _, _, _, refused⟩
        rw [evidence] at refused
        cases refused
  | failed reached evidence materialized =>
      refine ⟨⟨?_, nofun⟩, ?_, nofun⟩
      · intro ⟨source, _, expected, bytes, again, consistent, read, same⟩
        obtain rfl := reached.unique again
        rw [evidence] at consistent
        cases consistent
        obtain ⟨after, written⟩ := materialize_of_clear clear read same
        rw [materialized] at written
        cases written
      · intro ⟨_, _, _, _, refused⟩
        rw [evidence] at refused
        cases refused
  | restored reached evidence materialized =>
      obtain ⟨_, bytes, _, read, _, same⟩ := materialize_eq_ok materialized
      have good : Good env tables row := ⟨_, _, _, bytes, reached, evidence, read, same⟩
      refine ⟨⟨fun _ => ⟨_, _, rfl⟩, fun _ => good⟩, ?_, nofun⟩
      intro contradicted
      exact absurd contradicted (not_contradicted_of_good good)

theorem restoreCopies_iff {planned : List String} (paths : ClearPaths planned) {name : String}
    (member : name ∈ planned) {rows : List CopyRow} {progress : Progress} (within : Within planned progress.stage)
    (attempts : List String) :
    (∃ done, restoreCopies env tables repoId name (outputPath name) progress attempts rows = .ok done) ↔
      (∃ row ∈ rows, Good env tables row) ∧ Unblocked env tables rows := by
  induction rows generalizing progress attempts with
  | nil => simp [restoreCopies]
  | cons row rows ih =>
      have tried := attempt_tried env tables progress.stage (outputPath name) row
      rw [restoreCopies, unblocked_cons]
      generalize attempt env tables progress.stage (outputPath name) row = result at tried ⊢
      obtain ⟨after, outcome⟩ := result
      obtain ⟨good, contradicted⟩ := tried.outcome (within.clear paths member)
      cases outcome with
      | restored retrieved expected =>
          have rowGood := good.mpr ⟨_, _, rfl⟩
          simp only [Except.ok.injEq, exists_eq', true_iff]
          exact ⟨⟨row, List.mem_cons_self, rowGood⟩, not_contradicted_of_good rowGood, .inl rowGood⟩
      | escaped raised =>
          have ends := contradicted.mpr ⟨_, rfl⟩
          simp [ends]
      | skipped retrieved detail =>
          have notGood : ¬Good env tables row := by simp [good]
          have notEnds : ¬Contradicted env tables row := by simp [contradicted]
          simp only [List.exists_mem_cons_iff, notGood, notEnds, false_or, not_false_eq_true, true_and]
          exact ih (tried.within within member) _

theorem restoreCopies_within {planned : List String} {name : String} (member : name ∈ planned)
    {rows : List CopyRow} {progress done : Progress} (within : Within planned progress.stage)
    {attempts : List String}
    (restored : restoreCopies env tables repoId name (outputPath name) progress attempts rows = .ok done) :
    Within planned done.stage := by
  induction rows generalizing progress attempts with
  | nil => cases restored
  | cons row rows ih =>
      have tried := attempt_tried env tables progress.stage (outputPath name) row
      rw [restoreCopies] at restored
      generalize attempt env tables progress.stage (outputPath name) row = result at tried restored
      obtain ⟨after, outcome⟩ := result
      have afterwards := tried.within within member
      cases outcome with
      | restored retrieved expected =>
          cases restored
          exact afterwards
      | escaped raised => cases restored
      | skipped retrieved detail => exact ih afterwards restored

theorem restoreFile_eq {planned : List String} (paths : ClearPaths planned) {name : String}
    (member : name ∈ planned) (progress : Progress) :
    restoreFile env tables repoId progress name =
      restoreCopies env tables repoId name (outputPath name) progress [] (copiesOf tables repoId name) := by
  obtain ⟨path, safe⟩ := Option.isSome_iff_exists.mp (paths.safe name member).1
  have same := (safeRelative?_eq_some safe).2.2.2
  simp [restoreFile, safeRelative, safe, outputPath, ← same]

theorem thread_restoreFile_iff {planned rest : List String} (paths : ClearPaths planned)
    (part : ∀ name ∈ rest, name ∈ planned) {progress : Progress} (within : Within planned progress.stage) :
    (∃ done, thread (restoreFile env tables repoId) progress rest = .ok done) ↔
      ∀ name ∈ rest, (∃ row ∈ copiesOf tables repoId name, Good env tables row) ∧
        Unblocked env tables (copiesOf tables repoId name) := by
  induction rest generalizing progress with
  | nil => simp
  | cons name rest ih =>
      have member := part name List.mem_cons_self
      have restPart : ∀ other ∈ rest, other ∈ planned := fun other among =>
        part other (List.mem_cons_of_mem _ among)
      rw [thread_cons, restoreFile_eq paths member, List.forall_mem_cons,
        ← restoreCopies_iff paths member within []]
      constructor
      · intro ⟨done, restored⟩
        obtain ⟨next, first, later⟩ := bind_eq_ok.mp restored
        exact ⟨⟨next, first⟩, (ih restPart (restoreCopies_within member within first)).mp ⟨done, later⟩⟩
      · intro ⟨⟨next, first⟩, later⟩
        obtain ⟨done, restored⟩ := (ih restPart (restoreCopies_within member within first)).mpr later
        exact ⟨done, by rw [first, ok_bind, restored]⟩

end Copies

section Restores

variable {rules : ReadRules} {env : Environment} {tables : Tables} {repoId : String} {root : OutputRoot}

theorem within_empty (planned : List String) : Within planned .empty where
  files := by simp [Stage.empty]
  made := by simp [Stage.empty]

theorem check_of_recoverable (recoverable : Recoverable rules env tables repoId root) :
    checkRestore rules tables repoId root = .ok () := by
  have copies : ∀ name ∈ plannedFiles rules tables repoId, copiesOf tables repoId name ≠ [] := by
    intro name member
    obtain ⟨row, rowMember, _⟩ := recoverable.good name member
    exact List.ne_nil_of_mem rowMember
  have rows : copyRows tables repoId ≠ [] := by
    obtain ⟨name, member⟩ := List.exists_mem_of_ne_nil _ recoverable.planned
    obtain ⟨row, rowMember, _⟩ := recoverable.good name member
    exact List.ne_nil_of_mem (List.mem_filter.mp rowMember).1
  exact checkRestore_eq_ok.mpr
    ⟨recoverable.repo, rows, recoverable.planned, copies, recoverable.inside, recoverable.free⟩

/-- A recoverable repository is restored exactly when no file has a contradicted copy before its first good
    one. -/
theorem restored_iff_of_recoverable (recoverable : Recoverable rules env tables repoId root) :
    (∃ summary, (restoreRepo rules env tables repoId root).2 = .ok summary) ↔
      ∀ name ∈ plannedFiles rules tables repoId, Unblocked env tables (copiesOf tables repoId name) := by
  have loop := @thread_restoreFile_iff env tables repoId _ _ recoverable.paths (fun _ member => member)
    ⟨.empty, [], [], 0⟩ (within_empty _)
  have both : (∀ name ∈ plannedFiles rules tables repoId,
      (∃ row ∈ copiesOf tables repoId name, Good env tables row) ∧
        Unblocked env tables (copiesOf tables repoId name)) ↔
      ∀ name ∈ plannedFiles rules tables repoId, Unblocked env tables (copiesOf tables repoId name) :=
    ⟨fun given name member => (given name member).2,
      fun given name member => ⟨recoverable.good name member, given name member⟩⟩
  rw [← both, ← loop, restoreRepo, check_of_recoverable recoverable]
  dsimp only
  split
  · rename_i raised failed
    simp [failed]
  · rename_i progress restored
    simp [restored]

/-- Whatever the copies answer, a restore publishes exactly the planned files or leaves nothing, and it
    succeeds whenever every planned file has a good copy. -/
structure Dependable (rules : ReadRules) (env : Environment) (tables : Tables) (repoId : String)
    (root : OutputRoot) : Prop where
  concluded : Concluded env tables repoId (plannedFiles rules tables repoId) root
    (restoreRepo rules env tables repoId root)
  recovered : Recoverable rules env tables repoId root →
    ∃ summary, (restoreRepo rules env tables repoId root).2 = .ok summary

theorem dependable_iff (lowers : env.unicode.LowersHex) (rules : ReadRules) (tables : Tables) (repoId : String)
    (root : OutputRoot) :
    Dependable rules env tables repoId root ↔
      (Recoverable rules env tables repoId root → ∀ name ∈ plannedFiles rules tables repoId,
        Unblocked env tables (copiesOf tables repoId name)) := by
  constructor
  · intro dependable recoverable
    exact (restored_iff_of_recoverable recoverable).mp (dependable.recovered recoverable)
  · intro unblocked
    refine ⟨restoreRepo_concluded lowers root, ?_⟩
    intro recoverable
    exact (restored_iff_of_recoverable recoverable).mpr (unblocked recoverable)

end Restores

section Example

open Archive (asciiUnicode uniformDigest uniformAnnex)

def helloBytes : Bytes := "hello".toUTF8.data.toList

def helloDigest : String := "2cf24dba5fb0a30e26e83b2ac5b9e29e1b161e5c1fa7425e73043362938b9824"

/-- The drives are all mounted, and every copy has the same bytes in its place. -/
def helloEnvironment : Environment where
  unicode := asciiUnicode
  decode _ bytes := .ok bytes
  mounted _ := true
  answers _ :=
    { publication := none, isStored := true, isCheckout := true, get := ⟨false, "", ""⟩
      isStoredAfterGet := true, getByKey := ⟨false, "", ""⟩, contentLocation := ⟨false, "", ""⟩
      isContent := fun _ => false, read := fun _ => .ok helloBytes }

def helloRules : ReadRules where
  lower := asciiUnicode.lower
  isUpstreamPayloadPath _ := true
  allowPickle := false
  budget _ _ := ⟨⟨fun _ => true, true, true⟩, Planning.ManifestFile.sizeBytes⟩

def storedRow (label digest : String) (annexKey : Option String) : ArchivedRow where
  repoId := "org/m"
  rfilename := "m.gguf"
  driveLabel := label
  storedName := none
  storedRelpath := some "m.gguf"
  origSha256 := some digest
  origBytes := some 5
  storedBytes := some 5
  compressed := false
  annexKey := annexKey
  origSha256Provenance := none

/-- A file with a good copy on one drive, and one on another whose two digests contradict each other. -/
def storedTables (good contradicted : String) (apart : good ≠ contradicted) : Tables where
  models := ⟨[⟨"org/m", "archived", 2⟩], by decide⟩
  files := ⟨[⟨"org/m", "m.gguf", some 5, none, some "gguf", none⟩], by decide⟩
  replicas := Table.empty
  selection := Table.empty
  archived := ⟨[storedRow good helloDigest none,
    storedRow contradicted (uniformDigest '0') (some (uniformAnnex 'a'))], by simp [storedRow, ArchivedRow.key, apart]⟩
  plans := Table.empty
  planDrives := Table.empty
  driveColumns := Table.empty
  drives := []
  dirty := []
  anchors := []
  hashRepairState := Table.empty

/-- The good copy first. -/
def goodFirst : Tables := storedTables "a" "b" (by decide)

/-- The contradicted copy first. -/
def contradictedFirst : Tables := storedTables "b" "a" (by decide)

def goodCopy (label : String) : CopyRow :=
  ⟨"m.gguf", none, some "m.gguf", label, some helloDigest, false, none, none, none⟩

def contradictedCopy (label : String) : CopyRow :=
  ⟨"m.gguf", none, some "m.gguf", label, some (uniformDigest '0'), false, some (uniformAnnex 'a'), none, none⟩

theorem reached_stored {tables : Tables} {row : CopyRow} (named : row.storedRelpath = some "m.gguf") :
    Reached helloEnvironment tables row .stored false where
  mounted := rfl
  safe := by
    have stored : storedRelative row = safeRelative "m.gguf" "stored path" := by
      rw [storedRelative, named, if_pos (by decide +kernel)]
      rfl
    have accepted : (safeRelative? "m.gguf").isSome = true := by decide +kernel
    obtain ⟨path, safe⟩ := Option.isSome_iff_exists.mp accepted
    exact ⟨path, by rw [stored, safeRelative, safe]⟩
  content := ⟨mayMutate tables row, "available", rfl, rfl⟩

theorem good_goodCopy {tables : Tables} (label : String) : Good helloEnvironment tables (goodCopy label) := by
  have evidence : asciiUnicode.expectedSha256 none (some helloDigest) (some false) none = .ok (some helloDigest) := by
    decide +kernel
  have same : asciiUnicode.lower (sha256 helloBytes) = helloDigest := by decide +kernel
  exact ⟨.stored, false, helloDigest, helloBytes, reached_stored rfl, evidence, rfl, same⟩

theorem clearPaths_single : ClearPaths ["m.gguf"] where
  safe := by
    intro name member
    rw [List.mem_singleton.mp member]
    decide +kernel
  apart := by
    intro one oneMember other otherMember apart
    rw [List.mem_singleton.mp oneMember, List.mem_singleton.mp otherMember] at apart
    exact absurd rfl apart

theorem dependable_goodFirst : Dependable helloRules helloEnvironment goodFirst "org/m" ⟨.absent, false⟩ := by
  apply (dependable_iff Archive.asciiUnicode_lowersHex helloRules goodFirst "org/m" ⟨.absent, false⟩).mpr
  intro _ name member
  have planned : plannedFiles helloRules goodFirst "org/m" = ["m.gguf"] := by decide +kernel
  have copies : copiesOf goodFirst "org/m" "m.gguf" = [goodCopy "a", contradictedCopy "b"] := by decide +kernel
  rw [planned, List.mem_singleton] at member
  rw [member, copies]
  have first := @good_goodCopy goodFirst "a"
  exact unblocked_cons.mpr ⟨not_contradicted_of_good first, .inl first⟩

/-- The good copy is not reached although every planned file has one. -/
theorem contradicted_copy_ends_restore :
    Recoverable helloRules helloEnvironment contradictedFirst "org/m" ⟨.absent, false⟩ ∧
      restoreRepo helloRules helloEnvironment contradictedFirst "org/m" ⟨.absent, false⟩ =
        (⟨.absent, none⟩, .error (.evidence
          (.conflict [("orig_sha256", uniformDigest '0'), ("annex_key", uniformDigest 'a')]))) := by
  have planned : plannedFiles helloRules contradictedFirst "org/m" = ["m.gguf"] := by decide +kernel
  have copies : copiesOf contradictedFirst "org/m" "m.gguf" = [contradictedCopy "a", goodCopy "b"] := by
    decide +kernel
  refine ⟨⟨by decide +kernel, rfl, rfl, ?_, ?_, ?_⟩, by decide +kernel⟩
  · simp [planned]
  · rw [planned]
    exact clearPaths_single
  · intro name member
    rw [planned, List.mem_singleton] at member
    rw [member, copies]
    exact ⟨goodCopy "b", by simp, good_goodCopy "b"⟩

end Example

end Modelark.Restore
