import Modelark.Restore.Copies

/-!
# Restores

One restore of a repository, and that whatever its copies answer, it either publishes exactly the planned
files with bytes that their evidence backs, or leaves nothing behind.
-/

namespace Modelark.Restore

open Library Revision

/-- A restored file of the summary. -/
structure RestoredFile where
  file : String
  drive : String
  retrieved : Bool
  compressed : Bool
  sha256 : String
  deriving Repr, DecidableEq

/-- The staging directory and the summary so far. -/
structure Progress where
  stage : Stage
  files : List RestoredFile
  /-- A file and the detail of a copy that was passed over. -/
  warnings : List (String × String)
  annexRetrievals : Nat

structure Summary where
  repo : String
  files : List RestoredFile
  annexRetrievals : Nat
  warnings : List (String × String)
  deriving DecidableEq

inductive Destination where
  | absent
  /-- Something that was there before. -/
  | occupied
  | published (stage : Stage)
  deriving DecidableEq

/-- The destination in the output root, and whether its parent leads out of the root. -/
structure OutputRoot where
  destination : Destination
  escapes : Bool
  deriving DecidableEq

/-- What a restore leaves: the destination and its staging directory. -/
structure Disk where
  destination : Destination
  staging : Option Stage
  deriving DecidableEq

section Restore

variable (rules : ReadRules) (env : Environment) (tables : Tables) (repoId : String)

/-- The names of the recovery manifest, or else of all recorded files. -/
def plannedFiles : List String :=
  match selectManifest { rules with allowPickle := true } (tables.facts.filesOf repoId) with
  | .ok manifest => manifest.map Planning.ManifestFile.rfilename
  | .error _ => sortedSet ((copyRows tables repoId).map CopyRow.rfilename)

/-- The recorded copies of a file. -/
def copiesOf (rfilename : String) : List CopyRow :=
  (copyRows tables repoId).filter (·.rfilename == rfilename)

/-- The loop over the copies of a file. -/
def restoreCopies (rfilename : String) (output : List String) (progress : Progress) (attempts : List String) :
    List CopyRow → Except Raised Progress
  | [] => .error (.restore (repoId ++ "/" ++ rfilename ++ ": no readable, verified copy; " ++
      "; ".intercalate attempts))
  | row :: rows =>
      match attempt env tables progress.stage output row with
      | (_, .escaped raised) => .error raised
      | (stage, .skipped retrieved detail) =>
          restoreCopies rfilename output
            { progress with stage, annexRetrievals := progress.annexRetrievals + retrieved.toNat }
            (attempts ++ [row.driveLabel ++ ": " ++ detail]) rows
      | (stage, .restored retrieved expected) => .ok
          { stage
            files := progress.files ++ [⟨rfilename, row.driveLabel, retrieved, row.compressed, expected⟩]
            warnings := progress.warnings ++ attempts.map (rfilename, ·)
            annexRetrievals := progress.annexRetrievals + retrieved.toNat }

/-- The body of the loop over the planned files. -/
def restoreFile (progress : Progress) (rfilename : String) : Except Raised Progress := do
  let output ← safeRelative rfilename "Hugging Face file path"
  restoreCopies env tables repoId rfilename output.names progress [] (copiesOf tables repoId rfilename)

/-- `restore_repo` up to its staging directory. -/
def checkRestore (root : OutputRoot) : Except Raised Unit := do
  let _ ← safeRelative repoId "repository id"
  require (!(copyRows tables repoId).isEmpty) (.restore (repoId ++ ": no archived files recorded"))
  let planned := plannedFiles rules tables repoId
  require (!planned.isEmpty) (.restore (repoId ++ ": catalog has no restorable planned files"))
  let missing := sortedSet (planned.filter fun rfilename => (copiesOf tables repoId rfilename).isEmpty)
  require missing.isEmpty (.restore (repoId ++ ": archive is incomplete; no recorded copy for " ++
    ", ".intercalate missing))
  require (!root.escapes) (.restore (repoId ++ ": destination parent escapes output root"))
  require (root.destination == .absent) (.restore (repoId ++ ": destination already exists"))

/-- `restore_repo`. -/
def restoreRepo (root : OutputRoot) : Disk × Except Raised Summary :=
  match checkRestore rules tables repoId root with
  | .error raised => (⟨root.destination, none⟩, .error raised)
  | .ok _ =>
      let start : Progress := ⟨.empty, [], [], 0⟩
      match thread (restoreFile env tables repoId) start (plannedFiles rules tables repoId) with
      -- the staging directory is removed
      | .error raised => (⟨root.destination, none⟩, .error raised)
      | .ok progress =>
          (⟨.published progress.stage, none⟩,
            .ok ⟨repoId, progress.files, progress.annexRetrievals, progress.warnings⟩)

end Restore

/-- Where a planned file goes. -/
def outputPath (rfilename : String) : List String :=
  (PurePath.ofText rfilename).names

/-- The bytes have the digest that the evidence of a recorded copy resolves to, and that of the file in the
    catalog when there is one. -/
def Backed (u : Archive.Unicode) (copies : List CopyRow) (bytes : Bytes) : Prop :=
  ∃ row ∈ copies, u.expectedSha256 row.catalogSha row.origSha256 (some row.compressed) row.annexKey =
      .ok (some (sha256 bytes)) ∧
    (u.presentNonempty row.catalogSha = true → u.hex64 row.catalogSha = some (sha256 bytes))

/-- The files of a staging directory are those of a list, each once and each backed. -/
structure Holds (u : Archive.Unicode) (tables : Tables) (repoId : String) (stage : Stage)
    (names : List String) : Prop where
  files : ∀ path, (∃ bytes, (path, bytes) ∈ stage.files) ↔ ∃ name ∈ names, path = outputPath name
  distinct : (stage.files.map Prod.fst).Nodup
  backed : ∀ file ∈ stage.files, ∃ name ∈ names, file.1 = outputPath name ∧
    Backed u (copiesOf tables repoId name) file.2

section Evidence

open Archive.Unicode

variable {u : Archive.Unicode}

theorem hex64_of_lower {text digest : String} (long : digest.length = 64)
    (hex : digest.toList.all Archive.isHex = true) (lowered : u.lower (u.strip text) = digest) :
    u.hex64 (some text) = some digest := by
  rw [hex64, Option.map_some, lowered, Option.filter_eq_some_iff]
  exact ⟨rfl, by simp [long, hex]⟩

/-- A malformed text beside a digest that is resolved to is not what it is resolved from, so that a present
    digest of the catalog is the one resolved to. -/
theorem catalog_of_expected {catalogSha origSha256 annexKey : Option String} {flag : Bool} {digest : String}
    (found : u.expectedSha256 catalogSha origSha256 (some flag) annexKey = .ok (some digest))
    (long : digest.length = 64) (hex : digest.toList.all Archive.isHex = true)
    (present : u.presentNonempty catalogSha = true) : u.hex64 catalogSha = some digest := by
  cases column : u.hex64 catalogSha with
  | some other => exact (resolved_of_source found (.inl column)).symm
  | none =>
      exfalso
      have bad : u.malformed catalogSha = true := by simp [malformed, present, column]
      -- a malformed text that is returned in lower case would be a digest
      have absurd_of_returned {value : Option String} (malformed_ : u.malformed value = true)
          (returned : value.map (fun text => u.lower (u.strip text)) = some digest) : False := by
        obtain ⟨text, rfl, lowered⟩ := Option.map_eq_some_iff.mp returned
        rw [malformed, hex64_of_lower long hex lowered] at malformed_
        simp at malformed_
      rw [expectedSha256_flag] at found
      split at found
      · cases found
      · split at found
        · cases found
        · rename_i alone
          have noOrig : u.hex64 origSha256 = none := by
            cases orig : u.hex64 origSha256 with
            | none => rfl
            | some _ => simp [bad, orig] at alone
          have noAnnex : u.annexDigest (some flag) annexKey = none := by
            cases annex : u.annexDigest (some flag) annexKey with
            | none => rfl
            | some _ => simp [bad, annex] at alone
          have noSources : u.sources catalogSha origSha256 (some flag) annexKey = [] := by
            simp [sources, column, noOrig, noAnnex]
          rw [noSources] at found
          simp only [List.map_nil, List.dedup_nil] at found
          split at found
          · exact absurd_of_returned ‹_› (Except.ok.inj found)
          · exact absurd_of_returned bad (Except.ok.inj found)

end Evidence

section Published

variable {rules : ReadRules} {env : Environment} {tables : Tables} {repoId : String}

theorem lower_sha256 {u : Archive.Unicode} (lowers : u.LowersHex) (bytes : Bytes) :
    u.lower (sha256 bytes) = sha256 bytes :=
  lowers _ (Archive.hex_sha256 bytes).2

theorem files_of_skipped {stage after : Stage} {output : List String} {row : CopyRow} {retrieved : Bool}
    {detail : String} (tried : Tried env tables stage output row after (.skipped retrieved detail)) :
    after.files = stage.files := by
  cases tried with
  | unreached => rfl
  | unknown => rfl
  | failed _ _ materialized =>
      rcases (materialize_eq_error materialized).1 with rfl | made
      · rfl
      · rw [(mkdir_eq_some made).2]

theorem files_of_restored (lowers : env.unicode.LowersHex) {stage after : Stage} {output : List String}
    {row : CopyRow} {retrieved : Bool} {expected : String}
    (tried : Tried env tables stage output row after (.restored retrieved expected)) :
    ∃ bytes, row.evidence env.unicode = .ok (some (sha256 bytes)) ∧
      after.files = stage.files.filter (·.1 != output) ++ [(output, bytes)] := by
  cases tried with
  | restored _ evidence materialized =>
      obtain ⟨middle, bytes, made, _, replaced, same⟩ := materialize_eq_ok materialized
      rw [lower_sha256 lowers] at same
      refine ⟨bytes, by rw [evidence, same], ?_⟩
      rw [replace_eq_some replaced, (mkdir_eq_some made).2]

/-- A restored file takes the place of any before it, with bytes that a copy backs. -/
theorem restoreCopies_files (lowers : env.unicode.LowersHex) {rfilename : String} {output : List String}
    {rows : List CopyRow} {progress done : Progress} {attempts : List String}
    (restored : restoreCopies env tables repoId rfilename output progress attempts rows = .ok done) :
    ∃ row ∈ rows, ∃ bytes, row.evidence env.unicode = .ok (some (sha256 bytes)) ∧
      done.stage.files = progress.stage.files.filter (·.1 != output) ++ [(output, bytes)] := by
  induction rows generalizing progress attempts with
  | nil => cases restored
  | cons row rows ih =>
      have tried := attempt_tried env tables progress.stage output row
      rw [restoreCopies] at restored
      split at restored
      · cases restored
      · rename_i after retrieved detail outcome
        rw [outcome] at tried
        obtain ⟨other, member, bytes, evidence, files⟩ := ih restored
        rw [files_of_skipped tried] at files
        exact ⟨other, List.mem_cons_of_mem _ member, bytes, evidence, files⟩
      · rename_i after retrieved expected outcome
        rw [outcome] at tried
        cases restored
        obtain ⟨bytes, evidence, files⟩ := files_of_restored lowers tried
        exact ⟨row, List.mem_cons_self, bytes, evidence, files⟩

theorem Backed.of_evidence {copies : List CopyRow} {row : CopyRow} {bytes : Bytes} (member : row ∈ copies)
    (evidence : row.evidence env.unicode = .ok (some (sha256 bytes))) : Backed env.unicode copies bytes := by
  refine ⟨row, member, evidence, ?_⟩
  exact catalog_of_expected evidence (Archive.hex_sha256 bytes).1 (Archive.hex_sha256 bytes).2

theorem holds_empty : Holds env.unicode tables repoId .empty [] where
  files := by simp [Stage.empty]
  distinct := by simp [Stage.empty]
  backed := by simp [Stage.empty]

theorem Holds.placed {stage after : Stage} {names : List String} {name : String} {bytes : Bytes}
    (holds : Holds env.unicode tables repoId stage names)
    (backed : Backed env.unicode (copiesOf tables repoId name) bytes)
    (files : after.files = stage.files.filter (·.1 != outputPath name) ++ [(outputPath name, bytes)]) :
    Holds env.unicode tables repoId after (names ++ [name]) where
  files := by
    intro path
    simp only [files, List.mem_append, List.mem_filter, bne_iff_ne, List.mem_singleton, Prod.mk.injEq]
    constructor
    · intro ⟨content, found⟩
      rcases found with ⟨member, _⟩ | ⟨rfl, _⟩
      · obtain ⟨old, oldMember, same⟩ := (holds.files path).mp ⟨content, member⟩
        exact ⟨old, .inl oldMember, same⟩
      · exact ⟨name, .inr rfl, rfl⟩
    · intro ⟨other, member, same⟩
      by_cases here : path = outputPath name
      · exact ⟨bytes, .inr ⟨here, rfl⟩⟩
      · rcases member with old | rfl
        · obtain ⟨content, found⟩ := (holds.files path).mpr ⟨other, old, same⟩
          exact ⟨content, .inl ⟨found, here⟩⟩
        · exact absurd same here
  distinct := by
    rw [files, List.map_append, List.map_singleton, List.nodup_append]
    refine ⟨holds.distinct.sublist (List.filter_sublist.map _), List.nodup_singleton _, ?_⟩
    intro path among other last
    obtain ⟨file, member, rfl⟩ := List.mem_map.mp among
    rw [List.mem_singleton.mp last]
    simpa using (List.mem_filter.mp member).2
  backed := by
    intro file member
    rw [files] at member
    rcases List.mem_append.mp member with old | new
    · obtain ⟨other, otherMember, path, proof⟩ := holds.backed file (List.mem_filter.mp old).1
      exact ⟨other, List.mem_append_left _ otherMember, path, proof⟩
    · obtain rfl := List.mem_singleton.mp new
      exact ⟨name, by simp, rfl, backed⟩

theorem restoreFile_holds (lowers : env.unicode.LowersHex) {progress done : Progress} {name : String}
    {names : List String} (holds : Holds env.unicode tables repoId progress.stage names)
    (restored : restoreFile env tables repoId progress name = .ok done) :
    Holds env.unicode tables repoId done.stage (names ++ [name]) := by
  simp only [restoreFile, bind_eq_ok] at restored
  obtain ⟨output, safe, restored⟩ := restored
  have path : output = .ofText name := by
    unfold safeRelative at safe
    split at safe
    · cases safe
      exact (safeRelative?_eq_some ‹_›).2.2.2
    · cases safe
  obtain ⟨row, member, bytes, evidence, files⟩ := restoreCopies_files lowers restored
  rw [path] at files
  exact holds.placed (.of_evidence member evidence) files

/-- After the loop over some files, the staging directory holds them too. -/
theorem thread_restoreFile_holds (lowers : env.unicode.LowersHex) {progress done : Progress}
    {names rest : List String} (holds : Holds env.unicode tables repoId progress.stage names)
    (restored : thread (restoreFile env tables repoId) progress rest = .ok done) :
    Holds env.unicode tables repoId done.stage (names ++ rest) := by
  induction rest generalizing progress names with
  | nil =>
      cases restored
      rwa [List.append_nil]
  | cons name rest ih =>
      obtain ⟨next, first, later⟩ := bind_eq_ok.mp restored
      have held := ih (restoreFile_holds lowers holds first) later
      rwa [List.append_assoc] at held

/-- A restore publishes exactly the planned files, or raises and leaves nothing of its own. -/
inductive Concluded (env : Environment) (tables : Tables) (repoId : String) (planned : List String)
    (root : OutputRoot) : Disk × Except Raised Summary → Prop
  | published (stage : Stage) (summary : Summary) (free : root.destination = .absent)
      (holds : Holds env.unicode tables repoId stage planned) :
      Concluded env tables repoId planned root (⟨.published stage, none⟩, .ok summary)
  | raised (raised : Raised) :
      Concluded env tables repoId planned root (⟨root.destination, none⟩, .error raised)

theorem checkRestore_eq_ok {root : OutputRoot} {done : Unit} :
    checkRestore rules tables repoId root = .ok done ↔
      (safeRelative? repoId).isSome = true ∧ copyRows tables repoId ≠ [] ∧
        plannedFiles rules tables repoId ≠ [] ∧
        (∀ name ∈ plannedFiles rules tables repoId, copiesOf tables repoId name ≠ []) ∧
        root.escapes = false ∧ root.destination = .absent := by
  have empty_iff (names : List String) : (sortedSet names).isEmpty = true ↔ names = [] := by
    rw [List.isEmpty_iff, List.eq_nil_iff_forall_not_mem, List.eq_nil_iff_forall_not_mem]
    simp
  cases safe : safeRelative? repoId with
  | none => simp [checkRestore, safeRelative, safe]
  | some path =>
      simp [checkRestore, safeRelative, safe, empty_iff, List.filter_eq_nil_iff]

theorem restoreRepo_concluded (lowers : env.unicode.LowersHex) (root : OutputRoot) :
    Concluded env tables repoId (plannedFiles rules tables repoId) root
      (restoreRepo rules env tables repoId root) := by
  unfold restoreRepo
  cases checked : checkRestore rules tables repoId root with
  | error raised => exact .raised raised
  | ok done =>
      dsimp only
      split
      · exact .raised _
      · rename_i progress restored
        have free := (checkRestore_eq_ok.mp checked).2.2.2.2.2
        exact .published _ _ free (thread_restoreFile_holds lowers holds_empty restored)

end Published

end Modelark.Restore
