import Modelark.Archive.Evidence
import Modelark.Library.PurePaths
import Modelark.Library.Sha256
import Modelark.Revision.Catalog

/-!
# Copies of a restore

What the recorded copies of a repository answer when they are read, and how one of them becomes a file of the
staging directory.
-/

namespace Modelark.Restore

open Library Revision

abbrev Bytes := List UInt8

/-- A recorded copy of a file, with what the catalog says of the file itself. -/
structure CopyRow where
  rfilename : String
  storedName : Option String
  storedRelpath : Option String
  driveLabel : String
  origSha256 : Option String
  compressed : Bool
  annexKey : Option String
  catalogSha : Option String
  quant : Option String
  deriving Repr, DecidableEq

/-- `_rows`, in the order of files and drives. -/
def copyRows (tables : Tables) (repoId : String) : List CopyRow :=
  (sortBy (fun row => toLex (row.rfilename, row.driveLabel))
    (tables.archived.rows.filter (·.repoId == repoId))).map fun row =>
      let file := tables.files.find (row.repoId, row.rfilename)
      ⟨row.rfilename, row.storedName, row.storedRelpath, row.driveLabel, row.origSha256, row.compressed,
        row.annexKey, file.bind FileRow.sha256, file.bind FileRow.quant⟩

/-- What is raised while a copy is read. -/
inductive Raised where
  /-- `RestoreError`. -/
  | restore (detail : String)
  /-- `OSError`. -/
  | os (detail : String)
  /-- `DigestEvidenceError`, a `ValueError`. -/
  | evidence (refused : Archive.DigestError)
  deriving Repr, DecidableEq

/-- An exception that `except (OSError, RuntimeError)` catches, with its text. -/
def Raised.caught? : Raised → Option String
  | .restore detail | .os detail => some detail
  | .evidence _ => none

/-- `_safe_relative`. -/
def safeRelative (value description : String) : Except Raised PurePath :=
  match safeRelative? value with
  | some path => .ok path
  | none => .error (.restore ("unsafe " ++ description ++ ": '" ++ value ++ "'"))

/-- `_stored_relative`. -/
def storedRelative (row : CopyRow) : Except Raised PurePath :=
  let stored := (PurePath.ofText row.rfilename).parent.join (.ofText (row.storedName.getD ""))
  safeRelative (if Archive.truthy row.storedRelpath then row.storedRelpath.getD "" else stored.text)
    "stored path"

/-- A finished `git annex` command. -/
structure AnnexRun where
  succeeded : Bool
  stdout : String
  stderr : String
  deriving Repr, DecidableEq

/-- Where the content of a copy is. -/
inductive Source where
  | stored
  | content (path : PurePath)
  deriving Repr, DecidableEq

/-- What is met when one copy is read. -/
structure CopyAnswers where
  /-- Whether the publisher's library admits the copy, with the text of the refusal; nothing without a
      library. -/
  publication : Option (Except String Unit)
  isStored : Bool
  isCheckout : Bool
  get : AnnexRun
  isStoredAfterGet : Bool
  getByKey : AnnexRun
  contentLocation : AnnexRun
  isContent : PurePath → Bool
  /-- The bytes there, or the text of an `OSError`. -/
  read : Source → Except String Bytes

inductive DecodeFailure where
  | unavailable (detail : String)
  | failed (detail : String)
  deriving Repr, DecidableEq

/-- What a restore runs in. -/
structure Environment where
  unicode : Archive.Unicode
  /-- The guarded codec, for a dtype. -/
  decode : String → Bytes → Except DecodeFailure Bytes
  mounted : String → Bool
  answers : CopyRow → CopyAnswers

section Copy

variable (env : Environment) (tables : Tables) (row : CopyRow)

/-- `_may_mutate`: a drive whose writes are authoritative is not fetched to. -/
def mayMutate : Bool :=
  !tables.drives.any fun drive =>
    drive.driveLabel == row.driveLabel && drive.writeAuthority == "dedicated_local"

/-- `_publication_source`: whether content may be fetched. -/
def publicationSource : Except Raised Bool :=
  match (env.answers row).publication with
  | none => .ok (mayMutate tables row)
  | some (.ok _) => .ok false
  | some (.error detail) => .error (.restore detail)

/-- The text of a failed retrieval. -/
def retrievalDetail (result : AnnexRun) : String :=
  let said := env.unicode.strip (if result.stderr = "" then result.stdout else result.stderr)
  let shown := String.ofList ((said.toList.map fun c => if c = '\n' then ' ' else c).take 180)
  "git-annex could not retrieve blob: " ++ (if shown = "" then "content unavailable" else shown)

/-- `_annex_content`: the readable content, whether git-annex retrieved it, and a detail. -/
def annexContent (mayMutate : Bool) : Option Source × Bool × String :=
  let answers := env.answers row
  if answers.isStored then (some .stored, false, "available")
  else if !answers.isCheckout then
    (none, false, "recorded blob is missing (archive is not a git-annex checkout)")
  else if !mayMutate then
    (none, false, "recorded copy is dropped and retrieval is refused: it would mutate an " ++
      "authoritative (dedicated_local) drive and invalidate its clean anchor")
  else
    let retrieved := answers.get.succeeded
    if answers.isStoredAfterGet then
      (some .stored, retrieved, if retrieved then "retrieved with git-annex" else "available")
    else if !Archive.truthy row.annexKey then (none, retrieved, retrievalDetail env answers.get)
    else
      let retrieved := retrieved || answers.getByKey.succeeded
      let location := env.unicode.strip answers.contentLocation.stdout
      if answers.contentLocation.succeeded && location != "" then
        match safeRelative? location with
        | none => (none, retrieved, "unsafe git-annex content path: '" ++ location ++ "'")
        | some path =>
            if answers.isContent path then (some (.content path), retrieved, "retrieved by git-annex key")
            else (none, retrieved, retrievalDetail env answers.getByKey)
      else (none, retrieved, retrievalDetail env answers.getByKey)

/-- `_expected_hash`. -/
def expectedHash : Except Raised (Option String) :=
  (env.unicode.expectedSha256 row.catalogSha row.origSha256 (some row.compressed) row.annexKey).mapError
    .evidence

/-- `zipnn_dtype`. -/
def zipnnDtype (quant : Option String) : String :=
  let label := env.unicode.lower (quant.getD "")
  if ["bf16", "bfloat16"].contains label then "bfloat16"
  else if ["fp16", "f16", "float16"].contains label then "float16"
  else if ["fp32", "f32", "float32"].contains label then "float32"
  else "bfloat16"

/-- The original bytes of a copy. -/
def originalBytes (source : Source) : Except Raised Bytes :=
  match (env.answers row).read source with
  | .error detail => .error (if row.compressed then .restore ("decompression failed: " ++ detail) else .os detail)
  | .ok stored =>
      if row.compressed then
        match env.decode (zipnnDtype env row.quant) stored with
        | .ok bytes => .ok bytes
        | .error (.unavailable detail) =>
            .error (.restore ("decompression unavailable (not a corruption verdict): " ++ detail))
        | .error (.failed detail) => .error (.restore ("decompression failed: " ++ detail))
      else .ok stored

end Copy

/-- A directory under construction: its files by their names from the top, and the directories made. -/
structure Stage where
  files : List (List String × Bytes)
  made : List (List String)
  deriving DecidableEq

namespace Stage

def empty : Stage := ⟨[], []⟩

variable (stage : Stage) (path : List String)

def isDirectory : Bool :=
  path == [] || stage.made.any path.isPrefixOf

/-- `mkdir` with all parents, which a file in the way prevents. -/
def mkdir : Option Stage :=
  if stage.files.any fun file => file.1.isPrefixOf path then none
  else some { stage with made := path :: stage.made }

/-- `os.replace` of a temporary file. -/
def replace (bytes : Bytes) : Option Stage :=
  if stage.isDirectory path then none
  else some { stage with files := stage.files.filter (·.1 != path) ++ [(path, bytes)] }

end Stage

section Attempt

variable (env : Environment) (tables : Tables) (stage : Stage) (output : List String) (row : CopyRow)

/-- `_materialize`, with the directory it leaves also when it raises. -/
def materialize (source : Source) (expected : String) : Stage × Except Raised Unit :=
  match stage.mkdir output.dropLast with
  | none => (stage, .error (.os "Not a directory"))
  | some stage =>
      match originalBytes env row source with
      | .error raised => (stage, .error raised)
      | .ok bytes =>
          let actual := sha256 bytes
          if env.unicode.lower actual != expected then
            (stage, .error (.restore
              ("sha256 mismatch after restore (expected " ++ expected ++ ", got " ++ actual ++ ")")))
          else
            match stage.replace output bytes with
            | none => (stage, .error (.os "Is a directory"))
            | some stage => (stage, .ok ())

/-- What became of a copy. -/
inductive Attempt where
  | restored (retrieved : Bool) (expected : String)
  /-- The next copy is tried. -/
  | skipped (retrieved : Bool) (detail : String)
  | escaped (raised : Raised)
  deriving Repr, DecidableEq

/-- The handler around a copy. -/
def Attempt.handled (retrieved : Bool) (raised : Raised) : Attempt :=
  match raised.caught? with
  | some detail => .skipped retrieved detail
  | none => .escaped raised

/-- The body of the loop over the copies of a file. -/
def attempt : Stage × Attempt :=
  if !env.mounted row.driveLabel then (stage, .skipped false "offline/not mounted")
  else
    match storedRelative row with
    | .error raised => (stage, .handled false raised)
    | .ok _ =>
        match publicationSource env tables row with
        | .error raised => (stage, .handled false raised)
        | .ok mayMutate =>
            match annexContent env row mayMutate with
            | (none, _, detail) => (stage, .skipped false detail)
            | (some source, retrieved, _) =>
                match expectedHash env row with
                | .error raised => (stage, .handled retrieved raised)
                | .ok none => (stage, .skipped retrieved "no original-byte sha256 available")
                | .ok (some expected) =>
                    match materialize env stage output row source expected with
                    | (stage, .error raised) => (stage, .handled retrieved raised)
                    | (stage, .ok _) => (stage, .restored retrieved expected)

end Attempt

/-- The evidence of a copy, with the digest of the catalog. -/
def CopyRow.evidence (u : Archive.Unicode) (row : CopyRow) : Except Archive.DigestError (Option String) :=
  u.expectedSha256 row.catalogSha row.origSha256 (some row.compressed) row.annexKey

/-- The content of a copy is reached: its drive is mounted, its stored path is safe, the library admits it
    and the content is there or is retrieved. -/
structure Reached (env : Environment) (tables : Tables) (row : CopyRow) (source : Source) (retrieved : Bool) :
    Prop where
  mounted : env.mounted row.driveLabel = true
  safe : ∃ path, storedRelative row = .ok path
  content : ∃ mayMutate detail, publicationSource env tables row = .ok mayMutate ∧
    annexContent env row mayMutate = (some source, retrieved, detail)

/-- The ways an attempt can go, with the staging directory it leaves. -/
inductive Tried (env : Environment) (tables : Tables) (stage : Stage) (output : List String) (row : CopyRow) :
    Stage → Attempt → Prop
  | unreached (retrieved : Bool) (detail : String)
      (absent : ∀ source retrieved, ¬Reached env tables row source retrieved) :
      Tried env tables stage output row stage (.skipped retrieved detail)
  | contradicted {source : Source} {retrieved : Bool} {refused : Archive.DigestError}
      (reached : Reached env tables row source retrieved)
      (evidence : row.evidence env.unicode = .error refused) :
      Tried env tables stage output row stage (.escaped (.evidence refused))
  | unknown {source : Source} {retrieved : Bool} (detail : String)
      (reached : Reached env tables row source retrieved) (evidence : row.evidence env.unicode = .ok none) :
      Tried env tables stage output row stage (.skipped retrieved detail)
  | failed {source : Source} {retrieved : Bool} {expected detail : String} {raised : Raised} {after : Stage}
      (reached : Reached env tables row source retrieved)
      (evidence : row.evidence env.unicode = .ok (some expected))
      (materialized : materialize env stage output row source expected = (after, .error raised)) :
      Tried env tables stage output row after (.skipped retrieved detail)
  | restored {source : Source} {retrieved : Bool} {expected : String} {after : Stage}
      (reached : Reached env tables row source retrieved)
      (evidence : row.evidence env.unicode = .ok (some expected))
      (materialized : materialize env stage output row source expected = (after, .ok ())) :
      Tried env tables stage output row after (.restored retrieved expected)

section Attempts

variable {env : Environment} {tables : Tables} {stage after : Stage} {output : List String} {row : CopyRow}

theorem Reached.unique {source other : Source} {retrieved retrieved' : Bool}
    (reached : Reached env tables row source retrieved) (again : Reached env tables row other retrieved') :
    source = other := by
  obtain ⟨mayMutate, _, admitted, content⟩ := reached.content
  obtain ⟨mayMutate', _, admitted', content'⟩ := again.content
  rw [admitted] at admitted'
  cases admitted'
  rw [content] at content'
  cases content'
  rfl

theorem mkdir_eq_some {path : List String} (made : stage.mkdir path = some after) :
    (∀ file ∈ stage.files, ¬file.1 <+: path) ∧ after = { stage with made := path :: stage.made } := by
  unfold Stage.mkdir at made
  split at made
  · cases made
  · rename_i clear
    cases made
    simp only [List.any_eq_true, not_exists, not_and, List.isPrefixOf_iff_prefix] at clear
    exact ⟨clear, rfl⟩

theorem replace_eq_some {path : List String} {bytes : Bytes} (replaced : stage.replace path bytes = some after) :
    after = { stage with files := stage.files.filter (·.1 != path) ++ [(path, bytes)] } := by
  unfold Stage.replace at replaced
  split at replaced
  · cases replaced
  · cases replaced
    rfl

theorem materialize_eq_ok {source : Source} {expected : String}
    (written : materialize env stage output row source expected = (after, .ok ())) :
    ∃ middle bytes, stage.mkdir output.dropLast = some middle ∧
      originalBytes env row source = .ok bytes ∧ middle.replace output bytes = some after ∧
      env.unicode.lower (sha256 bytes) = expected := by
  unfold materialize at written
  split at written
  · cases written
  · rename_i middle made
    split at written
    · cases written
    · rename_i bytes read
      dsimp only at written
      split at written
      · cases written
      · rename_i same
        split at written
        · cases written
        · rename_i replaced
          cases written
          exact ⟨middle, bytes, made, read, replaced, by simpa using same⟩

theorem caught_of_originalBytes {source : Source} {raised : Raised}
    (failed : originalBytes env row source = .error raised) : ∃ detail, raised.caught? = some detail := by
  unfold originalBytes at failed
  split at failed
  · cases failed
    split
    · exact ⟨_, rfl⟩
    · exact ⟨_, rfl⟩
  · split at failed
    · split at failed
      · cases failed
      · cases failed
        exact ⟨_, rfl⟩
      · cases failed
        exact ⟨_, rfl⟩
    · cases failed

/-- A failed materialization leaves at most a directory, and its exception is caught. -/
theorem materialize_eq_error {source : Source} {expected : String} {raised : Raised}
    (failed : materialize env stage output row source expected = (after, .error raised)) :
    (after = stage ∨ stage.mkdir output.dropLast = some after) ∧ ∃ detail, raised.caught? = some detail := by
  unfold materialize at failed
  split at failed
  · cases failed
    exact ⟨.inl rfl, _, rfl⟩
  · rename_i middle made
    split at failed
    · cases failed
      exact ⟨.inr made, caught_of_originalBytes ‹_›⟩
    · dsimp only at failed
      split at failed
      · cases failed
        exact ⟨.inr made, _, rfl⟩
      · split at failed
        · cases failed
          exact ⟨.inr made, _, rfl⟩
        · cases failed

theorem expectedHash_eq (env : Environment) (row : CopyRow) :
    expectedHash env row = (row.evidence env.unicode).mapError .evidence := rfl

theorem attempt_tried (env : Environment) (tables : Tables) (stage : Stage) (output : List String)
    (row : CopyRow) : Tried env tables stage output row (attempt env tables stage output row).1
      (attempt env tables stage output row).2 := by
  unfold attempt
  cases mounted : env.mounted row.driveLabel with
  | false =>
      apply Tried.unreached
      intro source retrieved reached
      rw [reached.mounted] at mounted
      cases mounted
  | true =>
      simp only [Bool.not_true, Bool.false_eq_true, if_false]
      cases safe : storedRelative row with
      | error raised =>
          have absent : ∀ source retrieved, ¬Reached env tables row source retrieved := by
            intro source retrieved reached
            obtain ⟨path, accepted⟩ := reached.safe
            rw [safe] at accepted
            cases accepted
          have caught : ∃ detail, raised = .restore detail := by
            unfold storedRelative safeRelative at safe
            dsimp only at safe
            split at safe
            · cases safe
            · exact ⟨_, (Except.error.inj safe).symm⟩
          obtain ⟨detail, rfl⟩ := caught
          exact .unreached _ _ absent
      | ok path =>
          dsimp only
          cases admitted : publicationSource env tables row with
          | error raised =>
              have absent : ∀ source retrieved, ¬Reached env tables row source retrieved := by
                intro source retrieved reached
                obtain ⟨_, _, accepted, _⟩ := reached.content
                rw [admitted] at accepted
                cases accepted
              have caught : ∃ detail, raised = .restore detail := by
                unfold publicationSource at admitted
                split at admitted
                · cases admitted
                · cases admitted
                · exact ⟨_, (Except.error.inj admitted).symm⟩
              obtain ⟨detail, rfl⟩ := caught
              exact .unreached _ _ absent
          | ok mayMutate =>
              dsimp only
              generalize content : annexContent env row mayMutate = found
              obtain ⟨source, retrieved, detail⟩ := found
              cases source with
              | none =>
                  apply Tried.unreached
                  intro source retrieved' reached
                  obtain ⟨_, _, accepted, found⟩ := reached.content
                  rw [admitted] at accepted
                  cases accepted
                  rw [content] at found
                  cases found
              | some source =>
                  have reached : Reached env tables row source retrieved :=
                    ⟨mounted, ⟨path, safe⟩, mayMutate, detail, admitted, content⟩
                  dsimp only
                  rw [expectedHash_eq]
                  cases evidence : row.evidence env.unicode with
                  | error refused => exact .contradicted reached evidence
                  | ok resolved =>
                      cases resolved with
                      | none => exact .unknown _ reached evidence
                      | some expected =>
                          simp only [Except.mapError]
                          generalize materialized :
                            materialize env stage output row source expected = written
                          obtain ⟨after, result⟩ := written
                          cases result with
                          | error raised =>
                              obtain ⟨_, detail, caught⟩ := materialize_eq_error materialized
                              simp only [Attempt.handled, caught]
                              exact .failed reached evidence materialized
                          | ok done => exact .restored reached evidence materialized

end Attempts

end Modelark.Restore
