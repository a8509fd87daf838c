import Modelark.Conversion.Plan
import Modelark.Library.Interruptions

/-!
# Conversions

`apply_conversion` and `resume_conversion` as programs of steps on files, archives and the catalog. Every
command and every transaction is one step; a new file can be left half written.
-/

namespace Modelark.Conversion

open Library Execution Revision

structure World where
  catalog : Catalog
  /-- The archive of each drive. -/
  archives : String → Archive
  /-- The plans in the destination directory, by the middle of their names. -/
  plans : List (String × String)

abbrev Act := Program World Failure

def World.setArchive (world : World) (label : String) (archive : Archive) : World :=
  { world with archives := Function.update world.archives label archive }

/-- The most that one `os.write` takes. -/
def writeLimit : Nat := 0x7ffff000

def ensure (holds : Bool) (code : String) : Act Unit :=
  .lift (require holds (refused code))

def whenever (holds : Bool) (act : Act Unit) : Act Unit :=
  if holds then act else pure ()

/-- `_confined`. -/
def confined (repoId stored : String) : Except Failure String := do
  let repo ← relativePath repoId
  let stored ← relativePath stored
  relativePath (repo ++ "/" ++ stored)

section Files

variable (tools : Tools) (label : String)

/-- `_git`, on a path or a key. -/
def git (command : GitCommand) (path : String) : Act String :=
  .atomic fun world =>
    match tools.git command path (world.archives label) with
    | some (after, output) => .ok (world.setArchive label after, output)
    | none => .error (refused "PUBLICATION_MIGRATE_GIT_FAILED")

def seeArchive {α : Type} (see : Archive → α) : Act α :=
  .look fun world => .ok (see (world.archives label))

/-- The bytes of a file, which must be there. -/
def readBytes (read : Archive → Option Bytes) : Act Bytes :=
  .look fun world =>
    match read (world.archives label) with
    | some bytes => .ok bytes
    | none => .error (.raised "FileNotFoundError")

/-- `_source_path`. -/
def sourcePath (candidate : Candidate) : Act String := do
  let stored ← .lift (match nonempty? candidate.row.storedRelpath with
    | some stored => .ok stored
    | none => .error (refused "PUBLICATION_MIGRATE_SOURCE_UNPROVEN"))
  let src ← .lift (confined candidate.row.repoId stored)
  let present ← seeArchive label (·.hasFile src)
  ensure present "PUBLICATION_MIGRATE_SOURCE_UNPROVEN"
  return src

/-- `_write_new`. -/
def writeNew (path : String) (bytes : Bytes) : Act Unit :=
  .tearing
    (fun world left => ∃ part archive, part <+: bytes ∧ (world.archives label).create path part =
      some archive ∧ left = world.setArchive label archive)
    fun world =>
      match (world.archives label).create path (bytes.take writeLimit) with
      | some archive => .ok (world.setArchive label archive, ())
      | none => .error (.raised "OSError")

/-- The path that a copy gets. -/
def destRelpath (candidate : Candidate) : Except Failure String :=
  if candidate.proposedStoredRelpath != "" then .ok candidate.proposedStoredRelpath
  else tools.payloadRelativePath candidate.row.rfilename

/-- `_dest_path`. -/
def destPath (candidate : Candidate) : Except Failure String := do
  let relpath ← destRelpath tools candidate
  confined candidate.row.repoId relpath

/-- `_convert_file`, with the key and the new path of the copy. -/
def convertFile (candidate : Candidate) : Act (String × String) := do
  let src ← sourcePath label candidate
  let data ← readBytes label (·.read src)
  let digest := tools.sha256 data
  ensure (!Modelark.Archive.truthy candidate.row.origSha256 || candidate.row.origSha256 == some digest)
    "PUBLICATION_MIGRATE_HASH_MISMATCH"
  let relpath ← .lift (destRelpath tools candidate)
  let dest ← .lift (confined candidate.row.repoId relpath)
  let fresh ← seeArchive label fun archive =>
    archive.resolve dest != archive.resolve src && !archive.pathExists dest
  whenever fresh (writeNew label dest data)
  let _ ← git tools label .annexAdd dest
  let key ← git tools label .annexLookupkey dest
  let (size, keyDigest) ← .lift (parseSha256Key key)
  let expected ← .lift (sha256Key data.length digest)
  ensure (key == expected && size == data.length && keyDigest == digest)
    "PUBLICATION_MIGRATE_KEY_UNPROVEN"
  let location ← git tools label .examinekey key
  let object ← readBytes label (·.objects[location]?)
  ensure (tools.sha256 object == digest) "PUBLICATION_MIGRATE_HASH_MISMATCH"
  let _ ← git tools label .commit dest
  return (key, relpath)

/-- `_retire_source`. -/
def retireSource (candidate : Candidate) (dest : String) : Act Unit :=
  match nonempty? candidate.row.storedRelpath with
  | none => pure ()
  | some stored => do
      let src ← .lift (confined candidate.row.repoId stored)
      let same ← seeArchive label fun archive => archive.resolve dest == archive.resolve src
      if same then pure ()
      else do
        let committed ← git tools label .lsTree src
        if committed = "" then pure ()
        else do
          let indexed ← git tools label .lsFiles src
          let present ← seeArchive label (·.hasFile src)
          whenever (present || indexed != "") do
            let _ ← git tools label .rm src
            return ()
          let _ ← git tools label .commit src
          let still ← git tools label .lsTree src
          ensure (still == "") "PUBLICATION_MIGRATE_GIT_FAILED"

end Files

structure Converted where
  driveLabel : String
  rfilename : String
  annexKey : String
  storedRelpath : String
  deriving Repr, DecidableEq

/-- `_current_annex_key`. -/
def currentAnnexKey (c : Catalog) (candidate : Candidate) : Option String :=
  (c.tables.archived.find candidate.row.key).bind ArchivedRow.annexKey

/-- `Path(…).name`. -/
def baseName (path : String) : String :=
  (parts path).getLastD ""

/-- `_publish_key`. -/
def publish (candidate : Candidate) (annexKey storedRelpath : String) : Act Unit :=
  .atomic fun world =>
    match publishKey candidate.row annexKey storedRelpath (baseName storedRelpath) world.catalog with
    | .ok catalog => .ok ({ world with catalog }, ())
    | .error failure => .error failure

/-- One candidate of `_convert_archives`. -/
def convertCandidate (tools : Tools) (archives : List String) (candidate : Candidate) :
    Act (Option Converted) :=
  if candidate.state != "convertible" then pure none
  else do
    let label := candidate.row.driveLabel
    ensure (archives.contains label) "PUBLICATION_MIGRATE_ARCHIVE_REQUIRED"
    let dest ← .lift (destPath tools candidate)
    let current ← .look fun world => .ok (currentAnnexKey world.catalog candidate)
    if Modelark.Archive.truthy current then do
      retireSource tools label candidate dest
      return none
    else do
      let (key, stored) ← convertFile tools label candidate
      publish candidate key stored
      retireSource tools label candidate dest
      return some ⟨label, candidate.row.rfilename, key, stored⟩

/-- `_convert_archives`. -/
def convertArchives (tools : Tools) (archives : List String) (frozen : List (String × Json)) :
    Act (List Converted) := do
  let candidates ← .lift (candidatesOf frozen)
  Program.gather (convertCandidate tools archives) candidates

/-- The arguments of a call. -/
structure Call where
  writersStopped : Bool
  /-- The catalog is the live one. -/
  live : Bool
  destDir : Bool
  archives : Option (List String)

/-- What a call returns: the plan that it has read or frozen, and what it has converted. -/
structure Outcome where
  frozen : List (String × Json)
  converted : List Converted

def checkCall (call : Call) : Act Unit := do
  ensure call.writersStopped "PUBLICATION_WRITERS_STILL_RUNNING"
  ensure (!call.live) "PUBLICATION_LIVE_CUTOVER_FORBIDDEN"
  ensure call.destDir "PUBLICATION_MIGRATE_DEST_REQUIRED"

/-- The conversion of a plan, if there are archives. -/
def convertWith (tools : Tools) (archives : Option (List String)) (frozen : List (String × Json)) :
    Act Outcome :=
  match archives with
  | none | some [] => pure ⟨frozen, []⟩
  | some archives => do
      let converted ← convertArchives tools archives frozen
      return ⟨frozen, converted⟩

/-- `_write_private` of a plan that is not there yet. -/
def writePrivate (name text : String) : Act Unit :=
  .tearing
    (fun world left => ∃ part, part <+: text.toList ∧
      left = { world with plans := world.plans ++ [(name, String.ofList part)] })
    fun world =>
      if (world.plans.lookup name).isSome then .error (refused "PUBLICATION_MIGRATE_PLAN_EXISTS")
      else
        let written := String.ofList (text.toList.take writeLimit)
        .ok ({ world with plans := world.plans ++ [(name, written)] }, ())

/-- `_read_private` of a plan. -/
def readPrivate (name : String) : Act (List (String × Json)) :=
  .look fun world =>
    match world.plans.lookup name with
    | none => .error (refused "PUBLICATION_MIGRATE_PLAN_UNPROVEN")
    | some text => readPlan text

/-- `apply_conversion` of a plan. -/
def applyConversion (tools : Tools) (call : Call) (plan : Plan) : Act Outcome := do
  checkCall call
  let digest := planSeal tools plan.fields
  let name := plan.stem tools
  let present ← .look fun world => .ok (world.plans.lookup name).isSome
  if present then do
    ensure call.archives.isSome "PUBLICATION_MIGRATE_PLAN_EXISTS"
    let frozen ← readPrivate name
    ensure (sealOf frozen == some digest && sealOf frozen == some (planSeal tools frozen))
      "PUBLICATION_MIGRATE_PLAN_UNPROVEN"
    convertWith tools call.archives frozen
  else do
    writePrivate name (plan.text tools)
    convertWith tools call.archives (plan.frozen tools)

/-- `glob` of a plan's file by the first twelve characters of its id, in order. -/
def matching (name : String) (plans : List (String × String)) : List String :=
  sortBy id ((plans.map Prod.fst).filter fun other => name.toList.isPrefixOf other.toList)

/-- `resume_conversion`. -/
def resumeConversion (tools : Tools) (call : Call) (planId : String) : Act Outcome := do
  checkCall call
  let name := String.ofList (planId.toList.take 12)
  let found ← .look fun world =>
    match matching name world.plans with
    | [found] => .ok found
    | _ => .error (refused "PUBLICATION_MIGRATE_PLAN_UNPROVEN")
  let frozen ← readPrivate found
  ensure (sealOf frozen == some (planSeal tools frozen)) "PUBLICATION_MIGRATE_PLAN_UNPROVEN"
  ensure (((sealOf frozen).getD "").toList.take 12 == name.toList) "PUBLICATION_MIGRATE_PLAN_UNPROVEN"
  convertWith tools call.archives frozen

end Modelark.Conversion
