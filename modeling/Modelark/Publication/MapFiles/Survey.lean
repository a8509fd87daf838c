import Modelark.Publication.MapFiles.Ledger

/-!
# What a candidate of files is made of

Before its first write a candidate looks at everything that it relies on: the receipts of the files, the
repositories that they were committed to, the map, the stage and the actions that are journalled already.
-/

namespace Modelark.Publication.MapFiles

open Library
open Revision (Failure)
open Conversion (refused)

structure FileSelection (O : Type) where
  fileId : String
  entry : TreeEntry O
  deriving DecidableEq

/-- The files of a drive's repository, at its head. -/
structure SourceFiles (O : Type) where
  driveLabel : String
  headOid : O
  files : List (FileSelection O)
  deriving DecidableEq

structure Arguments (O : Type) where
  sources : List (SourceFiles O)
  batchId : String
  resume : Bool
  deriving DecidableEq

/-- The receipts of a published file. -/
structure Published (O : Type) where
  digest : String
  intent : FileIntent O
  committed : TreeProof O
  catalogTree : TreeProof O
  catalogLocal : LocalProof
  latest : String
  deriving DecidableEq

/-- What is known before the stage is looked at. -/
structure Opening (O : Type) where
  operationId : String
  operationDigest : String
  sources : List (SourceFiles O)
  rows : List (String × Published O)
  before : Snapshot O

/-- What is to be done, and what is to stay as it is meanwhile. -/
structure Plan (O : Type) where
  operationId : String
  operationDigest : String
  batchId : String
  sources : List (SourceFiles O)
  rows : List (String × Published O)
  before : Snapshot O
  stageHead : String × O
  selection : List (Selected O)
  observations : List (Snapshot O)
  delta : List (TreeEntry O)
  expected : List (TreeEntry O)
  base : Base O
  deriving DecidableEq

section Held

variable {O D : Type} [DecidableEq O] (naming : Naming O D) (held : Held O)

/-- `require_stage`. -/
def requireStage : Except Failure Unit :=
  require (held.stage.issued == some (naming.profile held.stage.profile))
    (refused "PUBLICATION_STAGE_CAPABILITY_MISSING")

/-- `_no_payload`. -/
def requireNoPayload : Except Failure Unit :=
  require (!held.stage.hasPayload) (refused "PUBLICATION_STAGE_HAS_PAYLOAD")

/-- The repository of a drive. -/
def drive (driveLabel : String) : Except Failure (Repository O) :=
  match held.drives[driveLabel]? with
  | some repository => .ok repository
  | none => .error (refused "PUBLICATION_MAP_FILE_SOURCE_UNQUALIFIED")

/-- The sources that are looked at so far, with one more. -/
def qualifySource (labels : List String) (source : SourceFiles O) : Except Failure (List String) := do
  let _ ← drive held source.driveLabel
  require (held.identities.contains source.driveLabel && !labels.contains source.driveLabel &&
    !source.files.isEmpty) (refused "PUBLICATION_MAP_FILE_SOURCE_UNQUALIFIED")
  return source.driveLabel :: labels

/-- The arguments are of this scope. -/
def qualify (arguments : Arguments O) : Except Failure String := do
  requireStage naming held
  let some operationId := held.operationId | .error (refused "PUBLICATION_MAP_FILE_SCOPE_MISMATCH")
  require (held.mapLabel.isNone &&
    held.stage.profile.rootIdentity != held.map.profile.rootIdentity)
    (refused "PUBLICATION_MAP_FILE_SCOPE_MISMATCH")
  require (!arguments.sources.isEmpty) (refused "PUBLICATION_MAP_FILE_SELECTION_INVALID")
  let _ ← thread (qualifySource held) [] arguments.sources
  return operationId

def fileIds (sources : List (SourceFiles O)) : List String :=
  sources.flatMap fun source => source.files.map FileSelection.fileId

/-- The receipts of a file of a batch. -/
def published (batchId fileId : String) : Except Failure (String × Published O) := do
  let row ← held.files fileId
  require (row.batchId == batchId && row.phase == .catalogPublished)
    (refused "PUBLICATION_MAP_FILE_NOT_PUBLISHED")
  let some (committed, tree, payload) := row.proofs | .error (refused "PUBLICATION_RECORD_UNPROVEN")
  return (fileId, ⟨row.digest, row.intent, committed, tree, payload, row.latest⟩)

/-- `_receipt_rows`: the operation, and the receipts of all the files of the batch. -/
def receiptRows (sources : List (SourceFiles O)) (batchId : String) :
    Except Failure (Operation × List (String × Published O)) := do
  let operation ← held.operation
  require (decide (fileIds sources).Nodup &&
    operation.batchFiles[batchId]? == some (sortBy id (fileIds sources)))
    (refused "PUBLICATION_MAP_FILE_WORKSET_MISMATCH")
  let rows ← (fileIds sources).mapM (published held batchId)
  return (operation, rows)

/-- Everything up to the map's snapshot. -/
def opened (arguments : Arguments O) : Except Failure (Opening O) := do
  let operationId ← qualify naming held arguments
  let sources := sortBy SourceFiles.driveLabel arguments.sources
  let (operation, rows) ← receiptRows held sources arguments.batchId
  let profiles ← sources.mapM fun source => Repository.profile <$> drive held source.driveLabel
  require ((held.stage.profile :: held.map.profile :: profiles).all operation.profiles.contains)
    (refused "PUBLICATION_MAP_FILE_PROFILE_UNBOUND")
  let before ← naming.git.snapshot held.map
  return ⟨operationId, operation.digest, sources, rows, before⟩

/-- A file of a source: its receipts are of this file, as the repository has it now. -/
def fileProof (driveLabel : String) (repository : Repository O) (current : Snapshot O)
    (rows : List (String × Published O)) (item : FileSelection O) : Except Failure (Selected O) := do
  let some (_, row) := rows.find? (·.1 == item.fileId) | .error (.raised "KeyError")
  let entry := item.entry
  let intent := row.intent
  let profileDigest := naming.profile repository.profile
  let mismatch : Failure := refused "PUBLICATION_MAP_FILE_RECEIPT_MISMATCH"
  require (intent.entry == entry && intent.storedPath == entry.path &&
    intent.driveLabel == driveLabel &&
    row.committed.bindingDigest == row.digest && row.committed.profileDigest == profileDigest &&
    row.committed.storedPath == entry.path && row.committed.annexKey == intent.annexKey &&
    row.committed.objectPath == intent.objectPath && row.committed.pointerOid == entry.oid &&
    row.catalogTree == row.committed) mismatch
  let saved := row.committed.after
  require (saved.rootIdentity == current.rootIdentity && saved.mountId == current.mountId &&
    saved.entries.contains entry && current.entries.find? (·.path == entry.path) == some entry)
    (refused "PUBLICATION_MAP_FILE_ENTRY_CHANGED")
  let (savedTree, savedParents, _) ← naming.git.readCommit repository.objects saved.headOid
  let savedEntries ← naming.git.readTree repository.objects savedTree
  require (savedTree == saved.treeOid && savedParents == saved.parents && savedEntries == saved.entries)
    (refused "PUBLICATION_MAP_FILE_SAVED_TREE_CHANGED")
  let payload := row.catalogLocal
  require (payload.bindingDigest == row.digest && payload.rootIdentity == repository.profile.rootIdentity &&
    payload.mountId == repository.profile.mountId && payload.storedPath == entry.path &&
    payload.objectPath == intent.objectPath && payload.annexKey == intent.annexKey) mismatch
  let objectPath ← repository.objectPath intent.annexKey
  require (objectPath == intent.objectPath) (refused "PUBLICATION_MAP_FILE_OBJECT_CHANGED")
  let blob ← naming.git.readBlob repository.objects entry.oid (64 * 1024)
  checkCommittedPointer entry.mode blob entry.path intent.annexKey objectPath
  return ⟨item.fileId, row.digest, row.latest, entry, intent.annexKey, profileDigest, current.headOid⟩

/-- `_source_proofs`. -/
def sourceProofs (rows : List (String × Published O)) (source : SourceFiles O) :
    Except Failure (Snapshot O × List (Selected O)) := do
  let repository ← drive held source.driveLabel
  let current ← naming.git.snapshot repository
  require (current.headOid == source.headOid) (refused "PUBLICATION_MAP_FILE_SOURCE_CHANGED")
  let selected ← source.files.mapM (fileProof naming source.driveLabel repository current rows)
  return (current, selected)

end Held

section Plan

variable {O D : Type} [DecidableEq O] [DecidableEq D] (naming : Naming O D)

/-- The union of the map with the entries that are selected, and those that are new. -/
def joinEntry (union : List (TreeEntry O) × List (TreeEntry O)) (entry : TreeEntry O) :
    Except Failure (List (TreeEntry O) × List (TreeEntry O)) :=
  match union.1.find? (·.path == entry.path) with
  | some existing => do
      require (existing == entry) (refused "PUBLICATION_MAP_FILE_PATH_CONFLICT")
      return union
  | none => .ok (union.1 ++ [entry], union.2 ++ [entry])

def entriesOf (sources : List (SourceFiles O)) : List (TreeEntry O) :=
  sources.flatMap fun source => source.files.map FileSelection.entry

/-- What the actions of a plan have in common. -/
def baseOf (held : Held O) (batchId : String) (opening : Opening O) (selection : List (Selected O))
    (observations : List (Snapshot O)) (profiles : List Profile) : Base O :=
  ⟨⟨.batch, batchId, "PREPARED"⟩, naming.profile held.stage.profile, held.stage.profile.root,
    some ⟨opening.operationDigest, selection, opening.before, (held.stage.headRef, held.stage.headOid),
      (profiles.map naming.profile).zip observations⟩⟩

/-- The plan, all but the checks of the stage's index and of the journal. -/
def merge (held : Held O) (batchId : String) (opening : Opening O) : Except Failure (Plan O) := do
  requireNoPayload held
  let proofs ← opening.sources.mapM (sourceProofs naming held opening.rows)
  let selection := sortBy Selected.fileId (proofs.flatMap Prod.snd)
  let selected := entriesOf opening.sources
  require (decide (selected.map TreeEntry.path).Nodup) (refused "PUBLICATION_MAP_FILE_PATH_COLLISION")
  let (union, delta) ← thread joinEntry (opening.before.entries, []) (sortBy TreeEntry.path selected)
  let profiles ← opening.sources.mapM fun source => Repository.profile <$> drive held source.driveLabel
  return {
    operationId := opening.operationId
    operationDigest := opening.operationDigest
    batchId
    sources := opening.sources
    rows := opening.rows
    before := opening.before
    stageHead := (held.stage.headRef, held.stage.headOid)
    selection
    observations := proofs.map Prod.fst
    delta
    expected := sortBy TreeEntry.path union
    base := baseOf naming held batchId opening selection (proofs.map Prod.fst) profiles }

namespace Plan

variable (plan : Plan O)

/-- `action_id`. -/
def actionId (step : String) : String :=
  naming.uuid5 plan.operationId ("map-files:" ++ plan.batchId ++ ":" ++ step)

/-- An index that the stage may have. -/
def admits (index : List (TreeEntry O)) : Bool :=
  index == plan.before.entries || index == plan.expected

/-- An action of this batch's candidate. -/
def isOwn (intent : Intent O) : Bool :=
  intent.base.files.isSome && intent.base.expectedPhase.id == plan.batchId

/-- An action of the stage, if it is of this candidate: it is bound to what the plan is bound to. -/
def recognise (w : World O D) (resume : Bool) (entry : String × Row O D) : Except Failure (Option String) := do
  let record ← readAction naming plan.operationId w entry.1
  if plan.isOwn record.intent then do
    require resume (refused "PUBLICATION_MAP_FILE_RECOVERY_REQUIRED")
    require (record.intent.base == plan.base) (refused "PUBLICATION_MAP_FILE_CONTINUATION_MISMATCH")
    return some entry.1
  else return none

/-- `existing_actions`. -/
def existing (w : World O D) (resume : Bool) : Except Failure (List String) :=
  collect (plan.recognise naming w resume) (w.journal.toList.filter (·.2.kind == .mapStage))

def fetchName (annexUuid : String) : String := "fetch:" ++ annexUuid

/-- The repository that a source has in the annex. -/
def annexUuid (held : Held O) (source : SourceFiles O) : String :=
  ((held.drives[source.driveLabel]?).map fun repository => repository.profile.annexUuid).getD ""

/-- `expected_actions`. -/
def expectedActions (held : Held O) : List String :=
  (plan.sources.map fun source => plan.actionId naming (fetchName (annexUuid held source))) ++
    if plan.delta.isEmpty then []
    else ["index", "tree", "commit"].map (plan.actionId naming)

end Plan

/-- All that a candidate does before its first write: the plan, and the actions that are journalled. -/
def survey (arguments : Arguments O) (w : World O D) : Except Failure (Plan O × List String) := do
  let opening ← opened naming w.held arguments
  let initialIndex ← listed w.scratch.index
  let plan ← merge naming w.held arguments.batchId opening
  require (plan.admits initialIndex) (refused "PUBLICATION_MAP_FILE_STAGE_INDEX_MISMATCH")
  require (apart (plan.expected.map TreeEntry.path)) (refused "PUBLICATION_MAP_FILE_PATH_CONFLICT")
  let known ← plan.existing naming w arguments.resume
  require (known.all (plan.expectedActions naming w.held).contains)
    (refused "PUBLICATION_MAP_FILE_CONTINUATION_MISMATCH")
  require (plan.delta.isEmpty || initialIndex != plan.expected || known.contains (plan.actionId naming "index"))
    (refused "PUBLICATION_MAP_FILE_INDEX_INTENT_MISSING")
  return (plan, known)

end Plan

end Modelark.Publication.MapFiles
