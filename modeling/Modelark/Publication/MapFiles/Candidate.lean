import Modelark.Publication.MapFiles.Survey

/-!
# Candidates of the map's files

The steps by which the selected files come onto the stage: their objects are fetched, the index is brought
up to them, and a tree and a commit are made of it. Every step is journalled before it is carried out and
verified after, with an intent that names the receipts of the steps before it.
-/

namespace Modelark.Publication.MapFiles

open Library
open Revision (Failure)
open Conversion (refused)

variable {O D : Type} [DecidableEq O] [DecidableEq D] (naming : Naming O D)

/-- A step of a candidate. -/
structure Step (O D : Type) where
  name : String
  command : Command O
  stdin : List (TreeEntry O)
  /-- What is required before the step is prepared. -/
  ready : Except Failure Unit
  /-- Whether the native command is still to be run. -/
  needed : Record O D → World O D → Except Failure Bool
  /-- The native command, with the line that it prints. -/
  native : Record O D → World O D → Except Failure (World O D × Option O)
  /-- What is observed then. -/
  proof : Record O D → Option O → World O D → Except Failure (Receipt O)

/-- A file's blob on the stage is the one of its source. -/
def checkBlob (objects : List (GitObject O)) (repository : Repository O) (item : FileSelection O) :
    Except Failure Unit := do
  let staged ← naming.git.readBlob objects item.entry.oid (64 * 1024)
  let sourced ← naming.git.readBlob repository.objects item.entry.oid (64 * 1024)
  require (staged == sourced) (refused "PUBLICATION_MAP_FILE_FETCH_MISMATCH")

/-- What a command has printed, or what its receipt says of it. -/
def printed (of : Receipt O → Except Failure O) (record : Record O D) (output : Option O) : Except Failure O :=
  match record.receipt, output with
  | some (receipt, _), _ => of receipt
  | none, some oid => .ok oid
  | none, none => .error (refused "PUBLICATION_GIT_FRAMING_INVALID")

namespace Plan

variable (plan : Plan O)

/-- `unchanged`. -/
def unchanged (held : Held O) : Except Failure Unit := do
  requireStage naming held
  requireNoPayload held
  let before ← naming.git.snapshot held.map
  require (before == plan.before && (held.stage.headRef, held.stage.headOid) == plan.stageHead)
    (refused "PUBLICATION_MAP_FILE_BASELINE_CHANGED")
  let observations ← plan.sources.mapM fun source => do
    naming.git.snapshot (← drive held source.driveLabel)
  require (observations == plan.observations) (refused "PUBLICATION_MAP_FILE_SOURCE_CHANGED")
  let (_, rows) ← receiptRows held plan.sources plan.batchId
  require (rows == plan.rows) (refused "PUBLICATION_MAP_FILE_RECEIPT_CHANGED")

/-- The intent of a step, after the receipts that there are so far. -/
def intent (step : Step O D) (after : List (String × String)) : Intent O :=
  ⟨plan.base, step.command, naming.stdin step.stdin, after⟩

/-- `_run_action` and `_fetch_action`: the command that a pending action intends, on the stage. -/
def runAction (command : Command O) (stdin : List (TreeEntry O)) (admitted : Held O → Except Failure Unit)
    (act : Scratch O → Except Failure (Scratch O × Option O)) (record : Record O D) (w : World O D) :
    Except Failure (World O D × Option O) := do
  let current ← readAction naming plan.operationId w record.actionId
  require (current.receipt.isNone && current.intent.base.profileDigest == naming.profile w.held.stage.profile &&
    current.intent.base.root == w.held.stage.profile.root && current.intent.command == command &&
    current.intent.stdinDigest == naming.stdin stdin) (refused "PUBLICATION_COMMAND_INTENT_MISMATCH")
  require (current.kind == .mapStage) (refused "PUBLICATION_COMMAND_UNQUALIFIED")
  admitted w.held
  let (scratch, output) ← act w.scratch
  return ({ w with scratch }, output)

def quarantineRef (annexUuid : String) : String :=
  "refs/modelark/quarantine-files/" ++ plan.operationId ++ "/" ++ plan.batchId ++ "/" ++ annexUuid

def fetchStep (source : SourceFiles O) (repository : Repository O) : Step O D :=
  let ref := plan.quarantineRef repository.profile.annexUuid
  let command := Command.fetchLocalObject (naming.profile repository.profile) source.headOid ref
  { name := fetchName repository.profile.annexUuid
    command
    stdin := []
    ready := .ok ()
    needed := fun record w => .ok (w.scratch.refs[ref]?.isNone && record.receipt.isNone)
    native := plan.runAction naming command [] (fun _ => .ok ()) fun scratch => do
      let fetched ← naming.git.fetch scratch repository source.headOid ref
      return (fetched, none)
    proof := fun _ _ w => do
      require (w.scratch.refs[ref]? == some source.headOid) (refused "PUBLICATION_MAP_FILE_FETCH_MISMATCH")
      thread (fun _ item => checkBlob naming w.scratch.objects repository item) () source.files
      let index ← listed w.scratch.index
      require (plan.admits index) (refused "PUBLICATION_MAP_FILE_STAGE_INDEX_MISMATCH")
      return .fetched ref source.headOid (naming.selection plan.selection) }

/-- The bytes of `mode oid\tpath\0` for every new entry. -/
def stdinSize : Nat :=
  (plan.delta.map fun entry => entry.mode.text.utf8ByteSize + entry.path.utf8ByteSize + 43).sum

/-- What `_run_action` admits to an index. -/
def admittedRows (held : Held O) : Except Failure Unit := do
  requireStage naming held
  require (!plan.delta.isEmpty && plan.delta.all (fun entry => entry.mode != .executable) &&
    decide (plan.delta.map TreeEntry.path).Nodup) (refused "PUBLICATION_COMMAND_INPUT_INVALID")

def indexStep : Step O D :=
  { name := "index"
    command := .updateIndex
    stdin := plan.delta
    ready := require (decide (plan.stdinSize ≤ 1024 * 1024)) (refused "PUBLICATION_MAP_FILE_DELTA_LIMIT")
    needed := fun record w => do
      let index ← listed w.scratch.index
      require (plan.admits index) (refused "PUBLICATION_MAP_FILE_STAGE_INDEX_MISMATCH")
      return index != plan.expected && record.receipt.isNone
    native := plan.runAction naming .updateIndex plan.delta (plan.admittedRows naming) fun scratch => do
      let updated ← naming.git.updateIndex scratch plan.delta
      return (updated, none)
    proof := fun _ _ w => do
      let index ← listed w.scratch.index
      require (index == plan.expected) (refused "PUBLICATION_MAP_FILE_STAGE_INDEX_MISMATCH")
      return .indexed plan.expected }

def treeStep : Step O D :=
  { name := "tree"
    command := .writeTree
    stdin := []
    ready := .ok ()
    needed := fun record _ => .ok record.receipt.isNone
    native := plan.runAction naming .writeTree [] (requireStage naming) fun scratch => do
      let (written, tree) ← naming.git.writeTree scratch
      return (written, some tree)
    proof := fun record output w => do
      let tree ← printed Receipt.tree record output
      let entries ← naming.git.readTree w.scratch.objects tree
      let index ← listed w.scratch.index
      require (entries == plan.expected && index == plan.expected)
        (refused "PUBLICATION_MAP_FILE_TREE_MISMATCH")
      return .treed tree plan.expected }

def message : String := "ModelArk map publication " ++ plan.operationId

def commitStep (newTree : O) : Step O D :=
  let command := Command.commitTree newTree plan.before.headOid plan.message
  { name := "commit"
    command
    stdin := []
    ready := .ok ()
    needed := fun record _ => .ok record.receipt.isNone
    native := plan.runAction naming command [] (requireStage naming) fun scratch => do
      let (written, head) ← naming.git.commitTree scratch newTree plan.before.headOid plan.message
      return (written, some head)
    proof := fun record output w => do
      let head ← printed Receipt.head record output
      let (tree, parents, body) ← naming.git.readCommit w.scratch.objects head
      let index ← listed w.scratch.index
      require (tree == newTree && parents == [plan.before.headOid] && body == plan.message ++ "\n" &&
        index == plan.expected) (refused "PUBLICATION_MAP_FILE_COMMIT_MISMATCH")
      return .committed head newTree plan.before.headOid }

/-- The fetches of the sources, and what brings the index and a tree up to them. -/
def steps (held : Held O) : Except Failure (List (Step O D)) := do
  let fetches ← plan.sources.mapM fun source => do
    let repository ← drive held source.driveLabel
    return plan.fetchStep naming source repository
  return fetches ++ if plan.delta.isEmpty then [] else [plan.indexStep naming, plan.treeStep naming]

end Plan

section Journalled

variable (plan : Plan O) (known : List String)

/-- `prepare`: the action of a step that is journalled already is only recognised. -/
def prepare (step : Step O D) (after : List (String × String)) :
    Program (World O D) Failure (Record O D) := do
  Program.look fun w => plan.unchanged naming w.held
  let identifier := plan.actionId naming step.name
  let intent := plan.intent naming step after
  if known.contains identifier then
    Program.look fun w => do
      let record ← readAction naming plan.operationId w identifier
      require (record.intent == intent && record.kind == .mapStage)
        (refused "PUBLICATION_MAP_FILE_CONTINUATION_MISMATCH")
      return record
  else do
    Program.atomic (prepareAction naming plan.operationId identifier .mapStage intent)
    Program.look fun w => readAction naming plan.operationId w identifier

/-- What a step does between its intent and its receipt. -/
def perform (step : Step O D) (record : Record O D) : Program (World O D) Failure (Receipt O) := do
  let due ← Program.look (step.needed record)
  let output ← if due then Program.atomic (step.native record) else pure none
  Program.look (step.proof record output)

/-- `verified`: the action with the digest of its receipt. -/
def verified (record : Record O D) (proof : Receipt O) : Program (World O D) Failure (String × String) := do
  Program.look fun w => plan.unchanged naming w.held
  match record.receipt with
  | some (receipt, _) =>
      Program.lift (require (receipt == proof) (refused "PUBLICATION_MAP_FILE_RECEIPT_CHANGED"))
  | none => Program.atomic (verifyAction naming plan.operationId record.actionId record.intentDigest proof)
  let record ← Program.look fun w => readAction naming plan.operationId w record.actionId
  return (record.actionId, (record.receipt.map Prod.snd).getD "")

def journalled (step : Step O D) (after : List (String × String)) :
    Program (World O D) Failure ((String × String) × Receipt O) := do
  Program.lift step.ready
  let record ← prepare naming plan known step after
  let proof ← perform step record
  let receipt ← verified naming plan record proof
  return (receipt, proof)

/-- Steps one after another, with all receipts and the last proof. -/
def carry : List (Step O D) → List (String × String) → Option (Receipt O) →
    Program (World O D) Failure (List (String × String) × Option (Receipt O))
  | [], receipts, last => pure (receipts, last)
  | step :: steps, receipts, _ =>
      (journalled naming plan known step receipts).bind fun done =>
        carry steps (receipts ++ [done.1]) (some done.2)

/-- The tree that was verified last. -/
def lastTree : Option (Receipt O) → Except Failure O
  | some proof => proof.tree
  | none => .error (.raised "UnboundLocalError")

/-- The new tree and the new head: those of the map when nothing is new. -/
def conclude (receipts : List (String × String)) (last : Option (Receipt O)) :
    Program (World O D) Failure (O × O × List (String × String)) :=
  if plan.delta.isEmpty then pure (plan.before.treeOid, plan.before.headOid, receipts)
  else do
    let newTree ← Program.lift (lastTree last)
    let done ← journalled naming plan known (plan.commitStep naming newTree) receipts
    let newHead ← Program.lift done.2.head
    return (newTree, newHead, receipts ++ [done.1])

end Journalled

/-- `FileCandidate`. -/
structure FileCandidate (O : Type) where
  operationId : String
  batchId : String
  bindingDigest : String
  stageProfileDigest : String
  before : Snapshot O
  newHead : O
  newTree : O
  entries : List (TreeEntry O)
  delta : List (TreeEntry O)
  selection : List (Selected O)
  actionReceipts : List (String × String)
  deriving DecidableEq

/-- The last look at the stage, for the new tree, the new head and the receipts. -/
def closing (plan : Plan O) (concluded : O × O × List (String × String)) (w : World O D) :
    Except Failure (FileCandidate O) := do
  plan.unchanged naming w.held
  let index ← listed w.scratch.index
  require (index == plan.expected) (refused "PUBLICATION_MAP_FILE_STAGE_INDEX_MISMATCH")
  return {
    operationId := plan.operationId
    batchId := plan.batchId
    bindingDigest := plan.operationDigest
    stageProfileDigest := naming.profile w.held.stage.profile
    before := plan.before
    newHead := concluded.2.1
    newTree := concluded.1
    entries := plan.expected
    delta := plan.delta
    selection := plan.selection
    actionReceipts := concluded.2.2 }

/-- The steps of a plan, and what is returned. -/
def proceed (plan : Plan O) (known : List String) : Program (World O D) Failure (FileCandidate O) := do
  let steps ← Program.look fun w => plan.steps naming w.held
  let carried ← carry naming plan known steps [] none
  let concluded ← conclude naming plan known carried.1 carried.2
  Program.look (closing naming plan concluded)

def candidate (arguments : Arguments O) : Program (World O D) Failure (FileCandidate O) := do
  let found ← Program.look (survey naming arguments)
  proceed naming found.1 found.2

end Modelark.Publication.MapFiles
