import Modelark.Library.Interruptions
import Modelark.Publication.MapFiles.Objects
import Modelark.Publication.Records

/-!
# The journal of the map's files

The actions of an operation, each stored with its whole intent before it is carried out and verified with a
receipt after it was observed. An intent names the receipts of the actions that it depends on.
-/

namespace Modelark.Publication.MapFiles

open Library
open Revision (Failure)
open Conversion (refused)

structure Root where
  rootIdentity : Nat × Nat × Nat
  mountId : Nat
  annexUuid : String
  deriving Repr, DecidableEq

def Profile.root (profile : Profile) : Root :=
  ⟨profile.rootIdentity, profile.mountId, profile.annexUuid⟩

inductive Entity where
  | operation
  | file
  | batch
  deriving Repr, DecidableEq

structure ExpectedPhase where
  entity : Entity
  id : String
  phase : String
  deriving Repr, DecidableEq

/-- What is selected of a file, with the seals of its publication. -/
structure Selected (O : Type) where
  fileId : String
  fileDigest : String
  catalogReceiptDigest : String
  entry : TreeEntry O
  annexKey : String
  sourceProfileDigest : String
  sourceHead : O
  deriving DecidableEq

/-- What the intents of a candidate of files are bound to. -/
structure FilesBase (O : Type) where
  bindingDigest : String
  selection : List (Selected O)
  before : Snapshot O
  stageHead : String × O
  sources : List (String × Snapshot O)
  deriving DecidableEq

/-- What the actions of one purpose have in common. -/
structure Base (O : Type) where
  expectedPhase : ExpectedPhase
  profileDigest : String
  root : Root
  /-- `purpose`, with what it is bound to. -/
  files : Option (FilesBase O)
  deriving DecidableEq

inductive Command (O : Type) where
  | fetchLocalObject (profileDigest : String) (oid : O) (ref : String)
  | updateIndex
  | writeTree
  | commitTree (tree parent : O) (message : String)
  | other (argv : List String)
  deriving DecidableEq

structure Intent (O : Type) where
  base : Base O
  command : Command O
  stdinDigest : String
  after : List (String × String)
  deriving DecidableEq

structure Frozen (O : Type) where
  operationId : String
  operationDigest : String
  actionId : String
  kind : ActionKind
  intent : Intent O
  deriving DecidableEq

/-- What was observed of an action that was carried out. -/
inductive Receipt (O : Type) where
  | fetched (ref : String) (head : O) (selectionDigest : String)
  | indexed (entries : List (TreeEntry O))
  | treed (tree : O) (entries : List (TreeEntry O))
  | committed (head tree parent : O)
  | other (text : String)
  deriving DecidableEq

/-- The tree of a receipt. -/
def Receipt.tree {O : Type} : Receipt O → Except Failure O
  | .treed tree _ | .committed _ tree _ => .ok tree
  | _ => .error (.raised "KeyError: 'tree'")

/-- The head of a receipt. -/
def Receipt.head {O : Type} : Receipt O → Except Failure O
  | .fetched _ head _ | .committed head _ _ => .ok head
  | _ => .error (.raised "KeyError: 'head'")

structure Sealed (O D : Type) where
  operationDigest : String
  actionId : String
  intentDigest : D
  receipt : Receipt O
  deriving DecidableEq

/-- Names and digests, and the moments of commits. -/
structure Naming (O D : Type) where
  git : Git O
  uuid5 : String → String → String
  profile : Profile → String
  selection : List (Selected O) → String
  stdin : List (TreeEntry O) → String
  intent : Frozen O → D
  receipt : Sealed O D → String

inductive Status (O D : Type) where
  | prepared
  | verified (frozen : Sealed O D) (digest : String) (revision : Nat)
  deriving DecidableEq

structure Row (O D : Type) where
  kind : ActionKind
  frozen : Frozen O
  intentDigest : D
  preparedRevision : Nat
  status : Status O D
  deriving DecidableEq

/-- What an operation is bound to. -/
structure Operation where
  digest : String
  batchFiles : Dict String (List String)
  profiles : List Profile

/-- The committed tree, as the receipt of a file has it. -/
structure TreeProof (O : Type) where
  bindingDigest : String
  profileDigest : String
  storedPath : String
  annexKey : String
  objectPath : String
  pointerOid : O
  after : Snapshot O
  deriving DecidableEq

/-- The stored payload, as the receipt of a file has it. -/
structure LocalProof where
  bindingDigest : String
  rootIdentity : Nat × Nat × Nat
  mountId : Nat
  storedPath : String
  objectPath : String
  annexKey : String
  deriving Repr, DecidableEq

structure FileIntent (O : Type) where
  entry : TreeEntry O
  storedPath : String
  driveLabel : String
  annexKey : String
  objectPath : String
  deriving DecidableEq

/-- A file of an operation, with the proofs of a published one. -/
structure FileRow (O : Type) where
  batchId : String
  phase : FilePhase
  digest : String
  intent : FileIntent O
  /-- The tree that was verified, and the tree and the payload of the catalog's proof. -/
  proofs : Option (TreeProof O × TreeProof O × LocalProof)
  /-- The digest of the last proof. -/
  latest : String
  deriving DecidableEq

/-- The stage but for what native commands change. -/
structure Stage (O : Type) where
  profile : Profile
  /-- The profile for which the stage was issued. -/
  issued : Option String
  headRef : String
  headOid : O
  hasPayload : Bool

/-- What no step of a candidate changes. -/
structure Held (O : Type) where
  operationId : Option String
  /-- `_load_bound_operation`. -/
  operation : Except Failure Operation
  /-- The drives of the scope. -/
  identities : List String
  filePhases : Dict String String
  batchPhases : Dict String String
  /-- `_file_chain` of a file. -/
  files : String → Except Failure (FileRow O)
  map : Repository O
  mapLabel : Option String
  drives : Dict String (Repository O)
  stage : Stage O

structure World (O D : Type) where
  held : Held O
  scratch : Scratch O
  journal : Dict String (Row O D)
  revision : Nat

/-- An action as it is read, with its receipt and the digest of that once it is verified. -/
structure Record (O D : Type) where
  actionId : String
  kind : ActionKind
  intent : Intent O
  intentDigest : D
  receipt : Option (Receipt O × String)

section Actions

variable {O D : Type} [DecidableEq O] [DecidableEq D] (naming : Naming O D) (operationId : String)

/-- A row that is bound to its operation and to itself, with its receipt. -/
def readRow (actionId operationDigest : String) (revision : Nat) (row : Row O D) :
    Except Failure (Record O D) := do
  require (naming.intent row.frozen == row.intentDigest) (refused "PUBLICATION_RECORD_UNPROVEN")
  require (row.frozen.operationDigest == operationDigest && row.frozen.operationId == operationId &&
    row.frozen.actionId == actionId && row.frozen.kind == row.kind)
    (refused "PUBLICATION_ACTION_BINDING_CHANGED")
  require (0 < row.preparedRevision && row.preparedRevision ≤ revision)
    (refused "PUBLICATION_ACTION_REVISION_UNPROVEN")
  match row.status with
  | .prepared => return ⟨actionId, row.kind, row.frozen.intent, row.intentDigest, none⟩
  | .verified frozen digest verifiedRevision => do
      require (naming.receipt frozen == digest) (refused "PUBLICATION_RECORD_UNPROVEN")
      require (row.preparedRevision < verifiedRevision && verifiedRevision ≤ revision &&
        frozen.operationDigest == operationDigest && frozen.actionId == actionId &&
        frozen.intentDigest == row.intentDigest) (refused "PUBLICATION_ACTION_RECEIPT_UNPROVEN")
      return ⟨actionId, row.kind, row.frozen.intent, row.intentDigest, some (frozen.receipt, digest)⟩

/-- `_load`. -/
def load (w : World O D) (actionId operationDigest : String) : Except Failure (Record O D) :=
  match w.journal[actionId]? with
  | none => .error (refused "PUBLICATION_ACTION_MISSING")
  | some row => readRow naming operationId actionId operationDigest w.revision row

/-- `_phase`. -/
def checkPhase (held : Held O) (expected : ExpectedPhase) (operation : Operation) : Except Failure Unit :=
  let changed : Failure := refused "PUBLICATION_ACTION_PHASE_CHANGED"
  match expected.entity with
  | .operation => require (expected.id == operationId && expected.phase == "PREPARED") changed
  | .file => do
      require (operation.batchFiles.toList.any fun batch => batch.2.contains expected.id)
        (refused "PUBLICATION_ACTION_PHASE_UNSELECTED")
      require (held.filePhases[expected.id]? == some expected.phase) changed
  | .batch => do
      require (operation.batchFiles.contains expected.id) (refused "PUBLICATION_ACTION_PHASE_UNSELECTED")
      require (held.batchPhases[expected.id]? == some expected.phase) changed

/-- An action that another one depends on, which is not named before. -/
def dependency (w : World O D) (operationDigest : String) (seen : List String)
    (after : String × String) : Except Failure (List String) := do
  require (!seen.contains after.1) (refused "PUBLICATION_ACTION_DEPENDENCIES_INVALID")
  let prior ← load naming operationId w after.1 operationDigest
  require (prior.receipt.any fun receipt => receipt.2 == after.2)
    (refused "PUBLICATION_ACTION_DEPENDENCY_UNVERIFIED")
  return after.1 :: seen

/-- `_validate_intent`. -/
def validateIntent (w : World O D) (intent : Intent O) (operation : Operation) (inPhase : Bool) :
    Except Failure Unit := do
  require (!operation.profiles.isEmpty) (refused "PUBLICATION_ACTION_PROFILES_REQUIRED")
  let some profile := operation.profiles.find? fun profile =>
    naming.profile profile == intent.base.profileDigest
    | .error (refused "PUBLICATION_ACTION_PROFILE_UNSELECTED")
  require (profile.root == intent.base.root) (refused "PUBLICATION_ACTION_ROOT_CHANGED")
  let _ ← thread (dependency naming operationId w operation.digest) [] intent.after
  if inPhase then checkPhase operationId w.held intent.base.expectedPhase operation else return ()

/-- `read`. -/
def readAction (w : World O D) (actionId : String) : Except Failure (Record O D) := do
  let operation ← w.held.operation
  let record ← load naming operationId w actionId operation.digest
  validateIntent naming operationId w record.intent operation record.receipt.isNone
  return record

/-- `prepare`, in a transaction of its own. -/
def prepareAction (actionId : String) (kind : ActionKind) (intent : Intent O) (w : World O D) :
    Except Failure (World O D × Unit) := do
  let operation ← w.held.operation
  let frozen : Frozen O := ⟨operationId, operation.digest, actionId, kind, intent⟩
  if w.journal.contains actionId then do
    let record ← load naming operationId w actionId operation.digest
    require (record.intentDigest == naming.intent frozen) (refused "PUBLICATION_ACTION_PREPARE_CONFLICT")
    validateIntent naming operationId w intent operation record.receipt.isNone
    return (w, ())
  else do
    validateIntent naming operationId w intent operation true
    let row : Row O D := ⟨kind, frozen, naming.intent frozen, w.revision + 1, .prepared⟩
    return ({ w with journal := w.journal.insert actionId row, revision := w.revision + 1 }, ())

/-- `verify`, in a transaction of its own. -/
def verifyAction (actionId : String) (intentDigest : D) (receipt : Receipt O) (w : World O D) :
    Except Failure (World O D × Unit) := do
  let operation ← w.held.operation
  let record ← load naming operationId w actionId operation.digest
  require (record.intentDigest == intentDigest) (refused "PUBLICATION_ACTION_BINDING_CHANGED")
  let frozen : Sealed O D := ⟨operation.digest, actionId, intentDigest, receipt⟩
  validateIntent naming operationId w record.intent operation record.receipt.isNone
  match record.receipt, w.journal[actionId]? with
  | some verified, _ => do
      require (verified.2 == naming.receipt frozen) (refused "PUBLICATION_ACTION_VERIFY_CONFLICT")
      return (w, ())
  | none, some row =>
      let status := Status.verified frozen (naming.receipt frozen) (w.revision + 1)
      return ({ w with
        journal := w.journal.insert actionId { row with status }, revision := w.revision + 1 }, ())
  | none, none => .error (refused "PUBLICATION_ACTION_VERIFY_CONFLICT")

end Actions

end Modelark.Publication.MapFiles
