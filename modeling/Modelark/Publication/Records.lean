import Modelark.Library.JsonRecords
import Modelark.Library.Table
import Modelark.Publication.MapPolicy

/-!
# Publication records

The rows that a publication keeps of itself in the catalog: its operation with what it is bound to, the
drives that take part, its batches and their files, and its actions. The catalog has the publication
tables, and nothing in it is `NULL` that a column forbids.
-/

namespace Modelark.Publication

open Library Execution
open Revision (Failure)
open Conversion (refused)

/-- A text with its digest, both or neither being stored. -/
structure SealedText where
  json : String
  digest : String
  deriving Repr, DecidableEq

def canonical (value : Json) : String :=
  value.sortKeys.dumps

/-- `publication_store.digest`. -/
def digest (sha256 : Sha256) (value : Json) : String :=
  sealJson sha256 value

def sealText (sha256 : Sha256) (value : Json) : SealedText :=
  ⟨canonical value, digest sha256 value⟩

/-- `_unseal`. -/
def unsealText (sha256 : Sha256) (text : Option SealedText) : Except Failure Json :=
  match text with
  | none => .error (refused "PUBLICATION_RECORD_UNPROVEN")
  | some text =>
      match Json.loads text.json with
      | some (.obj fields) => do
          require ((Json.obj fields).distinct && canonical (.obj fields) == text.json &&
            digest sha256 (.obj fields) == text.digest) (refused "PUBLICATION_RECORD_UNPROVEN")
          return .obj fields
      | _ => .error (refused "PUBLICATION_RECORD_UNPROVEN")

/-- Two values are the same when their texts are. -/
def same (left right : Json) : Bool :=
  left.dumps == right.dumps

theorem same_iff {left right : Json} : same left right = true ↔ left = right := by
  rw [same, beq_iff_eq, Json.dumps_injective.eq_iff]

/-- `record.get(key) == value`. -/
def holds (record : Json) (key : String) (value : Json) : Bool :=
  (record.get? key).any fun found => same found value

/-- The shape that `str(uuid.UUID(…))` has. -/
def isCanonicalUuid (value : String) : Bool :=
  value.toList.length == 36 && (List.range 36).all fun place =>
    (value.toList[place]?).any fun c =>
      if [8, 13, 18, 23].contains place then c == '-' else Modelark.Archive.isHex c

/-- `canonical_uuid`. -/
def canonicalUuid (value : String) : Except Failure Unit :=
  require (isCanonicalUuid value) (refused "PUBLICATION_UUID_INVALID")

/-- `_require_digest`. -/
def requireDigest (value : String) : Except Failure Unit :=
  require (Conversion.isDigest value) (refused "PUBLICATION_DIGEST_INVALID")

/-- `PROTOCOL`. -/
def protocol : Nat := 1

inductive OperationKind where
  | fill
  | replica
  | registration
  | maintenance
  | returningClone
  deriving Repr, DecidableEq

def OperationKind.text : OperationKind → String
  | .fill => "fill"
  | .replica => "replica"
  | .registration => "registration"
  | .maintenance => "maintenance"
  | .returningClone => "returning_clone"

inductive OperationState where
  | prepared
  | closed
  deriving Repr, DecidableEq

structure OperationRow where
  operationId : String
  libraryId : String
  kind : OperationKind
  binding : SealedText
  state : OperationState
  createdRevision : Option Nat
  closedRevision : Option Nat
  closure : Option String
  lastRevision : Option Nat
  deriving Repr, DecidableEq

/-- A drive with the dirty generation that takes part. -/
structure Participant where
  driveLabel : String
  annexUuid : String
  identityEpoch : Nat
  generation : Nat
  identityFingerprint : Option String
  owner : Option (String × Nat)
  deriving Repr, DecidableEq

def Participant.json (participant : Participant) : Json :=
  .arr [.str participant.driveLabel, .str participant.annexUuid, .int participant.identityEpoch,
    .int participant.generation, .ofText participant.identityFingerprint,
    .ofText (participant.owner.map Prod.fst), .ofInt (participant.owner.map fun owner => (owner.2 : Int))]

/-- The checks of `publication_participants`. -/
def Participant.storable (participant : Participant) : Bool :=
  0 < participant.identityEpoch && 0 < participant.generation &&
    participant.identityFingerprint.isSome

structure ParticipantRow where
  operationId : String
  participant : Participant
  deriving Repr, DecidableEq

def ParticipantRow.key (row : ParticipantRow) : String × String :=
  (row.operationId, row.participant.driveLabel)

inductive FilePhase where
  | prepared
  | localVerified
  | treeVerified
  | catalogPublished
  deriving Repr, DecidableEq

namespace FilePhase

def text : FilePhase → String
  | .prepared => "PREPARED"
  | .localVerified => "LOCAL_VERIFIED"
  | .treeVerified => "TREE_VERIFIED"
  | .catalogPublished => "CATALOG_PUBLISHED"

/-- `phases.index`. -/
def index : FilePhase → Nat
  | .prepared => 0
  | .localVerified => 1
  | .treeVerified => 2
  | .catalogPublished => 3

/-- `_FILE_PHASES`: the phase that has to come before. -/
def expected : FilePhase → Option FilePhase
  | .prepared => none
  | .localVerified => some .prepared
  | .treeVerified => some .localVerified
  | .catalogPublished => some .treeVerified

/-- The phases that have a proof, in their order. -/
def proven : List FilePhase :=
  [.localVerified, .treeVerified, .catalogPublished]

end FilePhase

structure FileRow where
  fileId : String
  operationId : String
  batchId : String
  intent : SealedText
  phase : FilePhase
  localProof : Option SealedText
  treeProof : Option SealedText
  catalogProof : Option SealedText
  committedRevision : Option Nat
  deriving Repr, DecidableEq

namespace FileRow

/-- The columns of the proof of a phase. -/
def proof (row : FileRow) : FilePhase → Option SealedText
  | .prepared => none
  | .localVerified => row.localProof
  | .treeVerified => row.treeProof
  | .catalogPublished => row.catalogProof

/-- The row in its next phase, with the proof of it. -/
def advanced (row : FileRow) (phase : FilePhase) (proof : SealedText) : FileRow :=
  match phase with
  | .prepared => { row with phase }
  | .localVerified => { row with phase, localProof := some proof }
  | .treeVerified => { row with phase, treeProof := some proof }
  | .catalogPublished => { row with phase, catalogProof := some proof }

variable (row : FileRow) (phase : FilePhase) (proof : SealedText)

@[simp] theorem advanced_fileId : (row.advanced phase proof).fileId = row.fileId := by
  cases phase <;> rfl

@[simp] theorem advanced_operationId : (row.advanced phase proof).operationId = row.operationId := by
  cases phase <;> rfl

@[simp] theorem advanced_batchId : (row.advanced phase proof).batchId = row.batchId := by
  cases phase <;> rfl

@[simp] theorem advanced_intent : (row.advanced phase proof).intent = row.intent := by
  cases phase <;> rfl

@[simp] theorem advanced_phase : (row.advanced phase proof).phase = phase := by
  cases phase <;> rfl

@[simp] theorem advanced_committedRevision :
    (row.advanced phase proof).committedRevision = row.committedRevision := by
  cases phase <;> rfl

end FileRow

inductive BatchPhase where
  | prepared
  | propagated
  deriving Repr, DecidableEq

def BatchPhase.text : BatchPhase → String
  | .prepared => "PREPARED"
  | .propagated => "PROPAGATED"

structure BatchRow where
  operationId : String
  batchId : String
  intent : SealedText
  phase : BatchPhase
  mapProof : Option SealedText
  committedRevision : Option Nat
  deriving Repr, DecidableEq

def BatchRow.key (row : BatchRow) : String × String := (row.operationId, row.batchId)

/-- `KINDS`. -/
inductive ActionKind where
  | policySetup
  | payloadInstall
  | annexAdd
  | annexMetadata
  | fileCommit
  | mapStage
  | mapRefs
  | mapCheckout
  | stagingRelease
  | stagingDirectory
  deriving Repr, DecidableEq

def ActionKind.text : ActionKind → String
  | .policySetup => "policy_setup"
  | .payloadInstall => "payload_install"
  | .annexAdd => "annex_add"
  | .annexMetadata => "annex_metadata"
  | .fileCommit => "file_commit"
  | .mapStage => "map_stage"
  | .mapRefs => "map_refs"
  | .mapCheckout => "map_checkout"
  | .stagingRelease => "staging_release"
  | .stagingDirectory => "staging_directory"

inductive ActionStatus where
  | prepared
  | verified
  deriving Repr, DecidableEq

structure ActionRow where
  operationId : String
  actionId : String
  kind : ActionKind
  intent : SealedText
  status : ActionStatus
  preparedRevision : Option Nat
  verifiedRevision : Option Nat
  receipt : Option SealedText
  deriving Repr, DecidableEq

def ActionRow.key (row : ActionRow) : String × String := (row.operationId, row.actionId)

structure CloneObligation where
  annexUuid : String
  operationId : String
  pending : Bool
  deriving Repr, DecidableEq

/-- The publication tables. -/
structure Records where
  /-- `publication_library`: the library and its map. -/
  library : String × String
  operations : Table OperationRow.operationId
  participants : Table ParticipantRow.key
  files : Table FileRow.fileId
  batches : Table BatchRow.key
  actions : Table ActionRow.key
  cloneObligations : Table CloneObligation.annexUuid

/-- `_install_schema`. -/
def Records.installed (library : String × String) : Records :=
  ⟨library, .empty, .empty, .empty, .empty, .empty, .empty⟩

/-- A catalog: its drives with their generations, the publication tables, and the tables that no
    publication reads but those that are told to. -/
structure Catalog (R : Type) where
  fleet : Fleet
  records : Records
  rest : R

namespace Catalog

variable {R : Type} (c : Catalog R)

/-- `_revision`. -/
abbrev revision : Nat := c.fleet.plannerRevision

def setOperations (operations : Table OperationRow.operationId) : Catalog R :=
  { c with records := { c.records with operations } }

def setFiles (files : Table FileRow.fileId) : Catalog R :=
  { c with records := { c.records with files } }

def setBatches (batches : Table BatchRow.key) : Catalog R :=
  { c with records := { c.records with batches } }

def setActions (actions : Table ActionRow.key) : Catalog R :=
  { c with records := { c.records with actions } }

end Catalog

end Modelark.Publication
