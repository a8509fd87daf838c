import Modelark.Execution.Catalog
import Modelark.Library.Fallible
import Modelark.Library.Table
import Modelark.Proposal.Assembly

/-!
# Stored proposals

A payload is published as one row of `placement_proposals` with its task and file rows, and loaded
again by identifier. Its hash is recomputed from the loaded rows.
-/

namespace Modelark.Proposal

open Modelark.Archive Library Execution

structure ProposalColumns where
  proposalId : String
  planId : String
  basedOnRevision : Int
  lifecycle : Lifecycle
  canonicalHash : String
  mutationKind : String
  mutationArgsJson : String
  serializerVersion : String
  requirementSetHash : Option String
  semanticInputHash : Option String
  selectionBeforeHash : Option String
  selectionAfterHash : Option String
  capacityMode : String
  policyVersion : String
  solverVersion : String
  gateBCode : String
  derivationMode : Option String
  executionConfigHash : Option String
  createdAt : String
  approvedAt : Option String
  supersededAt : Option String

structure StoredTask where
  proposalId : String
  row : TaskRow

def StoredTask.key (task : StoredTask) : String × String :=
  (task.proposalId, task.row.requirementId)

structure StoredFile where
  proposalId : String
  row : FileRow

def StoredFile.key (file : StoredFile) : String × String × String :=
  (file.proposalId, file.row.requirementId, file.row.rfilename)

/-- The proposal tables, with their foreign keys. -/
structure Store where
  plannerRevision : Nat
  plans : List String
  proposals : Table ProposalColumns.proposalId
  tasks : Table StoredTask.key
  files : Table StoredFile.key
  taskLinked : ∀ task ∈ tasks.rows, ∃ row ∈ proposals.rows, row.proposalId = task.proposalId
  fileLinked : ∀ file ∈ files.rows, ∃ task ∈ tasks.rows,
    task.key = (file.proposalId, file.row.requirementId)

namespace Store

/-- The tables before the first proposal. -/
def blank (plannerRevision : Nat) (plans : List String) : Store where
  plannerRevision := plannerRevision
  plans := plans
  proposals := .empty
  tasks := .empty
  files := .empty
  taskLinked _ none := absurd none List.not_mem_nil
  fileLinked _ none := absurd none List.not_mem_nil

variable (store : Store)

/-- The rows of one proposal are inserted; a violated constraint rolls all of them back. -/
def insert? (columns : ProposalColumns) (tasks : List TaskRow) (files : List FileRow) : Option Store :=
  if columns.planId ∈ store.plans then
    match proposed : store.proposals.insert? columns,
      tasked : store.tasks.insertAll? (tasks.map (⟨columns.proposalId, ·⟩)),
      filed : store.files.insertAll? (files.map (⟨columns.proposalId, ·⟩)) with
    | some proposals, some taskTable, some fileTable =>
        if linked : ∀ file ∈ files, ∃ task ∈ tasks, task.requirementId = file.requirementId then
          some
            { plannerRevision := store.plannerRevision
              plans := store.plans
              proposals := proposals
              tasks := taskTable
              files := fileTable
              taskLinked := by
                rw [Table.rows_insertAll? tasked, Table.rows_insert? proposed]
                intro task member
                rcases List.mem_append.mp member with old | new
                · obtain ⟨row, listed, same⟩ := store.taskLinked task old
                  exact ⟨row, List.mem_append_left _ listed, same⟩
                · obtain ⟨row, _, rfl⟩ := List.mem_map.mp new
                  exact ⟨columns, List.mem_append_right _ (List.mem_singleton_self _), rfl⟩
              fileLinked := by
                rw [Table.rows_insertAll? filed, Table.rows_insertAll? tasked]
                intro file member
                rcases List.mem_append.mp member with old | new
                · obtain ⟨task, listed, same⟩ := store.fileLinked file old
                  exact ⟨task, List.mem_append_left _ listed, same⟩
                · obtain ⟨row, among, rfl⟩ := List.mem_map.mp new
                  obtain ⟨task, listed, same⟩ := linked row among
                  refine ⟨⟨columns.proposalId, task⟩,
                    List.mem_append_right _ (List.mem_map_of_mem listed), ?_⟩
                  simp [StoredTask.key, same] }
        else none
    | _, _, _ => none
  else none

/-- `current_draft_ids`. -/
def currentDraftIds : List String :=
  let current := store.proposals.rows.filter fun row =>
    row.lifecycle = .draft ∧ row.basedOnRevision = (store.plannerRevision : Int)
  (sortBy (fun row => toLex (row.createdAt, row.proposalId)) current).map ProposalColumns.proposalId

end Store

inductive PublishRefusal where
  | fillSessionActive
  | invalidDerivationMode (mode : Option String)
  | previewStale (current : Nat) (basedOn : Int)
  | multipleCurrentDrafts (proposalIds : List String)
  | proposalReviewPending (proposalIds : List String) (revision : Nat)
  /-- The database refuses the rows. -/
  | integrity

/-- `value or default`. -/
def orDefault (value default : String) : String :=
  if value = "" then default else value

/-- `_DERIVATION_MODES`. -/
def derivationModes : List String :=
  [Placement.DerivationMode.optimized, .stateTruncated, .canonicalFallback].map
    Placement.DerivationMode.value

section Publish

variable (sha : Digester) (proposalId now : String) (payload : Payload)

/-- The row of a new draft; its hash is computed again. -/
def draftColumns : ProposalColumns :=
  let header := payload.header
  { proposalId := proposalId
    planId := header.planId
    basedOnRevision := header.basedOnRevision
    lifecycle := .draft
    canonicalHash := proposalHash sha header.previewed payload.tasks payload.files
    mutationKind := header.mutationKind
    mutationArgsJson := (Json.arr header.mutationArgs).dumps
    serializerVersion := header.serializerVersion
    requirementSetHash := header.requirementSetHash
    semanticInputHash := header.semanticInputHash
    selectionBeforeHash := header.selectionBeforeHash
    selectionAfterHash := header.selectionAfterHash
    capacityMode := orDefault header.capacityMode "guaranteed"
    policyVersion := orDefault header.policyVersion "1"
    solverVersion := orDefault header.solverVersion "1"
    gateBCode := orDefault header.gateBCode "FEASIBLE"
    derivationMode := header.derivationMode
    executionConfigHash := header.executionConfigHash
    createdAt := now
    approvedAt := none
    supersededAt := none }

def draftFile (row : FileRow) : FileRow :=
  { row with role := orDefault row.role "missing" }

/-- `publish_draft`. -/
def publishDraft (idle : Bool) (store : Store) : Except PublishRefusal Store := do
  require idle .fillSessionActive
  let mode := payload.header.derivationMode
  require (mode.any (· ∈ derivationModes)) (.invalidDerivationMode mode)
  require (payload.header.basedOnRevision = (store.plannerRevision : Int))
    (.previewStale store.plannerRevision payload.header.basedOnRevision)
  match store.currentDraftIds with
  | [] =>
      match store.insert? (draftColumns sha proposalId now payload) payload.tasks
          (payload.files.map draftFile) with
      | some next => .ok next
      | none => .error .integrity
  | [pending] => .error (.proposalReviewPending [pending] store.plannerRevision)
  | pending => .error (.multipleCurrentDrafts pending)

end Publish

/-- A proposal as `load_proposal` returns it. -/
structure Loaded where
  proposalId : String
  lifecycle : Lifecycle
  canonicalHash : String
  createdAt : String
  approvedAt : Option String
  supersededAt : Option String
  header : Header
  tasks : List TaskRow
  files : List FileRow

/-- `tuple(…)` of a JSON value: the items of an array, the keys of a dictionary, the characters of a
    text. -/
def argsOf : Json → Option (List Json)
  | .arr items => some items
  | .obj fields => some ((fields.map Prod.fst).eraseDups.map .str)
  | .str text => some (text.toList.map fun c => .str (String.singleton c))
  | _ => none

def ProposalColumns.header (columns : ProposalColumns) (args : List Json) : Header where
  planId := columns.planId
  basedOnRevision := columns.basedOnRevision
  mutationKind := columns.mutationKind
  mutationArgs := args
  requirementSetHash := columns.requirementSetHash
  semanticInputHash := columns.semanticInputHash
  selectionBeforeHash := columns.selectionBeforeHash
  selectionAfterHash := columns.selectionAfterHash
  capacityMode := columns.capacityMode
  policyVersion := columns.policyVersion
  solverVersion := columns.solverVersion
  serializerVersion := columns.serializerVersion
  gateBCode := columns.gateBCode
  derivationMode := columns.derivationMode
  executionConfigHash := columns.executionConfigHash

/-- The columns of a proposal with its task rows in execution order and its file rows. -/
def ProposalColumns.loaded (columns : ProposalColumns) (args : List Json) (tasks : List TaskRow)
    (files : List FileRow) : Loaded where
  proposalId := columns.proposalId
  lifecycle := columns.lifecycle
  canonicalHash := columns.canonicalHash
  createdAt := columns.createdAt
  approvedAt := columns.approvedAt
  supersededAt := columns.supersededAt
  header := columns.header args
  tasks := sortBy (fun row => toLex (row.orderKey, row.requirementId)) tasks
  files := sortBy FileRow.key files

namespace Store

variable (store : Store) (proposalId : String)

def taskRowsOf : List TaskRow :=
  (store.tasks.rows.filter (·.proposalId == proposalId)).map StoredTask.row

def fileRowsOf : List FileRow :=
  (store.files.rows.filter (·.proposalId == proposalId)).map StoredFile.row

/-- `load_proposal`. -/
def loadProposal : Option Loaded := do
  let columns ← store.proposals.find proposalId
  let value ← Json.loads (orDefault columns.mutationArgsJson "[]")
  let args ← argsOf value
  return columns.loaded args (store.taskRowsOf proposalId) (store.fileRowsOf proposalId)

end Store

/-- The header of stored rows: a configuration is bound only when one is recorded. -/
def Header.stored (header : Header) : List (String × Json) :=
  header.fields ++
    if truthy header.executionConfigHash then
      [("execution_config_hash", .ofText header.executionConfigHash)]
    else []

def Loaded.hash (sha : Digester) (loaded : Loaded) : String :=
  proposalHash sha loaded.header.stored loaded.tasks loaded.files

/-- `hash_stored_proposal`. -/
def hashStoredProposal (sha : Digester) (store : Store) (proposalId : String) : Option String :=
  (store.loadProposal proposalId).map (Loaded.hash sha)

end Modelark.Proposal
