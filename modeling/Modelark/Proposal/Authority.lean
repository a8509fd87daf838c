import Modelark.Library.Immediate
import Modelark.Proposal.Stored

/-!
# Writers of the approval

The approved proposal is recorded twice: in the lifecycle of its row and in the pointer of the planner
state. These are the transactions that write either of them, or the revision that proposals are based
on. What they read of the rest of the catalog is of an arbitrary type, and so is the answer of every
check outside this model.
-/

namespace Modelark.Proposal

open Library Execution

/-- The catalog as far as approval depends on it. -/
structure Authority (φ : Type) where
  store : Store
  activeApprovedProposalId : Option String
  facts : φ

inductive WriteRefusal where
  | fillSessionActive
  | publicationPending
  | publish (refused : PublishRefusal)
  | proposalNotFound
  | proposalNotDraft (lifecycle : Lifecycle)
  | proposalNotFeasible (gateB : String)
  | mutationMismatch (kind : String)
  | previewStale (current : Nat) (basedOn : Int)
  | proposalPlanInactive (planId : String)
  | multipleCurrentDrafts (proposalIds : List String)
  | approvedInputChanged
  | proposalHashMismatch (stored : String) (recomputed : Option String)
  | exactAssignmentRejected
  | adoptSelectionChanged
  | serialRepairUnproven
  | metadataPreviewStale
  | driveLossPreviewStale (current : Nat)
  | registrationPreviewStale (current : Nat)
  /-- What else an operation raises. -/
  | raised (code : String)

/-- A row with a new lifecycle and the time of the change. -/
def ProposalColumns.marked (lifecycle : Lifecycle) (now : String) (row : ProposalColumns) :
    ProposalColumns :=
  match lifecycle with
  | .superseded => { row with lifecycle := .superseded, supersededAt := some now }
  | .approved => { row with lifecycle := .approved, approvedAt := some now }
  | .draft => { row with lifecycle := .draft }

@[simp] theorem ProposalColumns.proposalId_marked (lifecycle : Lifecycle) (now : String)
    (row : ProposalColumns) : (row.marked lifecycle now).proposalId = row.proposalId := by
  cases lifecycle <;> rfl

@[simp] theorem ProposalColumns.lifecycle_marked (lifecycle : Lifecycle) (now : String)
    (row : ProposalColumns) : (row.marked lifecycle now).lifecycle = lifecycle := by
  cases lifecycle <;> rfl

@[simp] theorem ProposalColumns.basedOnRevision_marked (lifecycle : Lifecycle) (now : String)
    (row : ProposalColumns) : (row.marked lifecycle now).basedOnRevision = row.basedOnRevision := by
  cases lifecycle <;> rfl

abbrev Statement (φ : Type) := Authority φ → Except WriteRefusal (Authority φ)

namespace Authority

variable {φ : Type} (state : Authority φ)

def rows : List ProposalColumns := state.store.proposals.rows

def revision : Nat := state.store.plannerRevision

/-- `UPDATE placement_proposals SET lifecycle=…, …_at=… WHERE …`. -/
def setLifecycle (where' : ProposalColumns → Bool) (lifecycle : Lifecycle) (now : String) :
    Authority φ :=
  { state with store :=
    { state.store with
      proposals := state.store.proposals.update where' (ProposalColumns.marked lifecycle now)
        (ProposalColumns.proposalId_marked lifecycle now)
      taskLinked := by
        intro task member
        obtain ⟨row, listed, same⟩ := state.store.taskLinked task member
        refine ⟨_, List.mem_map_of_mem listed, ?_⟩
        split
        · rw [ProposalColumns.proposalId_marked, same]
        · exact same } }

def point (proposalId : Option String) : Authority φ :=
  { state with activeApprovedProposalId := proposalId }

def setFacts (facts : φ) : Authority φ :=
  { state with facts := facts }

/-- `bump_revision`. -/
def bump (fillIdle : Bool) : Except WriteRefusal (Authority φ) := do
  require fillIdle .fillSessionActive
  return { state with store := { state.store with plannerRevision := state.revision + 1 } }

/-- All approvals are superseded, and none is active. -/
def revoke (now : String) : Authority φ :=
  (state.setLifecycle (·.lifecycle = .approved) .superseded now).point none

/-- The approved proposals that have a task of some kind. -/
def approvedWith (touches : TaskRow → Bool) : List String :=
  (state.rows.filter fun row => row.lifecycle = .approved ∧ state.store.tasks.rows.any fun task =>
    task.proposalId = row.proposalId ∧ touches task.row).map ProposalColumns.proposalId

/-- One approval is superseded, and is no longer active. -/
def supersedeOne (now proposalId : String) : Authority φ :=
  let superseded := state.setLifecycle
    (fun row => row.proposalId = proposalId ∧ row.lifecycle = .approved) .superseded now
  if state.activeApprovedProposalId = some proposalId then superseded.point none else superseded

def supersedeWith (touches : TaskRow → Bool) (now : String) : Authority φ :=
  (state.approvedWith touches).foldl (fun current => current.supersedeOne now) state

section Fields

variable (where' : ProposalColumns → Bool) (lifecycle : Lifecycle) (now : String)

@[simp] theorem rows_setLifecycle : (state.setLifecycle where' lifecycle now).rows =
    state.rows.map fun row => if where' row then row.marked lifecycle now else row := rfl

@[simp] theorem revision_setLifecycle :
    (state.setLifecycle where' lifecycle now).revision = state.revision := rfl

@[simp] theorem active_setLifecycle :
    (state.setLifecycle where' lifecycle now).activeApprovedProposalId =
      state.activeApprovedProposalId := rfl

@[simp] theorem rows_point (proposalId : Option String) : (state.point proposalId).rows = state.rows := rfl

@[simp] theorem revision_point (proposalId : Option String) :
    (state.point proposalId).revision = state.revision := rfl

@[simp] theorem active_point (proposalId : Option String) :
    (state.point proposalId).activeApprovedProposalId = proposalId := rfl

@[simp] theorem rows_setFacts (facts : φ) : (state.setFacts facts).rows = state.rows := rfl

@[simp] theorem revision_setFacts (facts : φ) : (state.setFacts facts).revision = state.revision := rfl

@[simp] theorem active_setFacts (facts : φ) :
    (state.setFacts facts).activeApprovedProposalId = state.activeApprovedProposalId := rfl

end Fields

end Authority

/-- A write that cannot fail. -/
def always {φ : Type} (write : Authority φ → Authority φ) : Statement φ :=
  fun state => .ok (write state)

/-- What approval meets outside this model. -/
structure ApprovalWorld (φ : Type) where
  publicationClear : Bool
  fencesUnchanged : Bool
  /-- The request names no mutation, or this one. -/
  requested : String → List Json → Bool
  activePlan : φ → Option String
  semanticInputHash : φ → Option String
  assignmentValid : φ → Bool
  finalize : List Json → φ → φ
  fillIdle : Bool

/-- An operation with what it takes from its caller, the clock and the checks outside this model. -/
inductive Operation (φ : Type) where
  | publishDraft (fillIdle : Bool) (proposalId now : String) (payload : Payload)
  | discardDraft (fillIdle : Bool) (proposalId now : String)
  | approve (proposalId now : String) (world : ApprovalWorld φ)
  /-- A graph write of the facts and the plans; `none` is a proven no-op. -/
  | graphWrite (fillIdle : Bool)
      (op : φ → List String → Except WriteRefusal (Option (φ × List String)))
  | serialRepair (fillIdle : Bool) (driveLabel now : String) (repair : φ → Except WriteRefusal φ)
  | metadataClassification (fillIdle publicationClear : Bool) (previewRevision : Nat)
      (previewCurrent : φ → Bool) (changedRepos : List String) (now : String) (reclassify : φ → φ)
  | declareLost (fillIdle : Bool) (expectedRevision : Nat) (now : String)
      (declare : φ → Except WriteRefusal (Option φ))
  | registerNewIdentity (fillIdle : Bool) (expectedRevision : Nat) (now : String)
      (register : φ → Except WriteRefusal φ)
  | setActivePlan (fillIdle : Bool) (now : String) (switch : φ → φ)

section Transactions

variable {φ : Type} (state : Authority φ)

/-- `graph_write` of a body that decides on its statements, or is a proven no-op. -/
def graphWrite (fillIdle : Bool) (body : Except WriteRefusal (Option (List (Statement φ)))) :
    Except WriteRefusal (List (Statement φ)) := do
  require fillIdle .fillSessionActive
  match ← body with
  | none => return []
  | some writes => return writes ++ [fun state => state.bump fillIdle]

def publishDraftTx (sha : Digester) (fillIdle : Bool) (proposalId now : String) (payload : Payload) :
    Except WriteRefusal (List (Statement φ)) :=
  .ok [fun state =>
    match publishDraft sha proposalId now payload fillIdle state.store with
    | .ok store => .ok { state with store := store }
    | .error refused => .error (.publish refused)]

def discardDraftTx (fillIdle : Bool) (proposalId now : String) :
    Except WriteRefusal (List (Statement φ)) := do
  require fillIdle .fillSessionActive
  match state.store.proposals.find proposalId with
  | none => .error .proposalNotFound
  | some row =>
      require (row.lifecycle = .draft) (.proposalNotDraft row.lifecycle)
      return [always fun current => current.setLifecycle
        (fun row => row.proposalId = proposalId ∧ row.lifecycle = .draft) .superseded now]

/-- `_apply_mutation`, or nothing for a proposal that adopts the current selection. -/
def mutationTx (world : ApprovalWorld φ) (header : Header) :
    Except WriteRefusal (List (Statement φ)) :=
  if header.mutationKind = "adopt_current" then
    if header.selectionBeforeHash = header.selectionAfterHash then .ok []
    else .error .adoptSelectionChanged
  else if header.mutationKind = "successor_replan" then .ok []
  else if header.mutationKind = "finalize" then
    .ok [always fun current => current.setFacts (world.finalize header.mutationArgs current.facts)]
  else .error (.mutationMismatch header.mutationKind)

/-- `_approve_tx`. -/
def approveTx (sha : Digester) (proposalId now : String) (world : ApprovalWorld φ) :
    Except WriteRefusal (List (Statement φ)) := do
  require world.publicationClear .publicationPending
  require world.fencesUnchanged .approvedInputChanged
  match state.store.loadProposal proposalId with
  | none => .error .proposalNotFound
  | some proposal =>
      let header := proposal.header
      require (proposal.lifecycle = .draft) (.proposalNotDraft proposal.lifecycle)
      require (header.gateBCode = "FEASIBLE") (.proposalNotFeasible header.gateBCode)
      require (world.requested header.mutationKind header.mutationArgs)
        (.mutationMismatch header.mutationKind)
      require ((state.revision : Int) = header.basedOnRevision)
        (.previewStale state.revision header.basedOnRevision)
      require (world.activePlan state.facts = some header.planId) (.proposalPlanInactive header.planId)
      require (state.store.currentDraftIds.length ≤ 1)
        (.multipleCurrentDrafts state.store.currentDraftIds)
      require (world.semanticInputHash state.facts = header.semanticInputHash) .approvedInputChanged
      require (hashStoredProposal sha state.store proposalId = some proposal.canonicalHash)
        (.proposalHashMismatch proposal.canonicalHash (hashStoredProposal sha state.store proposalId))
      require (world.assignmentValid state.facts) .exactAssignmentRejected
      let mutation ← mutationTx world header
      return mutation ++
        [always fun current => current.setLifecycle (·.lifecycle = .approved) .superseded now,
          always fun current => current.setLifecycle (·.proposalId = proposalId) .approved now,
          always fun current => current.point (some proposalId),
          fun current => current.bump world.fillIdle]

def graphWriteTx (fillIdle : Bool)
    (op : φ → List String → Except WriteRefusal (Option (φ × List String))) :
    Except WriteRefusal (List (Statement φ)) :=
  graphWrite fillIdle do
    let changed ← op state.facts state.store.plans
    return changed.map fun (facts, plans) =>
      [always fun current =>
        { current with facts := facts, store := { current.store with plans := plans } }]

/-- The binding of a task to a drive: it writes to it, reads from it or is satisfied on it. -/
def boundTo (driveLabel : String) (task : TaskRow) : Bool :=
  task.targetDrive = some driveLabel ∨ task.sourceDrive = some driveLabel ∨
    task.satisfyingDrive = some driveLabel

/-- `_serial_enrich_locked` with `supersede_serial_repair_approvals`. -/
def serialRepairTx (fillIdle : Bool) (driveLabel now : String) (repair : φ → Except WriteRefusal φ) :
    Except WriteRefusal (List (Statement φ)) := do
  require fillIdle .fillSessionActive
  let repaired ← repair state.facts
  return [always fun current => current.setFacts repaired,
    always fun current => current.supersedeWith (boundTo driveLabel) now,
    fun current => current.bump fillIdle]

/-- `apply_metadata_classification`. -/
def metadataClassificationTx (fillIdle publicationClear : Bool) (previewRevision : Nat)
    (previewCurrent : φ → Bool) (changedRepos : List String) (now : String) (reclassify : φ → φ) :
    Except WriteRefusal (List (Statement φ)) :=
  graphWrite fillIdle do
    require publicationClear .publicationPending
    require (previewRevision = state.revision ∧ previewCurrent state.facts) .metadataPreviewStale
    return if changedRepos = [] then none
      else some
        [always fun current => current.setFacts (reclassify current.facts),
          always fun current => current.supersedeWith (fun task => task.repoId ∈ changedRepos) now]

def declareLostTx (fillIdle : Bool) (expectedRevision : Nat) (now : String)
    (declare : φ → Except WriteRefusal (Option φ)) : Except WriteRefusal (List (Statement φ)) :=
  graphWrite fillIdle do
    require (expectedRevision = state.revision) (.driveLossPreviewStale state.revision)
    let declared ← declare state.facts
    return declared.map fun facts =>
      [always fun current => current.revoke now, always fun current => current.setFacts facts]

def registerNewIdentityTx (fillIdle : Bool) (expectedRevision : Nat) (now : String)
    (register : φ → Except WriteRefusal φ) : Except WriteRefusal (List (Statement φ)) :=
  graphWrite fillIdle do
    require (expectedRevision = state.revision) (.registrationPreviewStale state.revision)
    let registered ← register state.facts
    return some
      [always fun current => current.setFacts registered, always fun current => current.revoke now]

/-- `plan.set_active` of another plan. -/
def setActivePlanTx (fillIdle : Bool) (now : String) (switch : φ → φ) :
    Except WriteRefusal (List (Statement φ)) :=
  graphWrite fillIdle <| .ok <| some
    [always fun current => current.revoke now,
      always fun current => current.setFacts (switch current.facts)]

end Transactions

/-- The transaction of each operation. -/
def transaction {φ : Type} (sha : Digester) :
    Operation φ → Transaction (Authority φ) WriteRefusal
  | .publishDraft fillIdle proposalId now payload, _ =>
      publishDraftTx sha fillIdle proposalId now payload
  | .discardDraft fillIdle proposalId now, state => discardDraftTx state fillIdle proposalId now
  | .approve proposalId now world, state => approveTx state sha proposalId now world
  | .graphWrite fillIdle op, state => graphWriteTx state fillIdle op
  | .serialRepair fillIdle driveLabel now repair, state =>
      serialRepairTx state fillIdle driveLabel now repair
  | .metadataClassification fillIdle publicationClear revision current repos now reclassify, state =>
      metadataClassificationTx state fillIdle publicationClear revision current repos now reclassify
  | .declareLost fillIdle revision now declare, state =>
      declareLostTx state fillIdle revision now declare
  | .registerNewIdentity fillIdle revision now register, state =>
      registerNewIdentityTx state fillIdle revision now register
  | .setActivePlan fillIdle now switch, _ => setActivePlanTx fillIdle now switch

/-- A catalog without proposals, as the schema seeds it. -/
def Authority.seeded {φ : Type} (plans : List String) (facts : φ) : Authority φ where
  store := .blank 0 plans
  activeApprovedProposalId := none
  facts := facts

end Modelark.Proposal
