import Modelark.Execution.Sessions

/-!
# The catalog that sessions and proposals share

The part of the catalog that sessions, proposals and revisions live in. The facts that a projection
reads are of an arbitrary type.
-/

namespace Modelark.Execution

open Library

inductive Lifecycle where
  | draft
  | approved
  | superseded
  deriving Repr, DecidableEq

structure Proposal where
  proposalId : String
  planId : String
  lifecycle : Lifecycle
  basedOnRevision : Nat
  /-- The gate of the placement is unrecorded or `FEASIBLE`. -/
  feasible : Bool
  deriving Repr, DecidableEq

structure Catalog (φ : Type*) where
  facts : φ
  plannerRevision : Nat
  nextFencingToken : Nat
  activeApprovedProposalId : Option String
  proposals : List Proposal
  sessions : SessionTable

/-- What the body of a graph write does to the facts. One that reports `proven_noop` is taken at its word and has
    changed none of them; which writers may be is the subject of the revision discipline. -/
inductive GraphOp (φ : Type*) where
  | raises
  | provenNoop
  | change (f : φ → φ)

namespace Catalog

variable {φ : Type*} (cat : Catalog φ)

def loadProposal (proposalId : String) : Option Proposal :=
  cat.proposals.find? (·.proposalId == proposalId)

/-- `current_draft_ids`: drafts based on the exact current revision. -/
def currentDraftIds : List String :=
  let current := cat.proposals.filter fun proposal =>
    proposal.lifecycle = .draft ∧ proposal.basedOnRevision = cat.plannerRevision
  current.map Proposal.proposalId

/-- `_selected_approval`: only an omitted selection means the active approval. -/
def selectedApproval (requested : Option String) : Option Proposal := do
  let active ← cat.activeApprovedProposalId
  let proposal ← cat.loadProposal (requested.getD active)
  guard (proposal.lifecycle = .approved ∧ active = requested.getD active)
  return proposal

/-- `bump_revision`, after a body that left these facts. -/
def bump (f : φ → φ) : Catalog φ :=
  { cat with facts := f cat.facts, plannerRevision := cat.plannerRevision + 1 }

def setLifecycle (select : Proposal → Bool) (lifecycle : Lifecycle) : Catalog φ :=
  let rewrite (row : Proposal) := if select row then { row with lifecycle := lifecycle } else row
  { cat with proposals := cat.proposals.map rewrite }

@[simp] theorem sessions_bump (f : φ → φ) : (cat.bump f).sessions = cat.sessions := rfl

@[simp] theorem plannerRevision_bump (f : φ → φ) :
    (cat.bump f).plannerRevision = cat.plannerRevision + 1 := rfl

@[simp] theorem sessions_setLifecycle (select : Proposal → Bool) (lifecycle : Lifecycle) :
    (cat.setLifecycle select lifecycle).sessions = cat.sessions := rfl

@[simp] theorem plannerRevision_setLifecycle (select : Proposal → Bool) (lifecycle : Lifecycle) :
    (cat.setLifecycle select lifecycle).plannerRevision = cat.plannerRevision := rfl

@[simp] theorem facts_setLifecycle (select : Proposal → Bool) (lifecycle : Lifecycle) :
    (cat.setLifecycle select lifecycle).facts = cat.facts := rfl

end Catalog

end Modelark.Execution
