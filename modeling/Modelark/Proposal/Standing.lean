import Modelark.Proposal.Authority
import Modelark.Proposal.Hashing

/-!
# The approval in force

Whatever order the writers commit in and wherever they fail, the pointer of the planner state names
the one approved proposal, if there is one, and a proposal is approved at the revision it is based on.
-/

namespace Modelark.Proposal

open Library Execution

variable {φ : Type}

/-- The kinds of committed change. -/
inductive Change (before after : Authority φ) : Prop where
  | nothing (same : after = before)
  | facts (rows : after.rows = before.rows)
      (active : after.activeApprovedProposalId = before.activeApprovedProposalId)
      (revision : after.revision = before.revision + 1)
  | published {row : ProposalColumns} (rows : after.rows = before.rows ++ [row])
      (fresh : ∀ other ∈ before.rows, other.proposalId ≠ row.proposalId)
      (draft : row.lifecycle = .draft) (based : row.basedOnRevision = before.revision)
      (active : after.activeApprovedProposalId = before.activeApprovedProposalId)
      (revision : after.revision = before.revision)
  | discarded {proposalId now : String}
      (rows : after.rows = before.rows.map fun row =>
        if row.proposalId = proposalId ∧ row.lifecycle = .draft then row.marked .superseded now
        else row)
      (active : after.activeApprovedProposalId = before.activeApprovedProposalId)
      (revision : after.revision = before.revision)
  | approved {row : ProposalColumns} {now : String} (member : row ∈ before.rows)
      (draft : row.lifecycle = .draft) (based : row.basedOnRevision = before.revision)
      (rows : after.rows = (before.rows.map fun other =>
        if other.lifecycle = .approved then other.marked .superseded now else other).map fun other =>
          if other.proposalId = row.proposalId then other.marked .approved now else other)
      (active : after.activeApprovedProposalId = some row.proposalId)
      (revision : after.revision = before.revision + 1)
  | superseded {gone : String → Bool} {now : String}
      (rows : after.rows = before.rows.map fun row =>
        if gone row.proposalId ∧ row.lifecycle = .approved then row.marked .superseded now else row)
      (active : after.activeApprovedProposalId =
        before.activeApprovedProposalId.filter fun proposalId => !gone proposalId)
      (revision : after.revision = before.revision + 1)

section Statements

theorem bump_eq_ok {state after : Authority φ} {fillIdle : Bool}
    (bumped : state.bump fillIdle = .ok after) :
    after.rows = state.rows ∧ after.activeApprovedProposalId = state.activeApprovedProposalId ∧
      after.revision = state.revision + 1 := by
  simp only [Authority.bump, bind_eq_ok, require_eq_ok] at bumped
  obtain ⟨_, _, bumped⟩ := bumped
  cases bumped
  exact ⟨rfl, rfl, rfl⟩

@[simp] theorem statements_nil {state : Authority φ} :
    (statements state [] : Except WriteRefusal (Authority φ)) = .ok state := rfl

theorem statements_always {state : Authority φ} {write : Authority φ → Authority φ}
    {rest : List (Statement φ)} :
    statements state (always write :: rest) = statements (write state) rest := rfl

theorem statements_last {state after : Authority φ} {last : Statement φ} :
    statements state [last] = .ok after ↔ last state = .ok after := by
  simp [statements]

/-- Superseding one approval after another. -/
theorem foldl_supersedeOne (now : String) (ids : List String) (state : Authority φ) :
    let after := ids.foldl (fun current => current.supersedeOne now) state
    after.rows = state.rows.map (fun row =>
        if row.proposalId ∈ ids ∧ row.lifecycle = .approved then row.marked .superseded now else row) ∧
      after.activeApprovedProposalId =
        state.activeApprovedProposalId.filter (fun proposalId => !decide (proposalId ∈ ids)) ∧
      after.revision = state.revision := by
  induction ids generalizing state with
  | nil => cases active : state.activeApprovedProposalId <;> simp [active, Option.filter]
  | cons id ids ih =>
      have one : (state.supersedeOne now id).rows = state.rows.map (fun row =>
          if row.proposalId = id ∧ row.lifecycle = .approved then row.marked .superseded now
          else row) ∧
          (state.supersedeOne now id).activeApprovedProposalId =
            state.activeApprovedProposalId.filter (fun proposalId => !decide (proposalId = id)) ∧
          (state.supersedeOne now id).revision = state.revision := by
        unfold Authority.supersedeOne
        cases active : state.activeApprovedProposalId with
        | none => simp [active]
        | some pointed =>
            by_cases same : pointed = id <;> simp [active, same, Option.filter]
      obtain ⟨rows, pointer, revision⟩ := ih (state.supersedeOne now id)
      rw [List.foldl_cons]
      refine ⟨?_, ?_, by rw [revision, one.2.2]⟩
      · rw [rows, one.1, List.map_map]
        apply List.map_congr_left
        intro row _
        by_cases approved : row.lifecycle = .approved <;>
          by_cases named : row.proposalId = id <;> simp [approved, named]
      · rw [pointer, one.2.1, Option.filter_filter]
        simp

theorem supersedeWith_change (touches : TaskRow → Bool) (now : String) (state : Authority φ) :
    ∃ gone : String → Bool,
      (state.supersedeWith touches now).rows = state.rows.map (fun row =>
        if gone row.proposalId ∧ row.lifecycle = .approved then row.marked .superseded now else row) ∧
      (state.supersedeWith touches now).activeApprovedProposalId =
        state.activeApprovedProposalId.filter (fun proposalId => !gone proposalId) ∧
      (state.supersedeWith touches now).revision = state.revision := by
  refine ⟨fun proposalId => decide (proposalId ∈ state.approvedWith touches), ?_⟩
  simp only [decide_eq_true_eq]
  exact foldl_supersedeOne now (state.approvedWith touches) state

/-- A graph write is a proven no-op, or its statements and a bump. -/
theorem graphWrite_effect {fillIdle : Bool} {before after : Authority φ}
    {body : Except WriteRefusal (Option (List (Statement φ)))} {decided : List (Statement φ)}
    (accepted : graphWrite fillIdle body = .ok decided) (ran : statements before decided = .ok after) :
    after = before ∨ ∃ writes written, body = .ok (some writes) ∧
      statements before writes = .ok written ∧ written.bump fillIdle = .ok after := by
  simp only [graphWrite, bind_eq_ok, require_eq_ok] at accepted
  obtain ⟨_, _, outcome, decidedBody, accepted⟩ := accepted
  cases outcome with
  | none =>
      cases accepted
      cases ran
      exact .inl rfl
  | some writes =>
      cases accepted
      rw [statements, thread_append, bind_eq_ok] at ran
      obtain ⟨written, wrote, bumped⟩ := ran
      exact .inr ⟨writes, written, decidedBody, wrote, statements_last.mp bumped⟩

end Statements

section Operations

variable {sha : Digester} {before after : Authority φ} {decided : List (Statement φ)}

/-- A loaded proposal is a row of the table. -/
theorem columns_of_loaded {store : Store} {proposalId : String} {proposal : Loaded}
    (loaded : store.loadProposal proposalId = some proposal) :
    ∃ row ∈ store.proposals.rows, row.proposalId = proposalId ∧
      row.lifecycle = proposal.lifecycle ∧
      row.basedOnRevision = proposal.header.basedOnRevision := by
  simp only [Store.loadProposal, bind, Option.bind_eq_some_iff] at loaded
  obtain ⟨columns, found, value, _, args, _, same⟩ := loaded
  obtain ⟨member, id⟩ := (Table.find_eq_some _).mp found
  cases same
  exact ⟨columns, member, id, rfl, rfl⟩

theorem revision_insert? {store next : Store} {columns : ProposalColumns} {tasks : List TaskRow}
    {files : List FileRow} (inserted : store.insert? columns tasks files = some next) :
    next.plannerRevision = store.plannerRevision := by
  unfold Store.insert? at inserted
  split at inserted
  · split at inserted
    · split at inserted
      · cases inserted
        rfl
      · cases inserted
    · cases inserted
  · cases inserted

theorem based_of_published {fillIdle : Bool} {proposalId now : String} {payload : Payload}
    {store next : Store} (published : publishDraft sha proposalId now payload fillIdle store = .ok next) :
    payload.header.basedOnRevision = (store.plannerRevision : Int) := by
  simp only [publishDraft, bind_eq_ok, require_eq_ok, decide_eq_true_eq] at published
  obtain ⟨_, _, _, _, _, based, _⟩ := published
  exact based

theorem publishDraft_change {fillIdle : Bool} {proposalId now : String} {payload : Payload}
    (accepted : publishDraftTx sha fillIdle proposalId now payload = .ok decided)
    (ran : statements before decided = .ok after) : Change before after := by
  cases accepted
  rw [statements_last] at ran
  cases published : publishDraft sha proposalId now payload fillIdle before.store with
  | error refused =>
      rw [published] at ran
      cases ran
  | ok store =>
      rw [published] at ran
      cases ran
      have inserted := publishDraft_inserts published
      obtain ⟨fresh, rows, _, _⟩ := Store.insert?_spec inserted
      have revision := revision_insert? inserted
      refine .published rows fresh rfl ?_ rfl revision
      exact based_of_published published

theorem discardDraft_change {fillIdle : Bool} {proposalId now : String}
    (accepted : discardDraftTx before fillIdle proposalId now = .ok decided)
    (ran : statements before decided = .ok after) : Change before after := by
  simp only [discardDraftTx, bind_eq_ok, require_eq_ok] at accepted
  obtain ⟨_, _, accepted⟩ := accepted
  split at accepted
  · cases accepted
  · simp only [bind_eq_ok, require_eq_ok] at accepted
    obtain ⟨_, _, accepted⟩ := accepted
    cases accepted
    cases ran
    have rows : ((before.setLifecycle (fun row => row.proposalId = proposalId ∧ row.lifecycle = .draft)
        .superseded now).rows) = _ := before.rows_setLifecycle _ _ _
    simp only [decide_eq_true_eq] at rows
    exact .discarded rows rfl rfl

/-- The statements of an approval after its mutation. -/
theorem approve_statements {proposalId now : String} {fillIdle : Bool} {state : Authority φ}
    (ran : statements state
      [always fun current => current.setLifecycle (·.lifecycle = .approved) .superseded now,
        always fun current => current.setLifecycle (·.proposalId = proposalId) .approved now,
        always fun current => current.point (some proposalId),
        fun current => current.bump fillIdle] = .ok after) :
    after.rows = (state.rows.map fun other =>
        if other.lifecycle = .approved then other.marked .superseded now else other).map (fun other =>
          if other.proposalId = proposalId then other.marked .approved now else other) ∧
      after.activeApprovedProposalId = some proposalId ∧ after.revision = state.revision + 1 := by
  simp only [statements_always, statements_last] at ran
  obtain ⟨rows, active, revision⟩ := bump_eq_ok ran
  refine ⟨?_, by simpa using active, by simpa using revision⟩
  rw [rows]
  simp only [Authority.rows_point, Authority.rows_setLifecycle, decide_eq_true_eq]

/-- Applying the mutation touches neither proposals nor the pointer nor the revision. -/
theorem mutation_effect {world : ApprovalWorld φ} {header : Header} {mutation : List (Statement φ)}
    (accepted : mutationTx world header = .ok mutation) (ran : statements before mutation = .ok after) :
    after.rows = before.rows ∧ after.revision = before.revision := by
  unfold mutationTx at accepted
  split_ifs at accepted <;> cases accepted <;> cases ran <;> exact ⟨rfl, rfl⟩

theorem approve_change {proposalId now : String} {world : ApprovalWorld φ}
    (accepted : approveTx before sha proposalId now world = .ok decided)
    (ran : statements before decided = .ok after) : Change before after := by
  simp only [approveTx, bind_eq_ok, require_eq_ok] at accepted
  obtain ⟨_, _, _, _, accepted⟩ := accepted
  split at accepted
  · cases accepted
  · rename_i proposal loaded
    simp only [bind_eq_ok, require_eq_ok, decide_eq_true_eq] at accepted
    obtain ⟨_, draft, _, _, _, _, _, based, _, _, _, _, _, _, _, _, _, _, mutation, applies, same⟩ :=
      accepted
    cases same
    rw [statements, thread_append, bind_eq_ok] at ran
    obtain ⟨mutated, wrote, ran⟩ := ran
    obtain ⟨mutatedRows, mutatedRevision⟩ := mutation_effect applies wrote
    obtain ⟨rows, active, revision⟩ := approve_statements ran
    obtain ⟨columns, member, id, lifecycle, basedOn⟩ := columns_of_loaded loaded
    subst id
    rw [mutatedRows] at rows
    rw [mutatedRevision] at revision
    exact .approved member (lifecycle.trans draft) (basedOn.trans based.symm) rows active revision

/-- Superseding all approvals, with other writes to the facts and a bump. -/
theorem revoke_change {state : Authority φ} {now : String} {fillIdle : Bool}
    (bumped : state.bump fillIdle = .ok after) (rows : state.rows = (before.revoke now).rows)
    (active : state.activeApprovedProposalId = none) (revision : state.revision = before.revision) :
    Change before after := by
  obtain ⟨rows', active', revision'⟩ := bump_eq_ok bumped
  refine @Change.superseded φ before after (fun _ => true) now ?_ ?_ (by rw [revision', revision])
  · rw [rows', rows, Authority.revoke, Authority.rows_point, Authority.rows_setLifecycle]
    simp
  · rw [active', active]
    cases before.activeApprovedProposalId <;> rfl

theorem graphWrite_change {fillIdle : Bool}
    {op : φ → List String → Except WriteRefusal (Option (φ × List String))}
    (accepted : graphWriteTx before fillIdle op = .ok decided)
    (ran : statements before decided = .ok after) : Change before after := by
  obtain rfl | ⟨writes, written, body, wrote, bumped⟩ := graphWrite_effect accepted ran
  · exact .nothing rfl
  · simp only [bind_eq_ok] at body
    obtain ⟨changed, _, same⟩ := body
    cases changed with
    | none => cases same
    | some pair =>
        cases same
        cases wrote
        obtain ⟨rows, active, revision⟩ := bump_eq_ok bumped
        exact .facts rows active revision

/-- A change of the facts, the approvals with some kind of task, and a bump. -/
theorem supersedeWith_bumped {facts : φ} {touches : TaskRow → Bool} {now : String} {fillIdle : Bool}
    (bumped : ((before.setFacts facts).supersedeWith touches now).bump fillIdle = .ok after) :
    Change before after := by
  obtain ⟨rows, active, revision⟩ := bump_eq_ok bumped
  obtain ⟨gone, rows', active', revision'⟩ := supersedeWith_change touches now (before.setFacts facts)
  exact .superseded (rows.trans rows') (active.trans active') (by rw [revision, revision']; rfl)

theorem serialRepair_change {fillIdle : Bool} {driveLabel now : String}
    {repair : φ → Except WriteRefusal φ}
    (accepted : serialRepairTx before fillIdle driveLabel now repair = .ok decided)
    (ran : statements before decided = .ok after) : Change before after := by
  simp only [serialRepairTx, bind_eq_ok] at accepted
  obtain ⟨_, _, repaired, _, same⟩ := accepted
  cases same
  simp only [statements_always, statements_last] at ran
  exact supersedeWith_bumped ran

theorem metadataClassification_change {fillIdle publicationClear : Bool} {previewRevision : Nat}
    {previewCurrent : φ → Bool} {changedRepos : List String} {now : String} {reclassify : φ → φ}
    (accepted : metadataClassificationTx before fillIdle publicationClear previewRevision
      previewCurrent changedRepos now reclassify = .ok decided)
    (ran : statements before decided = .ok after) : Change before after := by
  obtain rfl | ⟨writes, written, body, wrote, bumped⟩ := graphWrite_effect accepted ran
  · exact .nothing rfl
  · simp only [bind_eq_ok] at body
    obtain ⟨_, _, _, _, same⟩ := body
    split_ifs at same
    · cases same
    · cases same
      cases wrote
      exact supersedeWith_bumped bumped

theorem declareLost_change {fillIdle : Bool} {expectedRevision : Nat} {now : String}
    {declare : φ → Except WriteRefusal (Option φ)}
    (accepted : declareLostTx before fillIdle expectedRevision now declare = .ok decided)
    (ran : statements before decided = .ok after) : Change before after := by
  obtain rfl | ⟨writes, written, body, wrote, bumped⟩ := graphWrite_effect accepted ran
  · exact .nothing rfl
  · simp only [bind_eq_ok] at body
    obtain ⟨_, _, declared, _, same⟩ := body
    cases declared with
    | none => cases same
    | some facts =>
        cases same
        cases wrote
        exact revoke_change bumped rfl rfl rfl

theorem registerNewIdentity_change {fillIdle : Bool} {expectedRevision : Nat} {now : String}
    {register : φ → Except WriteRefusal φ}
    (accepted : registerNewIdentityTx before fillIdle expectedRevision now register = .ok decided)
    (ran : statements before decided = .ok after) : Change before after := by
  obtain rfl | ⟨writes, written, body, wrote, bumped⟩ := graphWrite_effect accepted ran
  · exact .nothing rfl
  · simp only [bind_eq_ok] at body
    obtain ⟨_, _, registered, _, same⟩ := body
    cases same
    cases wrote
    exact revoke_change bumped rfl rfl rfl

theorem setActivePlan_change {fillIdle : Bool} {now : String} {switch : φ → φ}
    (accepted : setActivePlanTx fillIdle now switch = .ok decided)
    (ran : statements before decided = .ok after) : Change before after := by
  obtain rfl | ⟨writes, written, body, wrote, bumped⟩ := graphWrite_effect accepted ran
  · exact .nothing rfl
  · cases body
    cases wrote
    exact revoke_change bumped rfl rfl rfl

/-- Whatever an operation commits is one of the kinds of change. -/
theorem change_of_effect {op : Operation φ} (effect : Effect (transaction sha) op before after) :
    Change before after := by
  obtain ⟨decided, accepted, ran⟩ := effect
  cases op with
  | publishDraft => exact publishDraft_change accepted ran
  | discardDraft => exact discardDraft_change accepted ran
  | approve => exact approve_change accepted ran
  | graphWrite => exact graphWrite_change accepted ran
  | serialRepair => exact serialRepair_change accepted ran
  | metadataClassification => exact metadataClassification_change accepted ran
  | declareLost => exact declareLost_change accepted ran
  | registerNewIdentity => exact registerNewIdentity_change accepted ran
  | setActivePlan => exact setActivePlan_change accepted ran

end Operations

/-- A lifecycle stays, or moves one of the three allowed ways. -/
inductive LifecycleMove : Lifecycle → Lifecycle → Prop where
  | stays (lifecycle : Lifecycle) : LifecycleMove lifecycle lifecycle
  | approve : LifecycleMove .draft .approved
  | discard : LifecycleMove .draft .superseded
  | supersede : LifecycleMove .approved .superseded

/-- At most one proposal is approved, and the pointer names it. -/
structure Coherent (state : Authority φ) : Prop where
  approvedOnce : ∀ row ∈ state.rows, ∀ other ∈ state.rows, row.lifecycle = .approved →
    other.lifecycle = .approved → row = other
  named : ∀ proposalId, state.activeApprovedProposalId = some proposalId ↔
    ∃ row ∈ state.rows, row.proposalId = proposalId ∧ row.lifecycle = .approved

/-- The proposal was not approved before and is approved after. -/
def BecomesApproved (before after : Authority φ) (proposalId : String) : Prop :=
  (∃ row ∈ before.rows, row.proposalId = proposalId ∧ row.lifecycle ≠ .approved) ∧
    ∃ row ∈ after.rows, row.proposalId = proposalId ∧ row.lifecycle = .approved

/-- What one committed change may do to the proposals. -/
structure Evolves (before after : Authority φ) : Prop where
  revision : before.revision ≤ after.revision
  kept : ∀ row ∈ before.rows, ∃ row' ∈ after.rows, row'.proposalId = row.proposalId ∧
    row'.basedOnRevision = row.basedOnRevision ∧ LifecycleMove row.lifecycle row'.lifecycle
  added : ∀ row' ∈ after.rows, (∃ row ∈ before.rows, row.proposalId = row'.proposalId) ∨
    row'.lifecycle = .draft ∧ row'.basedOnRevision = before.revision
  approves : ∀ row ∈ before.rows, BecomesApproved before after row.proposalId →
    row.lifecycle = .draft ∧ row.basedOnRevision = before.revision

section Changes

variable {before after : Authority φ}

theorem eq_of_proposalId {state : Authority φ} {row other : ProposalColumns}
    (member : row ∈ state.rows) (member' : other ∈ state.rows)
    (same : row.proposalId = other.proposalId) : row = other :=
  List.inj_on_of_nodup_map state.store.proposals.distinct member member' same

/-- Rows that were rewritten one by one, none of them into an approval. -/
theorem evolves_of_map {rewrite : ProposalColumns → ProposalColumns}
    (rows : after.rows = before.rows.map rewrite) (revision : before.revision ≤ after.revision)
    (id : ∀ row, (rewrite row).proposalId = row.proposalId)
    (based : ∀ row, (rewrite row).basedOnRevision = row.basedOnRevision)
    (move : ∀ row, LifecycleMove row.lifecycle (rewrite row).lifecycle)
    (unapproved : ∀ row, (rewrite row).lifecycle = .approved → row.lifecycle = .approved) :
    Evolves before after where
  revision := revision
  kept row member :=
    ⟨rewrite row, rows ▸ List.mem_map_of_mem member, id row, based row, move row⟩
  added := by
    intro row' member
    rw [rows] at member
    obtain ⟨row, listed, rfl⟩ := List.mem_map.mp member
    exact .inl ⟨row, listed, (id row).symm⟩
  approves := by
    rintro row member ⟨⟨other, listed, sameId, open'⟩, row', member', sameId', approved⟩
    rw [rows] at member'
    obtain ⟨origin, among, rfl⟩ := List.mem_map.mp member'
    rw [id] at sameId'
    obtain rfl := eq_of_proposalId among listed (sameId'.trans sameId.symm)
    exact absurd (unapproved _ approved) open'

/-- What an approval makes of a row. -/
def approvedRow (proposalId now : String) (row : ProposalColumns) : ProposalColumns :=
  let other := if row.lifecycle = .approved then row.marked .superseded now else row
  if other.proposalId = proposalId then other.marked .approved now else other

@[simp] theorem proposalId_approvedRow (proposalId now : String) (row : ProposalColumns) :
    (approvedRow proposalId now row).proposalId = row.proposalId := by
  simp only [approvedRow]
  split_ifs <;> simp

@[simp] theorem basedOnRevision_approvedRow (proposalId now : String) (row : ProposalColumns) :
    (approvedRow proposalId now row).basedOnRevision = row.basedOnRevision := by
  simp only [approvedRow]
  split_ifs <;> simp

theorem lifecycle_approvedRow (proposalId now : String) (row : ProposalColumns) :
    (approvedRow proposalId now row).lifecycle =
      if row.proposalId = proposalId then .approved
      else if row.lifecycle = .approved then .superseded else row.lifecycle := by
  by_cases approved : row.lifecycle = .approved <;>
    by_cases named : row.proposalId = proposalId <;> simp [approvedRow, approved, named]

theorem approvedRow_approved {proposalId now : String} {row : ProposalColumns} :
    (approvedRow proposalId now row).lifecycle = .approved ↔ row.proposalId = proposalId := by
  rw [lifecycle_approvedRow]
  split_ifs <;> simp_all

theorem Change.evolves (change : Change before after) : Evolves before after := by
  cases change with
  | nothing same =>
      subst same
      apply evolves_of_map (List.map_id _).symm (le_refl _) <;> intro row
      · rfl
      · rfl
      · exact .stays _
      · exact id
  | facts rows _ revision =>
      apply evolves_of_map (rows.trans (List.map_id _).symm) (by omega) <;> intro row
      · rfl
      · rfl
      · exact .stays _
      · exact id
  | published rows fresh draft based _ revision =>
      rename_i row
      refine ⟨revision.ge, ?_, ?_, ?_⟩
      · intro old member
        exact ⟨old, rows ▸ List.mem_append_left _ member, rfl, rfl, .stays _⟩
      · intro row' member
        rw [rows] at member
        rcases List.mem_append.mp member with old | new
        · exact .inl ⟨row', old, rfl⟩
        · rw [List.mem_singleton.mp new]
          exact .inr ⟨draft, based⟩
      · rintro old member ⟨⟨other, listed, sameId, open'⟩, row', member', sameId', approved⟩
        rw [rows] at member'
        rcases List.mem_append.mp member' with before' | new
        · obtain rfl := eq_of_proposalId before' listed (sameId'.trans sameId.symm)
          exact absurd approved open'
        · rw [List.mem_singleton.mp new] at approved
          rw [draft] at approved
          cases approved
  | discarded rows _ revision =>
      apply evolves_of_map rows revision.ge <;> intro row <;> split <;> simp_all
      · exact .discard
      · exact .stays _
  | superseded rows _ revision =>
      apply evolves_of_map rows (by omega) <;> intro row <;> split <;> simp_all
      · exact .supersede
      · exact .stays _
  | approved member draft based rows _ revision =>
      rename_i row now _
      have shape : after.rows = before.rows.map (approvedRow row.proposalId now) := by
        rw [rows, List.map_map]
        rfl
      have own : ∀ other ∈ before.rows, other.proposalId = row.proposalId → other = row :=
        fun other listed same => eq_of_proposalId listed member same
      refine ⟨by omega, ?_, ?_, ?_⟩
      · intro other listed
        refine ⟨approvedRow row.proposalId now other, shape ▸ List.mem_map_of_mem listed, by simp,
          by simp, ?_⟩
        rw [lifecycle_approvedRow]
        split_ifs with same approved
        · obtain rfl := own other listed same
          rw [draft]
          exact .approve
        · rw [approved]
          exact .supersede
        · exact .stays _
      · intro row' listed
        rw [shape] at listed
        obtain ⟨other, among, rfl⟩ := List.mem_map.mp listed
        exact .inl ⟨other, among, by simp⟩
      · rintro other listed ⟨_, row', member', sameId, approved⟩
        rw [shape] at member'
        obtain ⟨origin, among, rfl⟩ := List.mem_map.mp member'
        rw [proposalId_approvedRow] at sameId
        obtain rfl := eq_of_proposalId among listed sameId
        obtain rfl := own origin among (approvedRow_approved.mp approved)
        exact ⟨draft, based⟩

/-- What holds of everything committed. -/
structure InForce (state : Authority φ) : Prop where
  named : ∀ proposalId, state.activeApprovedProposalId = some proposalId ↔
    ∃ row ∈ state.rows, row.proposalId = proposalId ∧ row.lifecycle = .approved
  based : ∀ row ∈ state.rows, row.basedOnRevision ≤ state.revision

theorem InForce.coherent {state : Authority φ} (inForce : InForce state) : Coherent state where
  named := inForce.named
  approvedOnce := by
    intro row member other member' approved approved'
    apply eq_of_proposalId member member'
    have first := (inForce.named row.proposalId).mpr ⟨row, member, rfl, approved⟩
    have second := (inForce.named other.proposalId).mpr ⟨other, member', rfl, approved'⟩
    exact Option.some.inj (first.symm.trans second)

/-- Every row is based on a revision that was reached. -/
theorem Evolves.based (evolves : Evolves before after)
    (based : ∀ row ∈ before.rows, row.basedOnRevision ≤ before.revision) :
    ∀ row ∈ after.rows, row.basedOnRevision ≤ after.revision := by
  intro row' member
  have grown := evolves.revision
  obtain ⟨row, listed, same⟩ | ⟨_, fresh⟩ := evolves.added row' member
  · obtain ⟨kept, member', sameId, sameBase, _⟩ := evolves.kept row listed
    obtain rfl := eq_of_proposalId member member' (same.symm.trans sameId.symm)
    have old := based row listed
    omega
  · omega

/-- The pointer follows the approvals through every kind of change. -/
theorem Change.inForce (change : Change before after) (inForce : InForce before) : InForce after := by
  have evolves := change.evolves
  refine ⟨?_, evolves.based inForce.based⟩
  intro proposalId
  have named := inForce.named
  cases change with
  | nothing same => rw [same, named]
  | facts rows active _ => rw [active, rows, named]
  | published rows _ draft _ active _ =>
      rw [active, named, rows]
      constructor
      · rintro ⟨row, member, id, approved⟩
        exact ⟨row, List.mem_append_left _ member, id, approved⟩
      · rintro ⟨row, member, id, approved⟩
        rcases List.mem_append.mp member with old | new
        · exact ⟨row, old, id, approved⟩
        · rw [List.mem_singleton.mp new, draft] at approved
          cases approved
  | discarded rows active _ =>
      rw [active, named, rows]
      constructor
      · rintro ⟨row, member, id, approved⟩
        exact ⟨_, List.mem_map_of_mem member, by simp [id, approved], by simp [approved]⟩
      · rintro ⟨row', member, id, approved⟩
        obtain ⟨row, listed, rfl⟩ := List.mem_map.mp member
        split_ifs at approved id with discarded
        · simp at approved
        · exact ⟨row, listed, id, approved⟩
  | superseded rows active _ =>
      rw [active, rows, Option.filter_eq_some_iff, named]
      constructor
      · rintro ⟨⟨row, member, id, approved⟩, kept⟩
        exact ⟨_, List.mem_map_of_mem member, by simp_all, by simp_all⟩
      · rintro ⟨row', member, id, approved⟩
        obtain ⟨row, listed, rfl⟩ := List.mem_map.mp member
        split_ifs at approved id with lost
        · simp at approved
        · refine ⟨⟨row, listed, id, approved⟩, ?_⟩
          simp only [id, approved, and_true] at lost
          simpa using lost
  | approved member _ _ rows active _ =>
      rename_i row now _ _ _
      have shape : after.rows = before.rows.map (approvedRow row.proposalId now) := by
        rw [rows, List.map_map]
        rfl
      rw [active, shape, Option.some.injEq]
      constructor
      · rintro rfl
        exact ⟨_, List.mem_map_of_mem member, by simp, approvedRow_approved.mpr rfl⟩
      · rintro ⟨row', listed, id, approved⟩
        obtain ⟨other, _, rfl⟩ := List.mem_map.mp listed
        rw [← id, proposalId_approvedRow, approvedRow_approved.mp approved]

end Changes

section Runs

variable (sha : Digester) (plans : List String) (facts : φ)

/-- What is committed after some steps of the writers, from a catalog without proposals. -/
def committedAfter (actions : List (WriterStep (Operation φ))) : Authority φ :=
  (run (Database.step (transaction sha)) (Database.initial (Authority.seeded plans facts))
    actions).committed

/-- From the publication of a proposal to the step that approves it, the revision is the one it is
    based on. -/
def ApprovedAtItsRevision : Prop :=
  ∀ published middle action, ∀ row ∈ (committedAfter sha plans facts published).rows,
    BecomesApproved (committedAfter sha plans facts (published ++ middle))
        (committedAfter sha plans facts (published ++ middle ++ [action])) row.proposalId →
      ∀ early late, middle = early ++ late →
        ((committedAfter sha plans facts (published ++ early)).revision : Int) = row.basedOnRevision

theorem evolves_after (actions : List (WriterStep (Operation φ))) (action : WriterStep (Operation φ)) :
    Evolves (committedAfter sha plans facts actions)
      (committedAfter sha plans facts (actions ++ [action])) := by
  obtain same | ⟨op, effect⟩ := @Database.committed_snoc _ _ _ (transaction sha)
    (Authority.seeded plans facts) actions action
  · exact (Change.nothing same).evolves
  · exact (change_of_effect effect).evolves

theorem inForce_after (actions : List (WriterStep (Operation φ))) :
    InForce (committedAfter sha plans facts actions) := by
  apply Database.committed_invariant
  · intro op before after effect inForce
    exact (change_of_effect effect).inForce inForce
  · constructor
    · intro proposalId
      constructor
      · intro pointed
        cases pointed
      · rintro ⟨row, member, _⟩
        cases member
    · intro row member
      cases member

/-- Rows stay with their identifier and the revision they are based on, and the revision does not
    decrease. -/
theorem persists_after (before later : List (WriterStep (Operation φ))) :
    (committedAfter sha plans facts before).revision ≤
        (committedAfter sha plans facts (before ++ later)).revision ∧
      ∀ row ∈ (committedAfter sha plans facts before).rows,
        ∃ row' ∈ (committedAfter sha plans facts (before ++ later)).rows,
          row'.proposalId = row.proposalId ∧ row'.basedOnRevision = row.basedOnRevision := by
  induction later using List.reverseRecOn with
  | nil =>
      rw [List.append_nil]
      exact ⟨le_refl _, fun row member => ⟨row, member, rfl, rfl⟩⟩
  | append_singleton later action ih =>
      obtain ⟨grown, kept⟩ := ih
      have evolves := evolves_after sha plans facts (before ++ later) action
      rw [← List.append_assoc]
      refine ⟨grown.trans evolves.revision, fun row member => ?_⟩
      obtain ⟨row', member', id, based⟩ := kept row member
      obtain ⟨row'', member'', id', based', _⟩ := evolves.kept row' member'
      exact ⟨row'', member'', id'.trans id, based'.trans based⟩

theorem approvedAtItsRevision : ApprovedAtItsRevision sha plans facts := by
  rintro published middle action row member approves early late rfl
  obtain ⟨_, kept⟩ := persists_after sha plans facts published (early ++ late)
  obtain ⟨row', member', id, based⟩ := kept row member
  have evolves := evolves_after sha plans facts (published ++ (early ++ late)) action
  obtain ⟨_, atApproval⟩ := evolves.approves row' member' (id ▸ approves)
  have grownEarly := (persists_after sha plans facts published early).1
  have grownLate := (persists_after sha plans facts (published ++ early) late).1
  rw [List.append_assoc] at grownLate
  have reached := (inForce_after sha plans facts published).based row member
  omega

/-- After any steps of the writers, committed, refused or failed: at most one proposal is approved and
    the pointer names it; lifecycles move only from draft to approved or superseded and from approved to
    superseded, and the revision never decreases; and a proposal is approved at the revision it is based
    on, with no bump since it was published. -/
theorem approval_in_force (actions : List (WriterStep (Operation φ))) :
    Coherent (committedAfter sha plans facts actions) ∧
      (∀ action, Evolves (committedAfter sha plans facts actions)
        (committedAfter sha plans facts (actions ++ [action]))) ∧
      ApprovedAtItsRevision sha plans facts :=
  ⟨(inForce_after sha plans facts actions).coherent, evolves_after sha plans facts actions,
    approvedAtItsRevision sha plans facts⟩

end Runs

end Modelark.Proposal
