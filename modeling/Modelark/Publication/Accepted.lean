import Modelark.Publication.Journaled

/-!
# Calls that are accepted

What each call has checked when it is accepted, and the one change that it then makes to the catalog.
-/

namespace Modelark.Publication

open Library Execution
open Revision (Failure lift)
open Conversion (refused)

variable {R : Type} {rules : Rules} {scope : Scope} {c after : Catalog R} {w done : Owned R}
variable {operationId fileId batchId operationDigest : String}

/-- An operation that calls go on with: its record as it was bound, last written at this revision. -/
structure Active (rules : Rules) (c : Catalog R) (operationId operationDigest : String) (binding : Json)
    (row : OperationRow) : Prop where
  found : c.records.operations.find operationId = some row
  prepared : row.state = .prepared
  last : row.lastRevision = some c.revision
  bound : unsealText rules.sha256 (some row.binding) = .ok binding
  named : row.binding.digest = operationDigest
  filled : Scope.batchFiles binding ≠ []

/-- An operation that is open and was last written at the catalog's revision. -/
def Current (c : Catalog R) (operationId : String) : Prop :=
  ∃ row, c.records.operations.find operationId = some row ∧ row.state = .prepared ∧
    row.lastRevision = some c.revision

section Active

variable {binding : Json} {row : OperationRow}

theorem Active.isPrepared (active : Active rules c operationId operationDigest binding row) :
    IsPrepared c operationId :=
  ⟨row, active.found, active.prepared⟩

theorem Active.current (active : Active rules c operationId operationDigest binding row) :
    Current c operationId :=
  ⟨row, active.found, active.prepared, active.last⟩

end Active

theorem Scope.loadOwnedOperation_eq_ok {binding : Json} {revision : Nat}
    (loaded : scope.loadOwnedOperation rules c operationId = .ok (binding, operationDigest, revision)) :
    revision = c.revision ∧ ∃ row, Active rules c operationId operationDigest binding row := by
  simp only [Scope.loadOwnedOperation, bind_eq_ok] at loaded
  obtain ⟨_, _, loaded⟩ := loaded
  unfold Scope.loadBoundOperation at loaded
  split at loaded
  · rename_i row found
    simp only [bind_eq_ok, require_eq_ok, Bool.and_eq_true, beq_iff_eq, pure_eq_ok, Prod.mk.injEq,
      Bool.not_eq_true', List.isEmpty_eq_false_iff] at loaded
    obtain ⟨_, prepared, binding', bound, _, checks, current, _, _, _, _, last, rfl, named, rfl⟩ := loaded
    exact ⟨rfl, row, found, prepared, last.2, bound, named, checks.1.1.1.2⟩
  · cases loaded

/-- A drive that takes part has no clean anchor of its generation. -/
theorem Scope.participant_dirty {label : String} {taking : Participant}
    (taken : scope.participant c label = .ok taking) : ¬Anchored c taking := by
  unfold Scope.participant at taken
  dsimp only at taken
  split at taken
  · rename_i drive found
    split at taken
    · rename_i dirty listed
      simp only [bind_eq_ok, require_eq_ok, Bool.not_eq_true', List.any_eq_false] at taken
      obtain ⟨_, clean, rest⟩ := taken
      split at rest
      · rename_i annexUuid named
        simp only [bind_eq_ok] at rest
        obtain ⟨_, _, rest⟩ := rest
        have same : taking = ⟨label, annexUuid, drive.fence.identityEpoch, drive.writeGeneration,
            drive.fence.identityFingerprint, dirty.owner⟩ := by
          split at rest <;> simp only [bind_eq_ok, pure_eq_ok] at rest
          · exact rest.choose_spec.2.symm
          · exact rest.choose_spec.2.symm
        rintro ⟨anchor, member, label', epoch, generation⟩
        rw [same] at label' epoch generation
        exact clean anchor member (by simp [label', epoch, generation])
      · cases rest
    · cases taken
  · cases taken

/-- A proof of a phase that a file has reached. -/
theorem chainStep_eq_ok {row : FileRow} {previous next : String} {phase : FilePhase}
    (reached : ¬row.phase.index < phase.index)
    (stepped : chainStep rules row operationDigest previous phase = .ok next) :
    ∃ text, row.proof phase = some text ∧ Receipt rules row operationDigest previous phase text ∧
      next = text.digest := by
  simp only [chainStep, if_neg reached, bind_eq_ok, require_eq_ok, Bool.and_eq_true, pure_eq_ok] at stepped
  obtain ⟨receipt, read, _, ⟨⟨⟨⟨⟨operation, file⟩, identifier⟩, _⟩, phase'⟩, before⟩, rfl⟩ := stepped
  cases proof : row.proof phase with
  | none =>
      rw [proof] at read
      cases read
  | some text =>
      rw [proof] at read
      exact ⟨text, rfl, ⟨receipt, read, operation, file, identifier, phase', before⟩, rfl⟩

/-- What is known of a file whose chain is read. -/
structure Traced (rules : Rules) (c : Catalog R) (operationId fileId operationDigest : String)
    (row : FileRow) : Prop where
  found : c.records.files.find fileId = some row
  own : row.operationId = operationId
  uncommitted : row.phase ≠ .catalogPublished → row.committedRevision = none
  committed : row.phase = .catalogPublished → row.committedRevision.isSome = true ∧
    ∃ localProof treeProof catalogProof, Chained rules row operationDigest localProof treeProof catalogProof

theorem fileChain_eq_ok {row : FileRow} {intent : Json} {latest : String}
    (chained : fileChain rules c operationId fileId operationDigest = .ok (row, intent, latest)) :
    Traced rules c operationId fileId operationDigest row := by
  unfold fileChain at chained
  split at chained
  · rename_i row' found
    simp only [bind_eq_ok, require_eq_ok, pure_eq_ok, Prod.mk.injEq] at chained
    obtain ⟨_, _, _, _, _, revision, _, threaded, rfl, _, _⟩ := chained
    obtain ⟨found, own⟩ := Option.filter_eq_some_iff.mp found
    refine ⟨found, by simpa using own, ?_, ?_⟩
    · intro early
      simpa [early] using revision
    · intro reached
      constructor
      · rw [if_pos reached] at revision
        exact (Option.any_eq_true _ _).mp revision |>.elim fun _ known => known.1 ▸ rfl
      · simp only [FilePhase.proven, thread_cons, thread_nil, bind_eq_ok] at threaded
        obtain ⟨first, one, second, two, third, three, _⟩ := threaded
        obtain ⟨localProof, proof, receipt, rfl⟩ := chainStep_eq_ok (by rw [reached]; decide) one
        obtain ⟨treeProof, proof', receipt', rfl⟩ := chainStep_eq_ok (by rw [reached]; decide) two
        obtain ⟨catalogProof, proof'', receipt'', _⟩ := chainStep_eq_ok (by rw [reached]; decide) three
        exact ⟨localProof, treeProof, catalogProof, ⟨proof, proof', proof''⟩, receipt, receipt', receipt''⟩
  · cases chained

theorem mem_openParticipants {operation : OperationRow} {entry : ParticipantRow}
    (listed : operation ∈ c.records.operations.rows) (opened : operation.state = .prepared)
    (taking : entry ∈ c.records.participants.rows) (own : entry.operationId = operation.operationId) :
    (operation, some entry.participant.driveLabel) ∈ openParticipants c := by
  have among : entry ∈ c.records.participants.rows.filter (·.operationId == operation.operationId) :=
    List.mem_filter.mpr ⟨taking, by simpa using own⟩
  refine List.mem_flatMap.mpr ⟨operation, List.mem_filter.mpr ⟨listed, by simp [opened]⟩, ?_⟩
  split
  · rename_i none
    rw [none] at among
    cases among
  · exact List.mem_map.mpr ⟨entry, among, rfl⟩

/-- Drives are clear when no other open operation has them. -/
theorem own_of_requireClear {closing : Option String} {labels : List String} {treeChange : Bool}
    (clear : requireClear c closing (some labels) treeChange = .ok ()) {operation : OperationRow}
    {entry : ParticipantRow} (listed : operation ∈ c.records.operations.rows)
    (opened : operation.state = .prepared) (taking : entry ∈ c.records.participants.rows)
    (own : entry.operationId = operation.operationId) (among : entry.participant.driveLabel ∈ labels) :
    closing = some operation.operationId := by
  simp only [requireClear, bind_eq_ok, require_eq_ok, Bool.and_eq_true, Bool.not_eq_true',
    List.any_eq_false] at clear
  obtain ⟨_, _, unblocked, _⟩ := clear
  have none' := unblocked _ (mem_openParticipants listed opened taking own)
  by_contra differ
  apply none'
  simp [differ, among]

/-- An anchor that is published is of a drive that no other open operation has. -/
theorem publishAnchorLocked_adds {closing : Option String} {label now : String}
    {identityEpoch generation : Nat} {observation : Observation}
    (published : publishAnchorLocked c closing label identityEpoch generation observation now = .ok after) :
    requireClear c closing (some [label]) false = .ok () ∧ ∃ anchor : CleanAnchor,
      anchor.driveLabel = label ∧
        after = { c with fleet := { c.fleet with anchors := c.fleet.anchors ++ [anchor] } } := by
  simp only [publishAnchorLocked, lift, bind_eq_ok, mapError_eq_ok, Fleet.publishAnchorLocked, pure_eq_ok]
    at published
  obtain ⟨_, clear, fleet, ⟨drive, _, _, _, _, _, rfl⟩, rfl⟩ := published
  exact ⟨clear, _, rfl, rfl⟩

theorem deferRevisionOnce_catalog {marker : Marker} (deferred : w.deferRevisionOnce marker = .ok done) :
    done.catalog = w.catalog := by
  unfold Owned.deferRevisionOnce at deferred
  split at deferred
  · cases deferred
    rfl
  · simp only [bind_eq_ok, pure_eq_ok] at deferred
    obtain ⟨_, _, rfl⟩ := deferred
    rfl

theorem stampOperation_catalog {previous : Option Nat} {created : Bool}
    (stamped : w.stampOperation operationId previous created = .ok done) : done.catalog = w.catalog :=
  deferRevisionOnce_catalog stamped

theorem prepareOperation_change {kind : OperationKind} {profileDigest text : String}
    {batchFiles : List (String × List String)} {beforeState : Json}
    (accepted : Store.prepareOperation rules scope operationId kind profileDigest batchFiles beforeState w =
      .ok (done, text)) : Change rules w.catalog none done.catalog := by
  simp only [Store.prepareOperation, bind_eq_ok] at accepted
  obtain ⟨_, _, _, _, _, _, _, _, _, _, _, _, _, _, _, _, participants, taken, rest⟩ := accepted
  split at rest
  · rename_i operations operationInserted
    simp only [bind_eq_ok] at rest
    obtain ⟨_, _, rest⟩ := rest
    split at rest
    · rename_i taking participantsInserted
      split at rest
      · rename_i batches batchesInserted
        simp only [bind_eq_ok, pure_eq_ok, Prod.mk.injEq] at rest
        obtain ⟨stamped, stamp, rfl, _⟩ := rest
        have catalog := stampOperation_catalog stamp
        dsimp only at catalog ⊢
        rw [catalog]
        apply Change.operation _ _ _ operations taking batches rfl rfl operationInserted
          participantsInserted batchesInserted
        intro entry member
        obtain ⟨participant, among, rfl⟩ := List.mem_map.mp member
        refine ⟨rfl, ?_⟩
        obtain ⟨_, listed⟩ := collect_eq_ok.mp taken
        rw [listed] at among
        obtain ⟨label, _, kept⟩ := List.mem_filterMap.mp among
        rw [Option.join_eq_some_iff, toOption_eq_some, map_eq_ok] at kept
        obtain ⟨other, found, same⟩ := kept
        cases same
        exact scope.participant_dirty found
      · cases rest
    · cases rest
  · cases rest

theorem prepareFile_change {intent : Json} {text : String}
    (accepted : Store.prepareFile rules scope operationId batchId fileId intent w = .ok (done, text)) :
    Change rules w.catalog (some (fileId, .prepared)) done.catalog ∧ Current w.catalog operationId := by
  simp only [Store.prepareFile, bind_eq_ok] at accepted
  obtain ⟨⟨binding, operationDigest, revision⟩, loaded, _, _, _, _, rest⟩ := accepted
  obtain ⟨_, row, active⟩ := Scope.loadOwnedOperation_eq_ok loaded
  split at rest
  · rename_i files inserted
    simp only [bind_eq_ok, pure_eq_ok, Prod.mk.injEq] at rest
    obtain ⟨stamped, stamp, rfl, _⟩ := rest
    refine ⟨?_, active.current⟩
    rw [stampOperation_catalog stamp]
    exact Change.file _ files rfl inserted
  · cases rest

theorem callCas_eq_ok {catalogCas : Option (CatalogCas R)} {write : CatalogWrite} {frozen : Json}
    (called : Store.callCas catalogCas write frozen c = .ok after) :
    ∃ drives rest, after = { c with fleet := { c.fleet with drives }, rest } := by
  unfold Store.callCas at called
  split at called
  · cases called
    exact ⟨c.fleet.drives, c.rest, rfl⟩
  · split at called
    · simp only [bind_eq_ok, pure_eq_ok] at called
      obtain ⟨⟨drives, rest⟩, _, rfl⟩ := called
      exact ⟨drives, rest, rfl⟩
    · cases called

theorem advanceFile_change {phase : FilePhase} {proof : Json} {catalogCas : Option (CatalogCas R)}
    {text : String}
    (accepted : Store.advanceFile rules scope operationId fileId phase proof catalogCas w = .ok (done, text)) :
    Change rules w.catalog (some (fileId, phase)) done.catalog ∧ Current w.catalog operationId := by
  simp only [Store.advanceFile, bind_eq_ok] at accepted
  obtain ⟨⟨binding, operationDigest, revision⟩, loaded, rest⟩ := accepted
  obtain ⟨_, operation, active⟩ := Scope.loadOwnedOperation_eq_ok loaded
  split at rest
  · rename_i expected known
    simp only [bind_eq_ok, require_eq_ok, Bool.and_eq_true, beq_iff_eq] at rest
    obtain ⟨⟨row, intent, previous⟩, chained, _, ⟨phase', _⟩, _, _, called, calling, stamped, stamp, rest⟩ :=
      rest
    obtain ⟨drives, others, rfl⟩ := callCas_eq_ok calling
    have traced := fileChain_eq_ok chained
    have named : row.fileId = fileId := ((Table.find_eq_some _).mp traced.found).2
    have own := traced.own
    dsimp only at phase' own
    subst named own
    simp only [pure_eq_ok, Prod.mk.injEq] at rest
    obtain ⟨rfl, _⟩ := rest
    refine ⟨?_, active.current⟩
    rw [stampOperation_catalog stamp]
    have change : Change rules w.catalog (some (row.fileId, phase)) _ := .advance row phase (sealText rules.sha256 (.obj
      [("version", .int protocol), ("operation_digest", .str operationDigest),
        ("file_digest", .str row.intent.digest), ("phase", .str phase.text), ("proof", proof),
        ("file_id", .str row.fileId), ("batch_id", .str row.batchId),
        ("previous_proof_digest", .str previous)])) drives others traced.found (phase' ▸ known)
      active.isPrepared
    split <;> exact change
  · cases rest

theorem propagateBatch_change {mapProof : Json} {text : String}
    (accepted : Store.propagateBatch rules scope operationId batchId mapProof w = .ok (done, text)) :
    Change rules w.catalog none done.catalog ∧ Current w.catalog operationId := by
  simp only [Store.propagateBatch, bind_eq_ok] at accepted
  obtain ⟨⟨binding, operationDigest, revision⟩, loaded, rest⟩ := accepted
  obtain ⟨_, operation, active⟩ := Scope.loadOwnedOperation_eq_ok loaded
  split at rest
  · simp only [bind_eq_ok, pure_eq_ok, Prod.mk.injEq] at rest
    obtain ⟨_, _, _, _, _, _, _, _, _, _, stamped, stamp, rfl, _⟩ := rest
    refine ⟨?_, active.current⟩
    rw [stampOperation_catalog stamp]
    exact Change.batch operationId batchId _ active.isPrepared
  · cases rest

/-- A file that a batch is closed with. -/
theorem published_of_current {child : String × Json}
    (listed : child ∈ Store.currentChildren c operationId batchId)
    (chained : ∃ traced, fileChain rules c operationId child.1 operationDigest = .ok traced) :
    Published rules c operationId batchId operationDigest child.1 := by
  obtain ⟨row, among, rfl⟩ := List.mem_map.mp listed
  obtain ⟨⟨row', intent, latest⟩, chained⟩ := chained
  have traced := fileChain_eq_ok chained
  have found := traced.found
  simp only [Store.filesOf, List.mem_filter, mem_sortBy, Bool.and_eq_true, beq_iff_eq] at among
  have same : row' = row :=
    Option.some.inj (found.symm.trans ((Table.find_eq_some _).mpr ⟨among.1.1, rfl⟩))
  rw [same] at traced
  exact ⟨row, traced.found, traced.own, among.1.2.2, among.2.1, (traced.committed among.2.1).1,
    (traced.committed among.2.1).2⟩

/-- A batch that an operation is closed with. -/
theorem closedBatch_eq_ok {binding : Json} {revision : Nat} {row : BatchRow}
    {kept : Option (String × Json)}
    (closed : Store.closedBatch rules c operationId operationDigest binding revision row = .ok kept) :
    row.phase = .propagated ∧ row.committedRevision.isSome = true ∧
      ∀ file ∈ Scope.children binding row.batchId, ∃ fileId, file = .str fileId ∧
        Published rules c operationId row.batchId operationDigest fileId := by
  simp only [Store.closedBatch, bind_eq_ok, require_eq_ok, Bool.and_eq_true, beq_iff_eq] at closed
  obtain ⟨_, ⟨phase, committed⟩, _, _, _, _, _, _, _, ⟨_, bound⟩, _, chained, _⟩ := closed
  refine ⟨phase, ?_, ?_⟩
  · obtain ⟨_, known, _⟩ := (Option.any_eq_true _ _).mp committed
    rw [known]
    rfl
  · intro file member
    have texts := Json.arr.inj (same_iff.mp bound)
    rw [← texts] at member
    obtain ⟨child, listed, rfl⟩ := List.mem_map.mp member
    have checked := of_thread_checks chained child listed
    simp only [bind_eq_ok, pure_eq_ok] at checked
    obtain ⟨traced, found, _⟩ := checked
    exact ⟨child.1, rfl, published_of_current listed ⟨traced, found⟩⟩

theorem anchored_of_thread {observations : List (String × Observation)} {participants : List Participant}
    {now : String}
    (anchored : thread (fun c (taking : Participant) => do
      let some (_, observation) := observations.find? (·.1 == taking.driveLabel)
        | .error (.raised "KeyError")
      publishAnchorLocked c (some operationId) taking.driveLabel taking.identityEpoch taking.generation
        observation now) c participants = .ok after) :
    ∃ fleet, after = { c with fleet } ∧ fleet.plannerRevision = c.revision ∧
      ∀ anchor ∈ fleet.anchors, anchor ∈ c.fleet.anchors ∨ Closes c operationId anchor := by
  apply thread_invariant (fun state => ∃ fleet, state = { c with fleet } ∧
    fleet.plannerRevision = c.revision ∧
      ∀ anchor ∈ fleet.anchors, anchor ∈ c.fleet.anchors ∨ Closes c operationId anchor) _ anchored
    ⟨c.fleet, rfl, rfl, fun _ member => .inl member⟩
  rintro _ taking next _ published ⟨fleet, rfl, revision, known⟩
  split at published
  · obtain ⟨clear, anchor, label, rfl⟩ := publishAnchorLocked_adds published
    refine ⟨_, rfl, revision, fun other member => ?_⟩
    rcases List.mem_append.mp member with old | new
    · exact known other old
    · right
      rw [List.mem_singleton.mp new]
      intro operation listed opened entry taken own drive
      have owner := own_of_requireClear clear listed opened taken own (by simp [drive, label])
      exact (Option.some.inj owner).symm
  · cases published

theorem closeOperation_change {observations : List (String × Observation)}
    {inventoryProofs : List (String × Json)} {now text : String}
    (accepted : Store.closeOperation rules scope operationId observations inventoryProofs now w =
      .ok (done, text)) :
    Change rules w.catalog none done.catalog ∧ Current w.catalog operationId := by
  simp only [Store.closeOperation, bind_eq_ok, require_eq_ok, beq_iff_eq, pure_eq_ok, Prod.mk.injEq]
    at accepted
  obtain ⟨⟨binding, operationDigest, revision⟩, loaded, _, _, _, _, _, named, seals, collected, _, _,
    anchored, threaded, rfl, _⟩ := accepted
  obtain ⟨_, operation, active⟩ := Scope.loadOwnedOperation_eq_ok loaded
  refine ⟨?_, active.current⟩
  obtain ⟨fleet, rfl, revision', anchors⟩ := anchored_of_thread threaded
  have identifier : operation.operationId = operationId := ((Table.find_eq_some _).mp active.found).2
  obtain ⟨each, _⟩ := collect_eq_ok.mp collected
  have complete : Complete rules w.catalog operation.operationId operation.binding := by
    refine ⟨binding, active.bound, active.filled, fun batch listed => ?_⟩
    have among : batch.1 ∈ sortBy id ((Scope.batchFiles binding).map Prod.fst) :=
      mem_sortBy.mpr (List.mem_map_of_mem listed)
    rw [← named] at among
    obtain ⟨row, member, same⟩ := List.mem_map.mp among
    obtain ⟨kept, closed⟩ := each row member
    obtain ⟨phase, committed, files⟩ := closedBatch_eq_ok closed
    simp only [mem_sortBy, List.mem_filter, beq_iff_eq] at member
    rw [active.named, identifier, ← same]
    exact ⟨⟨row, (Table.find_eq_some _).mpr ⟨member.1, by rw [BatchRow.key, member.2]⟩, phase, committed⟩,
      files⟩
  subst identifier
  exact Change.close operation fleet _ active.found revision' anchors complete

end Modelark.Publication
