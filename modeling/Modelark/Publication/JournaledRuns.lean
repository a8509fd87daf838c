import Modelark.Publication.Accepted

/-!
# Runs of a publication

What the records say is kept by every call, by what is done at the end of a transaction and by other
writers, and so holds after every run.
-/

namespace Modelark.Publication

open Library Execution
open Revision (Failure lift)
open Conversion (refused)

variable {R : Type} {rules : Rules} {scope : Scope} {c after : Catalog R} {w done : Owned R}
variable {operationId fileId : String} {entered : Option (String × FilePhase)} {calls : List (Call R)}

/-- A row that an update does not select. -/
theorem find_spared {ρ κ : Type} [DecidableEq κ] {key : ρ → κ} {table : Table key} {where' : ρ → Bool}
    {change : ρ → ρ} {wanted : κ} {row : ρ} (keeps : ∀ row, key (change row) = key row)
    (found : table.find wanted = some row) (spared : where' row = false) :
    (table.update where' change keeps).find wanted = some row := by
  rw [Table.find_update_map, found]
  simp [spared]

/-- The phases that a file has reached. -/
def reached (c : Catalog R) (fileId : String) : List FilePhase :=
  ((c.records.files.find fileId).map fun row => row.phase.upTo).getD []

namespace Change

variable (change : Change rules c entered after)
include change

/-- A call puts a file into the phase after the one that it is in, or begins it. -/
theorem reached (fileId : String) :
    reached after fileId = reached c fileId ++ ((entered.filter (·.1 == fileId)).map Prod.snd).toList := by
  cases change with
  | operation | batch | close | actions | same => exact (List.append_nil _).symm
  | file row files begun inserted =>
      simp only [Publication.reached, Catalog.setFiles, Table.find_insert? inserted]
      split_ifs with here
      · have fresh : c.records.files.find fileId = none := by
          rw [← Option.not_isSome_iff_eq_none]
          intro taken
          obtain ⟨old, found⟩ := Option.isSome_iff_exists.mp taken
          obtain ⟨member, key⟩ := (Table.find_eq_some _).mp found
          exact Table.fresh_of_insert? inserted old member (key.trans here.symm)
        simp [fresh, here, begun, FilePhase.upTo, FilePhase.index, Option.filter]
      · simp [here]
  | advance row phase stored drives rest found expected active =>
      simp only [Publication.reached, Catalog.setFiles, Table.find_update_map]
      by_cases here : row.fileId = fileId
      · subst here
        simp [found, FilePhase.upTo_of_expected expected, Option.filter]
      · cases other : c.records.files.find fileId with
        | none => simp [here]
        | some old =>
            have named : old.fileId = fileId := ((Table.find_eq_some _).mp other).2
            have apart : ¬old.fileId = row.fileId := fun same => here (same.symm.trans named)
            simp [here, apart]

/-- An operation after a call was there before, is begun by the call, or is closed by it. -/
theorem operations {row : OperationRow} (listed : row ∈ after.records.operations.rows) :
    row ∈ c.records.operations.rows ∨
      (row.state = .prepared ∧ row.lastRevision = none ∧
        ∀ old ∈ c.records.operations.rows, old.operationId ≠ row.operationId) ∨
      (row.state = .closed ∧ Complete rules after row.operationId row.binding) := by
  cases change with
  | operation new taking opening operations participants batches begun unmarked operationInserted =>
      rcases List.mem_append.mp (Table.rows_insert? operationInserted ▸ listed) with old | new'
      · exact .inl old
      · rw [List.mem_singleton.mp new']
        exact .inr (.inl ⟨begun, unmarked, Table.fresh_of_insert? operationInserted⟩)
  | close operation fleet closure found _ _ complete =>
      obtain ⟨old, member, same⟩ := List.mem_map.mp listed
      split_ifs at same with here
      · have one : old = operation := by
          have key : old.operationId = operation.operationId := by simpa using here
          exact Option.some.inj (((Table.find_eq_some _).mpr ⟨member, key⟩).symm.trans found)
        rw [← same, one]
        exact .inr (.inr ⟨rfl, complete.later ⟨fun _ _ kept _ _ => kept, fun _ _ kept _ => kept⟩⟩)
      · exact .inl (same ▸ member)
  | file | advance | batch | actions | same => exact .inl listed

/-- The operations before a call are there after it. -/
theorem operation_found {row : OperationRow} (found : c.records.operations.find operationId = some row) :
    ∃ row', after.records.operations.find operationId = some row' := by
  cases change with
  | operation _ _ _ _ _ _ _ _ operationInserted => exact ⟨row, Table.find_of_insert? operationInserted found⟩
  | close => exact ⟨_, by rw [Catalog.setOperations, Table.find_update_map, found]; rfl⟩
  | file | advance | batch | actions | same => exact ⟨row, found⟩

/-- The participants after a call were there before, or are of an operation that is begun. -/
theorem participants {entry : ParticipantRow} (listed : entry ∈ after.records.participants.rows) :
    entry ∈ c.records.participants.rows ∨
      ¬Anchored after entry.participant ∧
        ∃ row, after.records.operations.find entry.operationId = some row := by
  cases change with
  | operation new taking opening operations participants batches begun unmarked operationInserted
      participantsInserted _ dirty =>
      rcases List.mem_append.mp (Table.rows_insertAll? participantsInserted ▸ listed) with old | new'
      · exact .inl old
      · obtain ⟨own, clean⟩ := dirty entry new'
        refine .inr ⟨clean, new, ?_⟩
        rw [own, Table.find_insert? operationInserted, if_pos rfl]
  | file | advance | batch | close | actions | same => exact .inl listed

/-- A generation that takes part in an operation that stays open gets no clean anchor. -/
theorem unanchored {operation : OperationRow} {entry : ParticipantRow}
    (listed : operation ∈ after.records.operations.rows) (opened : operation.state = .prepared)
    (old : operation ∈ c.records.operations.rows) (taking : entry ∈ c.records.participants.rows)
    (own : entry.operationId = operation.operationId) (clean : ¬Anchored c entry.participant) :
    ¬Anchored after entry.participant := by
  cases change with
  | close row fleet closure found _ anchors _ =>
      rintro ⟨anchor, member, label, rest⟩
      rcases anchors anchor member with there | closes
      · exact clean ⟨anchor, there, label, rest⟩
      · have closing := closes operation old opened entry taking own label.symm
        obtain ⟨other, among, same⟩ := List.mem_map.mp listed
        split_ifs at same with here
        · rw [← same] at opened
          cases opened
        · rw [same] at here
          exact here (by simpa using closing)
  | operation | file | advance | batch | actions | same => exact clean

/-- What is finished of an operation that is closed stays. -/
theorem finished {row : OperationRow} (found : c.records.operations.find operationId = some row)
    (closed : row.state = .closed) : Finished c after operationId := by
  have apart : ∀ {other}, IsPrepared c other → other ≠ operationId := by
    rintro other ⟨row', found', prepared⟩ rfl
    rw [found] at found'
    cases found'
    rw [closed] at prepared
    cases prepared
  cases change with
  | operation _ _ _ _ _ _ _ _ _ _ batchesInserted =>
      exact ⟨fun _ _ kept _ _ => kept, fun _ _ kept _ => Table.find_of_insertAll? batchesInserted kept⟩
  | file _ _ _ inserted =>
      exact ⟨fun _ _ kept _ _ => Table.find_of_insert? inserted kept, fun _ _ kept _ => kept⟩
  | advance other phase stored drives rest _ _ active =>
      refine ⟨fun fileId kept found own _ => ?_, fun _ _ kept _ => kept⟩
      have differ : ¬kept.operationId = other.operationId := fun same => apart active (same.symm.trans own)
      exact find_spared (fun row => row.advanced_fileId phase stored) found (by simp [differ])
  | batch other batchId stored active =>
      refine ⟨fun _ _ kept _ _ => kept, fun batchId' kept found _ => ?_⟩
      have key : kept.key = (operationId, batchId') := ((Table.find_eq_some _).mp found).2
      have differ : ¬operationId = other := fun same => apart active same.symm
      have spared : (kept.key == (other, batchId)) = false := by simp [key, differ]
      unfold Catalog.setBatches
      apply find_spared _ found
      · exact spared
      · exact fun _ => rfl
  | close => exact ⟨fun _ _ kept _ _ => kept, fun _ _ kept _ => kept⟩
  | actions | same => exact ⟨fun _ _ kept _ _ => kept, fun _ _ kept _ => kept⟩

end Change

theorem Change.revision (change : Change rules c entered after) : after.revision = c.revision := by
  cases change with
  | close _ _ _ _ revision => exact revision
  | operation | file | advance | batch | actions | same => rfl

/-- An operation that calls can go on with was there before the transaction's calls. -/
theorem Change.current (change : Change rules c entered after) (current : Current after operationId) :
    Current c operationId := by
  obtain ⟨row, found, opened, last⟩ := current
  obtain ⟨listed, key⟩ := (Table.find_eq_some _).mp found
  rcases change.operations listed with old | ⟨_, unmarked, _⟩ | ⟨closed, _⟩
  · exact ⟨row, (Table.find_eq_some _).mpr ⟨old, key⟩, opened, change.revision ▸ last⟩
  · rw [last] at unmarked
    cases unmarked
  · rw [closed] at opened
    cases opened

theorem stamp_catalog {actionId sealHash : String} {status : ActionStatus} {revision : Nat}
    (stamped : Actions.stamp w operationId actionId sealHash status revision = .ok done) :
    done.catalog = w.catalog := by
  simp only [Actions.stamp, bind_eq_ok] at stamped
  obtain ⟨marked, mark, stamp⟩ := stamped
  exact (stampOperation_catalog stamp).trans (deferRevisionOnce_catalog mark)

theorem prepareAction_change {actionId : String} {kind : ActionKind} {intent : Json}
    (accepted : Actions.prepare rules scope actionId kind intent w = .ok done) :
    Change rules w.catalog none done.catalog := by
  simp only [Actions.prepare, bind_eq_ok] at accepted
  obtain ⟨_, _, _, _, rest⟩ := accepted
  split at rest
  · simp only [bind_eq_ok, pure_eq_ok] at rest
    obtain ⟨_, _, _, _, _, _, rfl⟩ := rest
    exact .same
  · simp only [bind_eq_ok] at rest
    obtain ⟨_, _, rest⟩ := rest
    split at rest
    · rename_i actions inserted
      rw [stamp_catalog rest]
      exact .actions actions
    · cases rest

theorem verifyAction_change {actionId intentDigest : String} {receipt : Json}
    (accepted : Actions.verify rules scope actionId intentDigest receipt w = .ok done) :
    Change rules w.catalog none done.catalog := by
  simp only [Actions.verify, bind_eq_ok] at accepted
  obtain ⟨_, _, _, _, _, _, _, _, _, _, _, _, _, _, rest⟩ := accepted
  split at rest
  · simp only [bind_eq_ok, pure_eq_ok] at rest
    obtain ⟨_, _, rfl⟩ := rest
    exact .same
  · simp only [bind_eq_ok] at rest
    obtain ⟨actions, _, stamped⟩ := rest
    rw [stamp_catalog stamped]
    exact .actions actions

/-- An accepted call makes one change, and goes on only with an operation that is current. -/
theorem Call.perform_change {call : Call R} (performed : call.perform rules scope w = .ok done) :
    Change rules w.catalog call.enters done.catalog ∧
      ∀ operationId, call.continues = some operationId → Current w.catalog operationId := by
  cases call with
  | prepareOperation operationId kind profileDigest batchFiles beforeState =>
      obtain ⟨⟨_, text⟩, accepted, rfl⟩ := map_eq_ok.mp performed
      exact ⟨prepareOperation_change accepted, by simp [Call.continues]⟩
  | prepareFile operationId batchId fileId intent =>
      obtain ⟨⟨_, text⟩, accepted, rfl⟩ := map_eq_ok.mp performed
      obtain ⟨change, current⟩ := prepareFile_change accepted
      exact ⟨change, fun _ same => Option.some.inj same ▸ current⟩
  | advanceFile operationId fileId phase proof catalogCas =>
      obtain ⟨⟨_, text⟩, accepted, rfl⟩ := map_eq_ok.mp performed
      obtain ⟨change, current⟩ := advanceFile_change accepted
      exact ⟨change, fun _ same => Option.some.inj same ▸ current⟩
  | propagateBatch operationId batchId mapProof =>
      obtain ⟨⟨_, text⟩, accepted, rfl⟩ := map_eq_ok.mp performed
      obtain ⟨change, current⟩ := propagateBatch_change accepted
      exact ⟨change, fun _ same => Option.some.inj same ▸ current⟩
  | closeOperation operationId observations inventoryProofs now =>
      obtain ⟨⟨_, text⟩, accepted, rfl⟩ := map_eq_ok.mp performed
      obtain ⟨change, current⟩ := closeOperation_change accepted
      exact ⟨change, fun _ same => Option.some.inj same ▸ current⟩
  | prepareAction actionId kind intent =>
      exact ⟨prepareAction_change performed, by simp [Call.continues]⟩
  | verifyAction actionId intentDigest receipt =>
      exact ⟨verifyAction_change performed, by simp [Call.continues]⟩

theorem phases_snoc (call : Call R) : Call.phases fileId (calls ++ [call]) =
    Call.phases fileId calls ++ ((call.enters.filter (·.1 == fileId)).map Prod.snd).toList := by
  unfold Call.phases
  rw [List.filterMap_append]
  cases found : (call.enters.filter (·.1 == fileId)).map Prod.snd <;> simp only [List.filterMap_cons, found] <;> rfl

theorem Journaled.change (journaled : Journaled rules c calls) (change : Change rules c entered after)
    {call : Call R} (enters : call.enters = entered) : Journaled rules after (calls ++ [call]) := by
  refine ⟨fun fileId => ?_, fun entry listed => ?_, fun operation listed opened entry taking own => ?_,
    fun operation listed closed => ?_⟩
  · rw [phases_snoc, journaled.files, enters]
    exact (change.reached fileId).symm
  · rcases change.participants listed with old | ⟨_, found⟩
    · obtain ⟨operation, found⟩ := journaled.known entry old
      exact change.operation_found found
    · exact found
  · rcases change.participants taking with before | ⟨clean, _⟩
    · rcases change.operations listed with old | ⟨_, _, fresh⟩ | ⟨closed, _⟩
      · exact change.unanchored listed opened old before own (journaled.clean operation old opened entry before own)
      · obtain ⟨other, found⟩ := journaled.known entry before
        obtain ⟨member, key⟩ := (Table.find_eq_some _).mp found
        exact absurd (key.trans own) (fresh other member)
      · rw [closed] at opened
        cases opened
    · exact clean
  · rcases change.operations listed with old | ⟨prepared, _⟩ | ⟨_, complete⟩
    · have found := (Table.find_eq_some _).mpr ⟨old, rfl⟩
      exact (journaled.complete operation old closed).later (change.finished found closed)
    · rw [closed] at prepared
      cases prepared
    · exact complete

/-- What no call has done: the records go on to say what they say. -/
structure Kept (c after : Catalog R) : Prop where
  files : ∀ fileId, reached after fileId = reached c fileId
  participants : after.records.participants = c.records.participants
  operations : ∀ row ∈ after.records.operations.rows, ∃ old ∈ c.records.operations.rows,
    old.operationId = row.operationId ∧ old.state = row.state ∧ old.binding = row.binding
  found : ∀ operationId row, c.records.operations.find operationId = some row →
    ∃ row', after.records.operations.find operationId = some row'
  anchored : ∀ operation ∈ c.records.operations.rows, operation.state = .prepared →
    ∀ entry ∈ c.records.participants.rows, entry.operationId = operation.operationId →
      Anchored after entry.participant → Anchored c entry.participant
  finished : ∀ operationId, Finished c after operationId

theorem Journaled.kept (journaled : Journaled rules c calls) (kept : Kept c after) :
    Journaled rules after calls := by
  refine ⟨fun fileId => ?_, fun entry listed => ?_, fun operation listed opened entry taking own => ?_,
    fun operation listed closed => ?_⟩
  · exact (journaled.files fileId).trans (kept.files fileId).symm
  · rw [kept.participants] at listed
    obtain ⟨operation, found⟩ := journaled.known entry listed
    exact kept.found _ _ found
  · obtain ⟨old, among, same, state, _⟩ := kept.operations operation listed
    rw [kept.participants] at taking
    have opened' := state.trans opened
    have own' := own.trans same.symm
    intro clean
    exact journaled.clean old among opened' entry taking own'
      (kept.anchored old among opened' entry taking own' clean)
  · obtain ⟨old, among, same, state, binding⟩ := kept.operations operation listed
    rw [← same, ← binding]
    exact (journaled.complete old among (state.trans closed)).later (kept.finished _)

namespace Kept

theorem of_operations (operations : after.records.operations = c.records.operations)
    (participants : after.records.participants = c.records.participants)
    (files : ∀ fileId, reached after fileId = reached c fileId)
    (anchored : ∀ operation ∈ c.records.operations.rows, operation.state = .prepared →
      ∀ entry ∈ c.records.participants.rows, entry.operationId = operation.operationId →
        Anchored after entry.participant → Anchored c entry.participant)
    (finished : ∀ operationId, Finished c after operationId) : Kept c after where
  files := files
  participants := participants
  operations row listed := ⟨row, operations ▸ listed, rfl, rfl, rfl⟩
  found _ row found := ⟨row, operations ▸ found⟩
  anchored := anchored
  finished := finished

theorem of_records (records : after.records = c.records)
    (anchored : ∀ operation ∈ c.records.operations.rows, operation.state = .prepared →
      ∀ entry ∈ c.records.participants.rows, entry.operationId = operation.operationId →
        Anchored after entry.participant → Anchored c entry.participant) : Kept c after := by
  apply of_operations _ _ _ anchored
  · exact fun _ => ⟨fun _ _ found _ _ => records ▸ found, fun _ _ found _ => records ▸ found⟩
  · rw [records]
  · rw [records]
  · intro fileId
    rw [reached, reached, records]

theorem setOperations {where' : OperationRow → Bool} {change : OperationRow → OperationRow}
    {keeps : ∀ row, (change row).operationId = row.operationId}
    (marks : ∀ row, (change row).state = row.state ∧ (change row).binding = row.binding) :
    Kept c (c.setOperations (c.records.operations.update where' change keeps)) where
  files _ := rfl
  participants := rfl
  operations row listed := by
    obtain ⟨old, member, same⟩ := List.mem_map.mp listed
    refine ⟨old, member, ?_⟩
    split_ifs at same
    · rw [← same]
      exact ⟨(keeps old).symm, (marks old).1.symm, (marks old).2.symm⟩
    · rw [same]
      exact ⟨rfl, rfl, rfl⟩
  found _ _ found := ⟨_, by rw [Catalog.setOperations, Table.find_update_map, found]; rfl⟩
  anchored _ _ _ _ _ _ clean := clean
  finished _ := ⟨fun _ _ found _ _ => found, fun _ _ found _ => found⟩

theorem setFiles {where' : FileRow → Bool} {change : FileRow → FileRow}
    {keeps : ∀ row, (change row).fileId = row.fileId} (phases : ∀ row, (change row).phase = row.phase)
    (uncommitted : ∀ row, row.committedRevision.isSome = true → where' row = false) :
    Kept c (c.setFiles (c.records.files.update where' change keeps)) := by
  refine of_operations rfl rfl (fun fileId => ?_) (fun _ _ _ _ _ _ clean => clean) fun _ =>
    ⟨fun _ row found _ committed => find_spared keeps found (uncommitted row committed),
      fun _ _ found _ => found⟩
  simp only [reached, Catalog.setFiles, Table.find_update_map]
  cases c.records.files.find fileId with
  | none => rfl
  | some row =>
      simp only [Option.map_some, Option.getD_some]
      split_ifs
      · rw [phases]
      · rfl

theorem setBatches {where' : BatchRow → Bool} {change : BatchRow → BatchRow}
    {keeps : ∀ row, (change row).key = row.key}
    (uncommitted : ∀ row, row.committedRevision.isSome = true → where' row = false) :
    Kept c (c.setBatches (c.records.batches.update where' change keeps)) := by
  refine of_operations rfl rfl (fun _ => rfl) (fun _ _ _ _ _ _ clean => clean) fun _ => ⟨?_, ?_⟩
  · exact fun _ _ found _ _ => found
  · exact fun _ row found committed => find_spared keeps found (uncommitted row committed)

theorem setActions {actions : Table ActionRow.key} : Kept c (c.setActions actions) :=
  of_operations rfl rfl (fun _ => rfl) (fun _ _ _ _ _ _ clean => clean) fun _ =>
    ⟨fun _ _ found _ _ => found, fun _ _ found _ => found⟩

end Kept

/-- What is put off marks only what is not marked yet. -/
theorem Marker.finalize_kept {marker : Marker} {revision : Nat}
    (finalized : marker.finalize revision c = .ok after) : Kept c after := by
  cases marker with
  | operation operationId previous created =>
      simp only [Marker.finalize, updateOne, bind_eq_ok, pure_eq_ok] at finalized
      obtain ⟨_, ⟨_, _, rfl⟩, rfl⟩ := finalized
      exact .setOperations fun row => ⟨rfl, rfl⟩
  | action operationId actionId sealHash status =>
      simp only [Marker.finalize, bind_eq_ok, pure_eq_ok] at finalized
      obtain ⟨actions, _, rfl⟩ := finalized
      exact .setActions
  | file fileId sealHash =>
      simp only [Marker.finalize, updateOne, bind_eq_ok, pure_eq_ok] at finalized
      obtain ⟨_, ⟨_, _, rfl⟩, rfl⟩ := finalized
      apply Kept.setFiles
      · exact fun _ => rfl
      · intro row committed
        rw [Option.isNone_eq_false_iff.mpr committed, Bool.and_false, Bool.false_and]
  | batch operationId batchId sealHash =>
      simp only [Marker.finalize, updateOne, bind_eq_ok, pure_eq_ok] at finalized
      obtain ⟨_, ⟨_, _, rfl⟩, rfl⟩ := finalized
      apply Kept.setBatches
      intro row committed
      rw [Option.isNone_eq_false_iff.mpr committed, Bool.and_false, Bool.false_and]
  | closure operationId previous =>
      simp only [Marker.finalize, updateOne, bind_eq_ok, pure_eq_ok] at finalized
      obtain ⟨_, ⟨_, _, rfl⟩, rfl⟩ := finalized
      exact .setOperations fun row => ⟨rfl, rfl⟩

theorem Scope.bump_eq_ok (bumped : scope.bump c = .ok after) :
    after.records = c.records ∧ after.fleet.anchors = c.fleet.anchors := by
  simp only [Scope.bump, lift, bind_eq_ok, mapError_eq_ok, Fleet.bumpRevision, pure_eq_ok] at bumped
  obtain ⟨fleet, ⟨_, _, rfl⟩, rest⟩ := bumped
  split at rest
  · cases rest
    exact ⟨rfl, rfl⟩
  · split at rest
    · cases rest
      exact ⟨rfl, rfl⟩
    · cases rest

theorem Scope.bump_kept (bumped : scope.bump c = .ok after) : Kept c after := by
  obtain ⟨records, anchors⟩ := scope.bump_eq_ok bumped
  apply Kept.of_records records
  rintro _ _ _ _ _ _ ⟨anchor, listed, clean⟩
  exact ⟨anchor, anchors ▸ listed, clean⟩

theorem Journaled.finish (journaled : Journaled rules w.catalog calls)
    (finished : scope.finish w = .ok after) : Journaled rules after calls := by
  unfold Scope.finish at finished
  split at finished
  · simp only [bind_eq_ok, pure_eq_ok] at finished
    obtain ⟨_, _, rfl⟩ := finished
    exact journaled
  · simp only [bind_eq_ok] at finished
    obtain ⟨bumped, bump, threaded⟩ := finished
    apply thread_invariant (Journaled rules · calls) _ threaded
    · exact journaled.kept (scope.bump_kept bump)
    · intro _ marker _ _ finalized journaled
      exact journaled.kept (marker.finalize_kept finalized)

/-- A clean anchor is published only for a drive that no open operation has. -/
theorem publishAnchorLocked_kept {label now : String} {identityEpoch generation : Nat}
    {observation : Observation}
    (published : publishAnchorLocked c none label identityEpoch generation observation now = .ok after) :
    Kept c after := by
  obtain ⟨clear, anchor, named, rfl⟩ := publishAnchorLocked_adds published
  apply Kept.of_records
  · rfl
  · rintro operation listed opened entry taking own ⟨other, member, label', rest⟩
    rcases List.mem_append.mp member with old | new
    · exact ⟨other, old, label', rest⟩
    · rw [List.mem_singleton.mp new, named] at label'
      have owner := own_of_requireClear clear listed opened taking own (by simp [label'])
      cases owner

/-- The calls of a transaction, one after another. -/
theorem Journaled.performed {earlier : List (Call R)} (journaled : Journaled rules w.catalog earlier)
    (performed : thread (Call.perform rules scope) w calls = .ok done) :
    Journaled rules done.catalog (earlier ++ calls) ∧
      ∀ call ∈ calls, ∀ operationId, call.continues = some operationId →
        Current w.catalog operationId := by
  induction calls generalizing w earlier with
  | nil =>
      cases performed
      simpa using journaled
  | cons call calls ih =>
      simp only [thread_cons, bind_eq_ok] at performed
      obtain ⟨next, performs, rest⟩ := performed
      obtain ⟨change, current⟩ := Call.perform_change performs
      obtain ⟨after, currents⟩ := ih (journaled.change change rfl) rest
      rw [List.append_assoc, List.singleton_append] at after
      refine ⟨after, fun other member operationId continues => ?_⟩
      rcases List.mem_cons.mp member with rfl | later
      · exact current operationId continues
      · exact change.current (currents other later operationId continues)

theorem rebind_catalog {previous : Option (String × Nat)}
    (rebound : Scope.rebind previous w = .ok done) : done.catalog = w.catalog := by
  unfold Scope.rebind at rebound
  split at rebound
  · cases rebound
    rfl
  · simp only [bind_eq_ok] at rebound
    obtain ⟨_, _, rest⟩ := rebound
    split at rest
    · split_ifs at rest
      · exact stampOperation_catalog rest
      · cases rest
        rfl
    · cases rest

/-- A transaction that is committed: its callback, and then what is put off. -/
theorem Scope.write_eq_ok {bound : Option String} {callback : Owned R → Except Failure (Owned R)}
    {committed : Catalog R × Option String} (written : scope.write rules bound callback c = .ok committed) :
    ∃ called rebound, callback ⟨c, bound, [], false⟩ = .ok called ∧ rebound.catalog = called.catalog ∧
      scope.finish rebound = .ok committed.1 := by
  simp only [Scope.write, bind_eq_ok, pure_eq_ok] at written
  obtain ⟨_, _, _, _, _, _, previous, _, called, performed, _, _, rebound, rebind, after, finished, rfl⟩ :=
    written
  exact ⟨called, rebound, performed, rebind_catalog rebind, finished⟩

theorem Journaled.write {earlier : List (Call R)} {bound : Option String}
    {committed : Catalog R × Option String} (journaled : Journaled rules c earlier)
    (written : scope.write rules bound (fun w => thread (Call.perform rules scope) w calls) c =
      .ok committed) :
    Journaled rules committed.1 (earlier ++ calls) ∧
      ∀ call ∈ calls, ∀ operationId, call.continues = some operationId → Current c operationId := by
  obtain ⟨called, rebound, performed, same, finished⟩ := scope.write_eq_ok written
  obtain ⟨kept, current⟩ := journaled.performed performed
  rw [← same] at kept
  exact ⟨kept.finish finished, current⟩

/-- The catalog after a run. -/
def Event.run (rules : Rules) (c : Catalog R) (events : List (Event R)) : Catalog R :=
  events.foldl (Event.step rules) c

theorem Journaled.event {earlier : List (Call R)} (journaled : Journaled rules c earlier) (event : Event R) :
    Journaled rules (event.step rules c) (earlier ++ event.accepted rules c) ∧
      ∀ call ∈ event.accepted rules c, ∀ operationId, call.continues = some operationId →
        Current c operationId := by
  cases committed : event.commit rules c with
  | error failure =>
      have none' : event.accepted rules c = [] := by
        cases event <;> simp [Event.accepted, committed]
      rw [none', List.append_nil]
      exact ⟨by simpa [Event.step, committed, Except.toOption] using journaled, by simp⟩
  | ok after =>
      have stepped : event.step rules c = after := by simp [Event.step, committed, Except.toOption]
      rw [stepped]
      cases event with
      | write scope bound calls =>
          have all : (Event.write scope bound calls).accepted rules c = calls := by
            simp only [Event.accepted, committed]
          rw [all]
          obtain ⟨result, written, rfl⟩ := map_eq_ok.mp committed
          exact journaled.write written
      | anchor label identityEpoch generation observation now =>
          simp only [Event.accepted, List.append_nil]
          exact ⟨journaled.kept (publishAnchorLocked_kept committed), by simp⟩
      | other change =>
          simp only [Event.accepted, List.append_nil]
          cases committed
          exact ⟨journaled.kept (.of_records rfl fun _ _ _ _ _ _ clean => clean), by simp⟩

/-- A run keeps what its events keep. -/
theorem Journaled.run {earlier : List (Call R)} (journaled : Journaled rules c earlier)
    (events : List (Event R)) :
    Journaled rules (Event.run rules c events) (earlier ++ Event.history rules c events) := by
  induction events generalizing c earlier with
  | nil => simpa [Event.run, Event.history] using journaled
  | cons event events ih =>
      have after := ih (journaled.event event).1
      rwa [List.append_assoc] at after

theorem Journaled.installed (fleet : Fleet) (library : String × String) (rest : R) :
    Journaled rules ⟨fleet, .installed library, rest⟩ [] where
  files _ := rfl
  known _ listed := by cases listed
  clean _ listed := by cases listed
  complete _ listed := by cases listed

theorem Published.phases (journaled : Journaled rules c calls)
    (published : Published rules c operationId batchId operationDigest fileId) :
    Call.phases fileId calls = [.prepared, .localVerified, .treeVerified, .catalogPublished] := by
  obtain ⟨row, found, _, _, phase, _⟩ := published
  rw [journaled.files, found]
  simp [phase, FilePhase.upTo, FilePhase.proven, FilePhase.index]

/-- In every run: an operation is closed only with every file of its binding published through its phases one
    by one and every batch propagated; no file skips or repeats a phase; the drives of an open operation
    have no clean anchor; and calls go on only with an operation last written at the catalog's revision. -/
theorem closed_only_published (rules : Rules) (fleet : Fleet) (library : String × String) (rest : R)
    (events : List (Event R)) :
    let start : Catalog R := ⟨fleet, .installed library, rest⟩
    let c := Event.run rules start events
    let calls := Event.history rules start events
    (∀ operation ∈ c.records.operations.rows, operation.state = .closed →
      Complete rules c operation.operationId operation.binding ∧
        ∀ batchId fileId, Published rules c operation.operationId batchId operation.binding.digest fileId →
          Call.phases fileId calls = [.prepared, .localVerified, .treeVerified, .catalogPublished]) ∧
      (∀ fileId, ∃ reached, Call.phases fileId calls =
        [.prepared, .localVerified, .treeVerified, .catalogPublished].take reached) ∧
      (∀ operation ∈ c.records.operations.rows, operation.state = .prepared →
        ∀ entry ∈ c.records.participants.rows, entry.operationId = operation.operationId →
          ¬Anchored c entry.participant) ∧
      ∀ event : Event R, ∀ call ∈ event.accepted rules c, ∀ operationId,
        call.continues = some operationId →
          ∃ row, c.records.operations.find operationId = some row ∧ row.state = .prepared ∧
            row.lastRevision = some c.revision := by
  intro start c calls
  have journaled : Journaled rules c calls := by
    simpa using (Journaled.installed fleet library rest).run events
  refine ⟨fun operation listed closed => ⟨journaled.complete operation listed closed, ?_⟩, fun fileId => ?_,
    journaled.clean, fun event => (journaled.event event).2⟩
  · intro batchId fileId published
    exact published.phases journaled
  · rw [journaled.files]
    cases c.records.files.find fileId with
    | none => exact ⟨0, rfl⟩
    | some row => exact ⟨row.phase.index + 1, rfl⟩

end Modelark.Publication
