import Modelark.Proposal.Approval
import Modelark.Proposal.Stored

/-!
# What the hash of a proposal binds

A published payload hashes to the same digest from its rows as from memory. The canonical text does
not depend on the order of the rows, and under a collision-free digest it determines the header and
the rows.
-/

namespace Modelark.Proposal

open Modelark.Archive Library Planning Placement

section Canonical

theorem RowKind.value_injective : Function.Injective RowKind.value := by
  intro left right same
  cases left <;> cases right <;> first | rfl | exact absurd same (by decide)

theorem TaskRow.json_injective : Function.Injective TaskRow.json := by
  intro left right same
  have fields := Json.fields_of_dict_eq same rfl (by simp [TaskRow.fields])
  simp only [TaskRow.fields, List.cons.injEq, Prod.mk.injEq, true_and, and_true, Json.str.injEq,
    Json.int.injEq, Json.ofText_inj, Json.ofInt_inj] at fields
  obtain ⟨rid, kind, repo, target, source, satisfying, hash, order, guaranteed, expected, epoch,
    certificate⟩ := fields
  cases left
  cases right
  cases RowKind.value_injective kind
  simp_all

theorem FileRow.json_injective : Function.Injective FileRow.json := by
  intro left right same
  have fields := Json.fields_of_dict_eq same rfl (by simp)
  simp only [List.cons.injEq, Prod.mk.injEq, true_and, and_true, Json.str.injEq,
    Json.ofText_inj, Json.ofInt_inj] at fields
  cases left
  cases right
  simp_all

theorem Header.fields_inj {left right : Header} (same : left.fields = right.fields)
    (config : left.executionConfigHash = right.executionConfigHash) : left = right := by
  simp only [Header.fields, List.cons.injEq, Prod.mk.injEq, true_and, and_true, Json.str.injEq,
    Json.int.injEq, Json.ofText_inj, Json.arr.injEq] at same
  cases left
  cases right
  simp_all

/-- Sorted rows with equal texts are the same rows. -/
theorem perm_of_sorted_json {ρ κ : Type} [LinearOrder κ] {key : ρ → κ} {json : ρ → Json}
    (injective : Function.Injective json) {left right : List ρ}
    (same : (sortBy key left).map json = (sortBy key right).map json) : left.Perm right := by
  have sorted := List.map_injective_iff.mpr injective same
  exact (sortBy_perm key left).symm.trans (sorted ▸ sortBy_perm key right)

/-- The canonical text does not depend on the order in which rows with distinct keys are supplied. -/
theorem canonicalBytes_perm (header : List (String × Json)) {tasks tasks' : List TaskRow}
    {files files' : List FileRow} (sameTasks : tasks.Perm tasks') (sameFiles : files.Perm files')
    (taskKeys : (tasks.map TaskRow.key).Nodup) (fileKeys : (files.map FileRow.key).Nodup) :
    canonicalBytes header tasks files = canonicalBytes header tasks' files' := by
  have tasksSorted : sortBy TaskRow.key tasks = sortBy TaskRow.key tasks' :=
    sortBy_eq_of_perm sameTasks fun x left y right => List.inj_on_of_nodup_map taskKeys left right
  have filesSorted : sortBy FileRow.key files = sortBy FileRow.key files' :=
    sortBy_eq_of_perm sameFiles fun x left y right => List.inj_on_of_nodup_map fileKeys left right
  simp only [canonicalBytes, canonicalBody, tasksSorted, filesSorted]

/-- The canonical text determines the header and the rows. -/
theorem canonicalBytes_inj {header header' : List (String × Json)} {tasks tasks' : List TaskRow}
    {files files' : List FileRow}
    (same : canonicalBytes header tasks files = canonicalBytes header' tasks' files') :
    Json.dict (header.filter fun field => field.1 ∉ headerSkip) =
        Json.dict (header'.filter fun field => field.1 ∉ headerSkip) ∧
      tasks.Perm tasks' ∧ files.Perm files' := by
  have body := Json.fields_of_dict_eq (Json.dumps_injective same) rfl (by simp)
  simp only [List.cons.injEq, Prod.mk.injEq, true_and, and_true, Json.arr.injEq] at body
  obtain ⟨sameHeader, sameTasks, sameFiles⟩ := body
  exact ⟨sameHeader, perm_of_sorted_json TaskRow.json_injective sameTasks,
    perm_of_sorted_json FileRow.json_injective sameFiles⟩

end Canonical

section Headers

def Header.keys : List String :=
  ["plan_id", "based_on_revision", "mutation_kind", "mutation_args", "requirement_set_hash",
    "semantic_input_hash", "selection_before_hash", "selection_after_hash", "capacity_mode",
    "policy_version", "solver_version", "serializer_version", "gate_b_code", "derivation_mode"]

@[simp] theorem Header.map_fst_fields (header : Header) : header.fields.map Prod.fst = Header.keys := rfl

/-- A recorded configuration is hashed from the rows as it was from memory. -/
theorem Header.stored_eq_previewed {header : Header}
    (bound : truthy header.executionConfigHash = true) : header.stored = header.previewed := by
  simp [Header.stored, Header.previewed, bound]

/-- No hashed column is one that the canonical text skips. -/
theorem Header.stored_kept (header : Header) :
    header.stored.filter (fun field => field.1 ∉ headerSkip) = header.stored := by
  have kept : ∀ key ∈ Header.keys ++ ["execution_config_hash"], key ∉ headerSkip := by decide
  rw [List.filter_eq_self]
  intro field member
  have listed : field.1 ∈ Header.keys ++ ["execution_config_hash"] := by
    rcases List.mem_append.mp member with inside | bound
    · exact List.mem_append_left _ (header.map_fst_fields ▸ List.mem_map_of_mem inside)
    · split at bound
      · obtain rfl := List.mem_singleton.mp bound
        exact List.mem_append_right _ (List.mem_singleton_self _)
      · cases bound
  exact decide_eq_true (kept field.1 listed)

/-- A header that is bound to a configuration is determined by its text. -/
theorem Header.stored_inj {left right : Header}
    (same : Json.dict left.stored = Json.dict right.stored)
    (bound : truthy right.executionConfigHash = true) : left = right := by
  have sameLength := (Json.perm_of_dict_eq same).length_eq
  have leftBound : truthy left.executionConfigHash = true := by
    by_contra unbound
    simp [Header.stored, Header.fields, unbound, bound] at sameLength
  rw [Header.stored_eq_previewed bound, Header.stored_eq_previewed leftBound] at same
  have equal := Json.fields_of_dict_eq same (by simp [Header.previewed])
    (by simp [Header.previewed, Header.keys])
  obtain ⟨fields, config⟩ := List.append_inj equal rfl
  exact Header.fields_inj fields (by simpa using config)

/-- Under a collision-free digest the hash of a bound proposal determines what is hashed, and nothing
    else enters it. -/
theorem Loaded.hash_eq_iff {sha : Digester} (injective : Function.Injective sha.hash)
    {other stored : Loaded} (bound : truthy stored.header.executionConfigHash = true)
    (taskKeys : (stored.tasks.map TaskRow.key).Nodup)
    (fileKeys : (stored.files.map FileRow.key).Nodup) :
    other.hash sha = stored.hash sha ↔
      other.header = stored.header ∧ other.tasks.Perm stored.tasks ∧
        other.files.Perm stored.files := by
  constructor
  · intro same
    obtain ⟨header, tasks, files⟩ := canonicalBytes_inj (injective same)
    rw [Header.stored_kept, Header.stored_kept] at header
    exact ⟨Header.stored_inj header bound, tasks, files⟩
  · rintro ⟨header, tasks, files⟩
    have bytes := canonicalBytes_perm stored.header.stored tasks.symm files.symm taskKeys fileKeys
    simp only [Loaded.hash, proposalHash, header, bytes]

end Headers

section Published

variable {sha : Digester} {store next : Store} {proposalId now : String} {payload : Payload}

/-- What inserting a proposal leaves. -/
theorem Store.insert?_spec {columns : ProposalColumns} {tasks : List TaskRow} {files : List FileRow}
    (inserted : store.insert? columns tasks files = some next) :
    (∀ row ∈ store.proposals.rows, row.proposalId ≠ columns.proposalId) ∧
      next.proposals.rows = store.proposals.rows ++ [columns] ∧
      next.tasks.rows = store.tasks.rows ++ tasks.map (⟨columns.proposalId, ·⟩) ∧
      next.files.rows = store.files.rows ++ files.map (⟨columns.proposalId, ·⟩) := by
  unfold Store.insert? at inserted
  split at inserted
  · split at inserted
    · rename_i proposals taskTable fileTable proposed tasked filed
      split at inserted
      · cases inserted
        exact ⟨Table.fresh_of_insert? proposed, Table.rows_insert? proposed,
          Table.rows_insertAll? tasked, Table.rows_insertAll? filed⟩
      · cases inserted
    · cases inserted
  · cases inserted

theorem publishDraft_inserts {idle : Bool}
    (published : publishDraft sha proposalId now payload idle store = .ok next) :
    store.insert? (draftColumns sha proposalId now payload) payload.tasks
      (payload.files.map draftFile) = some next := by
  simp only [publishDraft, bind_eq_ok, require_eq_ok] at published
  obtain ⟨_, _, _, _, _, _, published⟩ := published
  split at published
  · split at published
    · rename_i inserted
      cases published
      exact inserted
    · cases published
  · cases published
  · cases published

/-- The rows of a fresh identifier are those that were inserted with it. -/
theorem rowsOf_published {columns : ProposalColumns} {tasks : List TaskRow} {files : List FileRow}
    (inserted : store.insert? columns tasks files = some next) :
    next.taskRowsOf columns.proposalId = tasks ∧ next.fileRowsOf columns.proposalId = files := by
  obtain ⟨fresh, _, taskRows, fileRows⟩ := Store.insert?_spec inserted
  have oldTasks : store.tasks.rows.filter (·.proposalId == columns.proposalId) = [] := by
    rw [List.filter_eq_nil_iff]
    intro task member same
    obtain ⟨row, listed, linked⟩ := store.taskLinked task member
    exact fresh row listed (linked.trans (beq_iff_eq.mp same))
  have oldFiles : store.files.rows.filter (·.proposalId == columns.proposalId) = [] := by
    rw [List.filter_eq_nil_iff]
    intro file member same
    obtain ⟨task, among, key⟩ := store.fileLinked file member
    obtain ⟨row, listed, linked⟩ := store.taskLinked task among
    have sameTask : task.proposalId = file.proposalId := congrArg Prod.fst key
    exact fresh row listed ((linked.trans sameTask).trans (beq_iff_eq.mp same))
  constructor
  · simp [Store.taskRowsOf, taskRows, oldTasks, List.filter_map, Function.comp_def]
  · simp [Store.fileRowsOf, fileRows, oldFiles, List.filter_map, Function.comp_def]

/-- The constraints of the tables keep the rows of one proposal apart. -/
theorem keys_published {columns : ProposalColumns} {tasks : List TaskRow} {files : List FileRow}
    (inserted : store.insert? columns tasks files = some next) :
    (tasks.map TaskRow.key).Nodup ∧ (files.map FileRow.key).Nodup := by
  obtain ⟨_, _, taskRows, fileRows⟩ := Store.insert?_spec inserted
  have taskKeys := next.tasks.distinct
  have fileKeys := next.files.distinct
  rw [taskRows, List.map_append] at taskKeys
  rw [fileRows, List.map_append] at fileKeys
  have ofTasks := (List.nodup_append.mp taskKeys).2.1
  have ofFiles := (List.nodup_append.mp fileKeys).2.1
  rw [List.map_map, List.Nodup, List.pairwise_map] at ofTasks ofFiles
  rw [List.Nodup, List.pairwise_map, List.Nodup, List.pairwise_map]
  constructor
  · apply ofTasks.imp
    intro left right apart same
    have sameId : left.requirementId = right.requirementId := congrArg (fun key => (ofLex key).1) same
    exact apart (by simp [StoredTask.key, sameId])
  · apply ofFiles.imp
    intro left right apart same
    have sameId : left.requirementId = right.requirementId := congrArg (fun key => (ofLex key).1) same
    have sameName : left.rfilename = right.rfilename := congrArg (fun key => (ofLex key).2) same
    exact apart (by simp [StoredFile.key, sameId, sameName])

theorem orDefault_of_ne {value default : String} (nonempty : value ≠ "") :
    orDefault value default = value :=
  if_neg nonempty

/-- The defaults that publishing would put in do not apply. -/
structure Payload.Filled (payload : Payload) : Prop where
  mode : payload.header.capacityMode ≠ ""
  policy : payload.header.policyVersion ≠ ""
  solver : payload.header.solverVersion ≠ ""
  gate : payload.header.gateBCode ≠ ""
  roles : ∀ row ∈ payload.files, row.role ≠ ""

theorem Payload.Filled.draftFiles (filled : payload.Filled) :
    payload.files.map draftFile = payload.files := by
  rw [List.map_congr_left (g := id), List.map_id]
  intro row member
  simp [draftFile, orDefault_of_ne (filled.roles row member)]

/-- What was published is loaded again. -/
theorem load_published {idle : Bool} (filled : payload.Filled)
    (published : publishDraft sha proposalId now payload idle store = .ok next) :
    ∃ stored, next.loadProposal proposalId = some stored ∧ stored.header = payload.header ∧
      stored.tasks.Perm payload.tasks ∧ stored.files.Perm payload.files := by
  have inserted := publishDraft_inserts published
  rw [filled.draftFiles] at inserted
  obtain ⟨_, proposals, _, _⟩ := Store.insert?_spec inserted
  obtain ⟨taskRows, fileRows⟩ := rowsOf_published inserted
  have found : next.proposals.find proposalId = some (draftColumns sha proposalId now payload) := by
    rw [Table.find_eq_some, proposals]
    exact ⟨List.mem_append_right _ (List.mem_singleton_self _), rfl⟩
  have written : (Json.arr payload.header.mutationArgs).dumps ≠ "" := by
    obtain ⟨c, rest, same, _⟩ := Json.head_render (.arr payload.header.mutationArgs)
    simp [Json.dumps, same]
  have read : Json.loads (orDefault (draftColumns sha proposalId now payload).mutationArgsJson "[]") =
      some (.arr payload.header.mutationArgs) := by
    rw [draftColumns, orDefault_of_ne written, Json.loads_dumps]
  have loaded : next.loadProposal proposalId = some ((draftColumns sha proposalId now payload).loaded
      payload.header.mutationArgs (next.taskRowsOf proposalId) (next.fileRowsOf proposalId)) := by
    simp [Store.loadProposal, found, read, argsOf]
  refine ⟨_, loaded, ?_, ?_, ?_⟩
  · simp only [ProposalColumns.loaded, ProposalColumns.header, draftColumns,
      orDefault_of_ne filled.mode, orDefault_of_ne filled.policy, orDefault_of_ne filled.solver,
      orDefault_of_ne filled.gate]
  · exact (sortBy_perm _ _).trans (.of_eq taskRows)
  · exact (sortBy_perm _ _).trans (.of_eq fileRows)

end Published

section Previewed

variable {u : Unicode} {pyHash : KeyPart → HashValue} {sha : Digester} {facts : PreviewFacts}
  {payload : Payload}

theorem proposalGateCode_ne (input : PreviewInput) :
    proposalGateCode (preview u pyHash input) ≠ "" := by
  have codes : ∀ code ∈ (preview u pyHash input).graph.blocking, code ≠ "" := by
    intro code member
    simp only [preview, reconcile, blockingOf, List.mem_append, List.mem_map] at member
    rcases member with ⟨_, _, rfl⟩ | ⟨item, _, rfl⟩
    · decide
    · split <;> decide
  unfold proposalGateCode
  split_ifs
  · decide
  · generalize (preview u pyHash input).capacity.gateBCode = code
    cases code <;> decide
  · cases first : (sortedSet (preview u pyHash input).graph.blocking).head? with
    | none => decide
    | some code => exact codes code (mem_sortedSet.mp (List.mem_of_head? first))

theorem previewed_filled (previewed : previewPure u pyHash sha facts = some payload) :
    payload.Filled := by
  unfold previewPure at previewed
  split_ifs at previewed
  cases previewed
  refine ⟨?_, ?_, ?_, proposalGateCode_ne facts.input, ?_⟩
  · simp only [headerFromFacts]
    cases facts.input.capacityMode <;> decide
  · simp only [headerFromFacts, executionVersions]
    split <;> decide
  · simp only [headerFromFacts, executionVersions]
    split <;> decide
  · intro row member
    simp only [fileRows, missingRows, List.mem_flatMap, List.mem_map] at member
    obtain ⟨_, _, _, _, rfl⟩ := member
    simp [fileRow]

theorem previewed_bound (previewed : previewPure u pyHash sha facts = some payload) :
    truthy payload.header.executionConfigHash = true ∧
      payload.canonicalHash = proposalHash sha payload.header.previewed payload.tasks payload.files := by
  unfold previewPure at previewed
  split_ifs at previewed
  cases previewed
  exact ⟨by simp [truthy, headerFromFacts, sha.nonempty], rfl⟩

/-- The digest of a published preview is the payload's; the canonical text is independent of the order
    of the rows; and under a collision-free digest the header and the rows are exactly what the digest
    binds. -/
theorem stored_hash_binds {idle : Bool} {store next : Store} {proposalId now : String}
    (previewed : previewPure u pyHash sha facts = some payload)
    (published : publishDraft sha proposalId now payload idle store = .ok next) :
    hashStoredProposal sha next proposalId = some payload.canonicalHash ∧
      (∀ header tasks tasks' files files', tasks.Perm tasks' → files.Perm files' →
        (tasks.map TaskRow.key).Nodup → (files.map FileRow.key).Nodup →
          canonicalBytes header tasks files = canonicalBytes header tasks' files') ∧
      (Function.Injective sha.hash → ∃ stored, next.loadProposal proposalId = some stored ∧
        ∀ other : Loaded, other.hash sha = stored.hash sha ↔
          other.header = stored.header ∧ other.tasks.Perm stored.tasks ∧
            other.files.Perm stored.files) := by
  have filled := previewed_filled previewed
  obtain ⟨bound, digest⟩ := previewed_bound previewed
  obtain ⟨stored, loaded, header, tasks, files⟩ := load_published filled published
  have inserted := publishDraft_inserts published
  rw [filled.draftFiles] at inserted
  obtain ⟨taskKeys, fileKeys⟩ := keys_published inserted
  rw [← header] at bound
  have storedTasks : (stored.tasks.map TaskRow.key).Nodup :=
    (tasks.map TaskRow.key).nodup_iff.mpr taskKeys
  have storedFiles : (stored.files.map FileRow.key).Nodup :=
    (files.map FileRow.key).nodup_iff.mpr fileKeys
  refine ⟨?_, ?_, ?_⟩
  · have bytes := canonicalBytes_perm stored.header.previewed tasks files storedTasks storedFiles
    have same : stored.hash sha = payload.canonicalHash := by
      rw [digest, Loaded.hash, Header.stored_eq_previewed bound, ← header]
      exact congrArg sha.hash bytes
    rw [hashStoredProposal, loaded, Option.map_some, same]
  · intro header tasks tasks' files files'
    exact canonicalBytes_perm header
  · intro injective
    exact ⟨stored, loaded, fun other => Loaded.hash_eq_iff injective bound storedTasks storedFiles⟩

end Previewed

section Sample

/-- A collision-free digest. -/
def marked : Digester where
  hash text := "#" ++ text
  nonempty text none := by
    have chars := congrArg String.toList none
    simp at chars

theorem marked_injective : Function.Injective marked.hash := by
  intro left right same
  have chars := congrArg String.toList same
  exact String.toList_inj.mp (by simpa [marked] using chars)

def partialFacts : PreviewFacts where
  labels _ _ := ⟨"safetensors", none⟩
  identity _ := ⟨1, "f"⟩
  archived := partialInput.planner.archived
  planId := "ark"
  plannerRevision := 3
  mutation := ⟨"adopt_current", []⟩
  input := partialInput
  selectionBefore := "m"
  selectionAfter := "m"
  semanticInput := "m"
  executionConfig := "guaranteed"
  publicationClear := true

def emptyStore : Store := .blank 3 ["ark"]

theorem stored_hash_binds_partial : ∃ payload next,
    previewPure asciiUnicode pairHash marked partialFacts = some payload ∧
      hashStoredProposal marked next "p" = some payload.canonicalHash ∧
      ∃ stored, next.loadProposal "p" = some stored ∧
        ∀ other : Loaded, other.hash marked = stored.hash marked ↔
          other.header = stored.header ∧ other.tasks.Perm stored.tasks ∧
            other.files.Perm stored.files := by
  obtain ⟨payload, previewed⟩ : ∃ payload,
      previewPure asciiUnicode pairHash marked partialFacts = some payload := ⟨_, if_pos rfl⟩
  have accepted : (publishDraft marked "p" "now" payload true emptyStore).isOk = true := by
    cases previewed
    decide +kernel
  cases published : publishDraft marked "p" "now" payload true emptyStore with
  | error refused =>
      rw [published] at accepted
      cases accepted
  | ok next =>
      obtain ⟨same, _, binds⟩ := stored_hash_binds previewed published
      exact ⟨payload, next, previewed, same, binds marked_injective⟩

end Sample

end Modelark.Proposal
