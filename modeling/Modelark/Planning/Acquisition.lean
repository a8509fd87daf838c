import Modelark.Library.PurePaths
import Modelark.Library.Runs
import Modelark.Planning.Budgets

/-!
# Acquisition of missing files

The files of a task one after another on its drive: the original is staged, a capped output may be written beside
it, and one of the two is kept. The bytes on the drive stay within the guaranteed budget of the task unless a kept
output is larger than its original.
-/

namespace Modelark.Planning

open Library

/-- `Path(…).suffix.lower()`. -/
def suffixOf (filename : String) : List Char :=
  let name := ((PurePath.ofText filename).names.getLastD "").toList
  let ending := name.reverse.takeWhile (· != '.')
  if ending.length + 1 < name.length ∧ ending ≠ [] then ('.' :: ending.reverse).map Char.toLower else []

/-- `should_compress`. -/
def shouldCompress (filename : String) : Bool :=
  suffixOf filename == ".safetensors".toList

/-- The codec with which a missing file is acquired. -/
def codecOf (cfg : CompressionConfig) (item : ManifestFile) : Codec :=
  if item.storageAction = .compress ∧ shouldCompress item.rfilename then planCodec item.sizeBytes cfg else .raw

/-- What a task has put on its drive. -/
structure Acquisition where
  /-- The missing files, from the one in progress. -/
  todo : List ManifestFile
  /-- The bytes of the files that are done. -/
  kept : Nat
  staged : Nat
  output : Nat
  deriving Repr, DecidableEq

inductive Move where
  | download (bytes : Nat)
  | compress (bytes : Nat)
  | keepOutput
  | keepOriginal
  deriving Repr, DecidableEq

namespace Acquisition

def start (files : List ManifestFile) : Acquisition := ⟨files, 0, 0, 0⟩

def occupied (state : Acquisition) : Nat := state.kept + state.staged + state.output

/-- The next step of `fetch_model`. -/
def move (state : Acquisition) : Move → Acquisition
  | .download bytes => { state with staged := state.staged + bytes }
  | .compress bytes => { state with output := state.output + bytes }
  | .keepOutput => ⟨state.todo.tail, state.kept + state.output, 0, 0⟩
  | .keepOriginal => ⟨state.todo.tail, state.kept + state.staged, 0, 0⟩

/-- What may come next: the output is written once the original is whole, up to the cap of its codec. -/
def Allowed (cfg : CompressionConfig) (state : Acquisition) : Move → Prop
  | .download bytes => ∃ item ∈ state.todo.head?, state.output = 0 ∧ state.staged + bytes ≤ item.sizeBytes
  | .compress bytes => ∃ item ∈ state.todo.head?, state.staged = item.sizeBytes ∧ codecOf cfg item ≠ .raw ∧
      state.output + bytes ≤ codecOutputCap item.sizeBytes (codecOf cfg item) defaultChunk
  | .keepOutput => ∃ item ∈ state.todo.head?, state.staged = item.sizeBytes ∧ codecOf cfg item ≠ .raw
  | .keepOriginal => ∃ item ∈ state.todo.head?, state.staged = item.sizeBytes

/-- An output that is kept is no larger than its original. -/
def KeepsSmaller (state : Acquisition) : Move → Prop
  | .keepOutput => state.output ≤ state.staged
  | _ => True

end Acquisition

/-- The budget of a task that fetches files. -/
def fetchBudget (cfg : BudgetConfig) (files : List ManifestFile) : CandidateBudget :=
  aggregate (files.map fun item => fileBudget cfg item none false)

/-- The bytes on the drive are within the guaranteed budget, and in the end within its durable part. -/
structure Budgeted (cfg : BudgetConfig) (files : List ManifestFile) (state : Acquisition) : Prop where
  always : state.occupied ≤ (fetchBudget cfg files).guaranteedDurable + (fetchBudget cfg files).workspacePeakGuaranteed
  after : state.todo = [] → state.occupied ≤ (fetchBudget cfg files).guaranteedDurable

section Budget

variable {cfg : BudgetConfig} {files : List ManifestFile} {item : ManifestFile}

theorem durable_fetchBudget : (fetchBudget cfg files).guaranteedDurable = total ManifestFile.sizeBytes files := by
  simp only [fetchBudget, aggregate, total_map, fileBudget, Bool.false_eq_true, if_false]

theorem cap_le_workspace (member : item ∈ files) (coded : codecOf cfg.compression item ≠ .raw) :
    codecOutputCap item.sizeBytes (codecOf cfg.compression item) defaultChunk ≤
      (fetchBudget cfg files).workspacePeakGuaranteed := by
  have listed : fileBudget cfg item none false ∈ files.map fun item => fileBudget cfg item none false :=
    List.mem_map_of_mem member
  have peak := le_peak_of_mem (f := FileBudget.workspacePeakGuaranteed) listed
  unfold codecOf at coded ⊢
  by_cases compresses : item.storageAction = .compress ∧ shouldCompress item.rfilename
  · rw [if_pos compresses] at coded ⊢
    have planned : item.storageAction = .compress ∧ planCodec item.sizeBytes cfg.compression ≠ .raw :=
      ⟨compresses.1, coded⟩
    have own : (fileBudget cfg item none false).workspacePeakGuaranteed =
        codecOutputCap item.sizeBytes (planCodec item.sizeBytes cfg.compression) defaultChunk := by
      simp [fileBudget, planned, workspaceCap]
    rw [own] at peak
    exact peak
  · exact absurd (if_neg compresses) coded

/-- An output of a codec that is neither raw nor whole may be larger than its original. -/
theorem size_lt_cap {codec : Codec} {size : Nat} (whole : codec ≠ .whole) (raw : codec ≠ .raw) :
    size < codecOutputCap size codec defaultChunk := by
  cases codec with
  | whole => exact absurd rfl whole
  | raw => exact absurd rfl raw
  | stream =>
      simp only [codecOutputCap, StreamZnn.magic, List.length_cons, List.length_nil]
      omega
  | zstd =>
      simp only [codecOutputCap, zstdOutputCap]
      split <;> omega

end Budget

section Runs

variable {cfg : BudgetConfig} {files : List ManifestFile} {state : Acquisition} {moves : List Move}

/-- The files that are done take up no more than their originals. -/
structure Acquiring (cfg : BudgetConfig) (files : List ManifestFile) (state : Acquisition) : Prop where
  kept : state.kept + total ManifestFile.sizeBytes state.todo ≤ total ManifestFile.sizeBytes files
  listed : ∀ item ∈ state.todo, item ∈ files
  staged : ∀ item ∈ state.todo.head?, state.staged ≤ item.sizeBytes
  output : state.output ≤ (fetchBudget cfg files).workspacePeakGuaranteed
  idle : state.todo = [] → state.staged = 0 ∧ state.output = 0

theorem Acquiring.start : Acquiring cfg files (.start files) :=
  ⟨by simp [Acquisition.start], fun _ member => member, fun _ _ => Nat.zero_le _, Nat.zero_le _, fun _ => ⟨rfl, rfl⟩⟩

theorem Acquiring.budgeted (acquiring : Acquiring cfg files state) : Budgeted cfg files state := by
  obtain ⟨kept, listed, staged, output, idle⟩ := acquiring
  constructor
  · rw [durable_fetchBudget, Acquisition.occupied]
    cases todo : state.todo with
    | nil =>
        obtain ⟨noStaged, noOutput⟩ := idle todo
        omega
    | cons item rest =>
        have staged := staged item (by simp [todo])
        rw [todo, total_cons] at kept
        omega
  · intro done
    obtain ⟨noStaged, noOutput⟩ := idle done
    rw [durable_fetchBudget, Acquisition.occupied]
    omega

/-- A move that keeps no larger output leaves no larger files. -/
theorem Acquiring.move {step : Move} (acquiring : Acquiring cfg files state)
    (allowed : state.Allowed cfg.compression step) (smaller : state.KeepsSmaller step) :
    Acquiring cfg files (state.move step) := by
  obtain ⟨kept, listed, staged, output, idle⟩ := acquiring
  -- The next file is begun, after one that takes up no more than its original.
  have advance {item : ManifestFile} {bytes : Nat} (first : item ∈ state.todo.head?) (small : bytes ≤ item.sizeBytes) :
      Acquiring cfg files ⟨state.todo.tail, state.kept + bytes, 0, 0⟩ := by
    obtain ⟨rest, todo⟩ : ∃ rest, state.todo = item :: rest := List.head?_eq_some_iff.mp first
    rw [todo, total_cons] at kept
    refine ⟨?_, ?_, fun _ _ => Nat.zero_le _, Nat.zero_le _, fun _ => ⟨rfl, rfl⟩⟩
    · simp only [todo, List.tail_cons]
      omega
    · exact fun other member => listed other (List.mem_of_mem_tail member)
  cases step with
  | download bytes =>
      obtain ⟨item, first, none', small⟩ := allowed
      refine ⟨kept, listed, ?_, output, ?_⟩
      · intro other head
        cases Option.mem_unique first head
        exact small
      · intro done
        have : state.todo = [] := done
        simp [this] at first
  | compress bytes =>
      obtain ⟨item, first, whole, coded, small⟩ := allowed
      refine ⟨kept, listed, staged, ?_, ?_⟩
      · exact small.trans (cap_le_workspace (listed item (List.mem_of_mem_head? first)) coded)
      · intro done
        have : state.todo = [] := done
        simp [this] at first
  | keepOutput =>
      obtain ⟨item, first, whole, coded⟩ := allowed
      exact advance first (by rw [← whole]; exact smaller)
  | keepOriginal =>
      obtain ⟨item, first, whole⟩ := allowed
      exact advance first whole.le

/-- Without larger outputs, the bytes on the drive are within the budget. -/
theorem budgeted_of_smaller (permitted : Permitted Acquisition.move
    (fun state step => state.Allowed cfg.compression step ∧ state.KeepsSmaller step) (.start files) moves) :
    Budgeted cfg files (run Acquisition.move (.start files) moves) := by
  have acquiring : Acquiring cfg files (run Acquisition.move (.start files) moves) := run_invariant
    (fun state step allowed acquiring => acquiring.move allowed.1 allowed.2) permitted .start
  exact acquiring.budgeted

/-- Where no codec expands, no output is larger than its original. -/
theorem Acquiring.unexpanding {step : Move} (acquiring : Acquiring cfg files state) (small : state.output ≤ state.staged)
    (unexpanding : ∀ item ∈ files, codecOf cfg.compression item = .whole ∨ codecOf cfg.compression item = .raw)
    (allowed : state.Allowed cfg.compression step) :
    Acquiring cfg files (state.move step) ∧ (state.move step).output ≤ (state.move step).staged := by
  cases step with
  | download bytes =>
      refine ⟨acquiring.move allowed trivial, ?_⟩
      exact small.trans (Nat.le_add_right _ _)
  | compress bytes =>
      refine ⟨acquiring.move allowed trivial, ?_⟩
      obtain ⟨item, first, whole, coded, capped⟩ := allowed
      have codec := (unexpanding item (acquiring.listed item (List.mem_of_mem_head? first))).resolve_right coded
      rw [codec] at capped
      exact capped.trans whole.ge
  | keepOutput => exact ⟨acquiring.move allowed small, Nat.le_refl 0⟩
  | keepOriginal => exact ⟨acquiring.move allowed trivial, Nat.le_refl 0⟩

/-- A file that is kept as it is. -/
def storeRaw (item : ManifestFile) : List Move := [.download item.sizeBytes, .keepOriginal]

theorem storeRaw_run (cfg : BudgetConfig) (files rest : List ManifestFile) (kept : Nat) :
    Permitted Acquisition.move (Acquisition.Allowed cfg.compression) ⟨files ++ rest, kept, 0, 0⟩
      (files.flatMap storeRaw) ∧
    run Acquisition.move ⟨files ++ rest, kept, 0, 0⟩ (files.flatMap storeRaw) =
      ⟨rest, kept + total ManifestFile.sizeBytes files, 0, 0⟩ := by
  induction files generalizing kept with
  | nil => exact ⟨.nil, rfl⟩
  | cons item files ih =>
      obtain ⟨permitted, ends⟩ := ih (kept + item.sizeBytes)
      have one : run Acquisition.move ⟨item :: files ++ rest, kept, 0, 0⟩ (storeRaw item) =
          ⟨files ++ rest, kept + item.sizeBytes, 0, 0⟩ := by
        simp [storeRaw, Acquisition.move]
      constructor
      · rw [List.flatMap_cons, permitted_append, one]
        refine ⟨?_, permitted⟩
        simp [storeRaw, permitted_cons, Permitted.nil, Acquisition.Allowed, Acquisition.move]
      · rw [List.flatMap_cons, run_append, one, ends, total_cons, Nat.add_assoc]

/-- A file whose codec may expand can leave its drive with more than was guaranteed. -/
theorem exists_overrun {item : ManifestFile} (member : item ∈ files) (whole : codecOf cfg.compression item ≠ .whole)
    (raw : codecOf cfg.compression item ≠ .raw) :
    ∃ moves, Permitted Acquisition.move (Acquisition.Allowed cfg.compression) (.start files) moves ∧
      ¬Budgeted cfg files (run Acquisition.move (.start files) moves) := by
  obtain ⟨before, after, rfl⟩ := List.append_of_mem member
  have larger : item.sizeBytes < codecOutputCap item.sizeBytes (codecOf cfg.compression item) defaultChunk :=
    size_lt_cap whole raw
  set cap := codecOutputCap item.sizeBytes (codecOf cfg.compression item) defaultChunk
  let expanded : List Move := [.download item.sizeBytes, .compress cap, .keepOutput]
  obtain ⟨permitted, ends⟩ := storeRaw_run cfg before (item :: after) 0
  have middle (kept : Nat) :
      Permitted Acquisition.move (Acquisition.Allowed cfg.compression) ⟨item :: after, kept, 0, 0⟩ expanded ∧
        run Acquisition.move ⟨item :: after, kept, 0, 0⟩ expanded = ⟨after, kept + cap, 0, 0⟩ := by
    constructor
    · simp [expanded, permitted_cons, Permitted.nil, Acquisition.Allowed, Acquisition.move, raw, cap]
    · simp [expanded, Acquisition.move]
  obtain ⟨permitted', ends'⟩ := middle (0 + total ManifestFile.sizeBytes before)
  obtain ⟨permitted'', ends''⟩ := storeRaw_run cfg after []
    (0 + total ManifestFile.sizeBytes before + cap)
  rw [List.append_nil] at permitted'' ends''
  refine ⟨before.flatMap storeRaw ++ expanded ++ after.flatMap storeRaw, ?_, fun budgeted => ?_⟩
  · rw [permitted_append, permitted_append, run_append, Acquisition.start, ends, ends']
    exact ⟨⟨permitted, permitted'⟩, permitted''⟩
  · have overrun := budgeted.after
    rw [run_append, run_append, Acquisition.start, ends, ends', ends'', durable_fetchBudget] at overrun
    have small := overrun rfl
    simp only [Acquisition.occupied, total_append, total_cons] at small
    omega

/-- Whatever the outcome of each file, the bytes on the drive stay within the guaranteed budget, exactly when no file
    is acquired with a codec that may expand it; and they do in every run that keeps no larger output. -/
theorem budgeted_iff_unexpanding (cfg : BudgetConfig) (files : List ManifestFile) :
    ((∀ moves, Permitted Acquisition.move (Acquisition.Allowed cfg.compression) (.start files) moves →
      Budgeted cfg files (run Acquisition.move (.start files) moves)) ↔
        ∀ item ∈ files, codecOf cfg.compression item = .whole ∨ codecOf cfg.compression item = .raw) ∧
    ∀ moves, Permitted Acquisition.move
      (fun state step => state.Allowed cfg.compression step ∧ state.KeepsSmaller step) (.start files) moves →
        Budgeted cfg files (run Acquisition.move (.start files) moves) := by
  refine ⟨⟨?_, ?_⟩, fun moves => budgeted_of_smaller⟩
  · intro always item member
    by_contra expands
    push Not at expands
    obtain ⟨moves, permitted, overrun⟩ := exists_overrun member expands.1 expands.2
    exact overrun (always moves permitted)
  · intro unexpanding moves permitted
    have kept (state : Acquisition) (step : Move) (allowed : state.Allowed cfg.compression step)
        (held : Acquiring cfg files state ∧ state.output ≤ state.staged) :
        Acquiring cfg files (state.move step) ∧ (state.move step).output ≤ (state.move step).staged :=
      held.1.unexpanding held.2 unexpanding allowed
    exact (run_invariant kept permitted ⟨.start, Nat.zero_le _⟩).1.budgeted

/-- Streaming compression of shards beyond 16 GB. -/
def streaming : BudgetConfig where
  compression := ⟨fun size => 4 * size ≤ 64000000000, true, false⟩
  expectedDurableBytes := ManifestFile.sizeBytes

/-- A shard of 20 GB. -/
def shard : ManifestFile := ⟨"model.safetensors", 20000000000, none, .compress⟩

/-- A shard of which no slice is made smaller is kept with the frames of its slices. -/
theorem overrun_streaming :
    Permitted Acquisition.move (Acquisition.Allowed streaming.compression) (.start [shard])
      [.download 20000000000, .compress 20000001201, .keepOutput] ∧
    ¬Budgeted streaming [shard] (run Acquisition.move (.start [shard])
      [.download 20000000000, .compress 20000001201, .keepOutput]) := by
  have codec : codecOf streaming.compression shard = .stream := by decide +kernel
  have cap : codecOutputCap shard.sizeBytes .stream defaultChunk = 20000001201 := by decide +kernel
  constructor
  · simp [permitted_cons, Permitted.nil, Acquisition.Allowed, Acquisition.move, Acquisition.start, codec, cap]
    simp [shard]
  · intro budgeted
    have small := budgeted.after rfl
    simp [durable_fetchBudget, Acquisition.occupied, Acquisition.move, Acquisition.start, shard] at small

end Runs

end Modelark.Planning
