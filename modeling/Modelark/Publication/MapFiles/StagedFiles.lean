import Modelark.Publication.MapFiles.Completed
import Modelark.Publication.MapFiles.Native

/-!
# Files that are staged

What a candidate of files returns is the map with the selected files and nothing else, however often it was
interrupted. What cannot be joined with the map, is of other files or of another map is refused, before
anything is written.
-/

namespace Modelark.Publication.MapFiles

open Library
open Revision (Failure)
open Conversion (refused parts relativePath)

variable {O D : Type} [DecidableEq O] [DecidableEq D] {naming : Naming O D} {plan : Plan O}
variable {known : List String} {w left : World O D} {arguments other : Arguments O}

/-- A candidate that is refused, whatever interrupts it, before it has written anything. -/
def Refused (naming : Naming O D) (arguments : Arguments O) (w : World O D) : Prop :=
  (∃ error, (candidate naming arguments).run w = (w, .error error)) ∧
    ∀ left, (candidate naming arguments).Leaves w left → left = w

theorem refused_of_survey (none' : ∀ plan known, survey naming arguments w ≠ .ok (plan, known)) :
    Refused naming arguments w := by
  cases saw : survey naming arguments w with
  | ok found => exact absurd saw (none' found.1 found.2)
  | error error =>
      have looked := Program.run_look_error saw
      refine ⟨⟨error, Program.run_bind_error looked⟩, fun left leaves => ?_⟩
      rcases leaves.of_bind with first | ⟨_, _, returned, _⟩
      · exact first.of_look
      · rw [looked] at returned
        cases returned

section Entries

variable {entries union delta union' delta' : List (TreeEntry O)}

/-- The union has the entries of both, and an entry of both is the same. -/
theorem thread_joinEntry (joined : thread joinEntry (union, delta) entries = .ok (union', delta'))
    (distinct : (union.map TreeEntry.path).Nodup) :
    (∀ entry, entry ∈ union' ↔ entry ∈ union ∨ entry ∈ entries) ∧ (union'.map TreeEntry.path).Nodup ∧
      ∀ entry ∈ entries, ∀ existing ∈ union, existing.path = entry.path → existing = entry := by
  induction entries generalizing union delta with
  | nil =>
      simp only [thread_nil, Except.ok.injEq, Prod.mk.injEq] at joined
      obtain ⟨rfl, rfl⟩ := joined
      simpa using distinct
  | cons entry entries ih =>
      simp only [thread_cons, bind_eq_ok] at joined
      obtain ⟨⟨next, delta''⟩, first, rest⟩ := joined
      cases found : union.find? (·.path == entry.path) with
      | some existing =>
          have member := List.mem_of_find?_eq_some found
          have named : existing.path = entry.path := by simpa using List.find?_some found
          simp only [joinEntry, found, bind_eq_ok, require_eq_ok, beq_iff_eq, pure_eq_ok, Prod.mk.injEq]
            at first
          obtain ⟨_, rfl, rfl, rfl⟩ := first
          obtain ⟨both, nodup, same⟩ := ih rest distinct
          refine ⟨fun other => ?_, nodup, fun other listed old member' path => ?_⟩
          · rw [both, List.mem_cons]
            constructor
            · rintro (old | new)
              · exact .inl old
              · exact .inr (.inr new)
            · rintro (old | rfl | new)
              · exact .inl old
              · exact .inl member
              · exact .inr new
          · rcases List.mem_cons.mp listed with rfl | later
            · exact List.inj_on_of_nodup_map distinct member' member path
            · exact same other later old member' path
      | none =>
          simp only [joinEntry, found, Except.ok.injEq, Prod.mk.injEq] at first
          obtain ⟨rfl, rfl⟩ := first
          have fresh : ∀ existing ∈ union, existing.path ≠ entry.path := by
            intro existing member
            simpa using List.find?_eq_none.mp found existing member
          have distinct' : ((union ++ [entry]).map TreeEntry.path).Nodup := by
            rw [List.map_append, List.nodup_append]
            refine ⟨distinct, by simp, ?_⟩
            intro path member path' member' same
            obtain ⟨existing, listed, rfl⟩ := List.mem_map.mp member
            obtain ⟨_, listed', rfl⟩ := List.mem_map.mp member'
            rw [List.mem_singleton.mp listed'] at same
            exact fresh existing listed same
          obtain ⟨both, nodup, same⟩ := ih rest distinct'
          refine ⟨fun other => ?_, nodup, fun other listed old member' path => ?_⟩
          · rw [both, List.mem_append, List.mem_singleton, List.mem_cons, or_assoc]
          · rcases List.mem_cons.mp listed with rfl | later
            · exact absurd path (fresh old member')
            · exact same other later old (List.mem_append_left _ member') path

omit [DecidableEq O] in
theorem listed_eq_ok (read : listed entries = .ok union) :
    (union.map TreeEntry.path).Nodup ∧ apart (union.map TreeEntry.path) = true := by
  simp only [listed, bind_eq_ok, require_eq_ok, decide_eq_true_eq, pure_eq_ok] at read
  obtain ⟨_, distinct, _, apart', rfl⟩ := read
  have permuted := (sortBy_perm TreeEntry.path entries).map TreeEntry.path
  refine ⟨permuted.nodup_iff.mpr distinct, ?_⟩
  simp only [apart, List.all_eq_true, Bool.not_eq_true', List.contains_eq_mem, decide_eq_false_iff_not]
    at apart' ⊢
  intro path member directory above listed'
  exact apart' path (permuted.mem_iff.mp member) directory above (permuted.mem_iff.mp listed')

/-- A path above another is one of its directories. -/
theorem mem_directories {upper lower : String} (above : IsAncestor upper lower) : upper ∈ directories lower := by
  obtain ⟨⟨rest, same⟩, differ⟩ := above
  have long : rest ≠ [] := by
    rintro rfl
    exact differ (by simpa using same)
  have split : lower.toList.splitOn '/' = upper.toList.splitOn '/' ++ rest.map String.toList := by
    have texts := congrArg (List.map String.toList) same
    simpa [parts, List.map_map, Function.comp_def] using texts.symm
  have components : upper.toList.splitOn '/' ≠ [] := List.splitOn_ne_nil _ _
  rw [directories, List.mem_map]
  refine ⟨(upper.toList.splitOn '/').length, ?_, ?_⟩
  · rw [List.mem_filter, List.mem_range, split, List.length_append, List.length_map, decide_eq_true_eq]
    have := List.length_pos_of_ne_nil components
    have := List.length_pos_of_ne_nil long
    omega
  · rw [split, List.take_left, List.intercalate_splitOn, String.ofList_toList]

theorem not_isAncestor {paths : List String} (checked : apart paths = true) {upper lower : String}
    (member : upper ∈ paths) (member' : lower ∈ paths) : ¬IsAncestor upper lower := by
  intro above
  simp only [apart, List.all_eq_true, Bool.not_eq_true', List.contains_eq_mem, decide_eq_false_iff_not]
    at checked
  exact checked lower member' upper (mem_directories above) member

end Entries

section Surveys

omit [DecidableEq O] in
theorem mem_entriesOf_sortBy {sources : List (SourceFiles O)} {entry : TreeEntry O} :
    entry ∈ entriesOf (sortBy SourceFiles.driveLabel sources) ↔ entry ∈ entriesOf sources := by
  simp only [entriesOf, List.mem_flatMap, mem_sortBy]

/-- What a plan is made of. -/
structure Merged (naming : Naming O D) (arguments : Arguments O) (w : World O D) (plan : Plan O)
    (before : Snapshot O) : Prop where
  snapshot : naming.git.snapshot w.held.map = .ok before
  batch : plan.batchId = arguments.batchId
  bound : ∃ files, plan.base.files = some files ∧ files.before = before
  entries : ∀ entry, entry ∈ plan.expected ↔ entry ∈ before.entries ∨ entry ∈ entriesOf arguments.sources
  distinct : (plan.expected.map TreeEntry.path).Nodup
  same : ∀ entry ∈ entriesOf arguments.sources, ∀ existing ∈ before.entries,
    existing.path = entry.path → existing = entry

theorem merged_of_survey (surveyed : survey naming arguments w = .ok (plan, known)) :
    ∃ before, Merged naming arguments w plan before := by
  obtain ⟨opening, opened', merged⟩ := (survey_eq_ok.mp surveyed).opening
  simp only [opened, bind_eq_ok, pure_eq_ok] at opened'
  obtain ⟨_, _, _, _, _, _, _, _, before, snapshot, rfl⟩ := opened'
  simp only [merge, bind_eq_ok, require_eq_ok, decide_eq_true_eq, pure_eq_ok] at merged
  obtain ⟨_, _, proofs, _, _, _, ⟨union, delta⟩, joined, profiles, _, rfl⟩ := merged
  have read := snapshot
  simp only [Git.snapshot, bind_eq_ok, pure_eq_ok] at read
  obtain ⟨commit, _, entries, tree, _, _, _, _, same⟩ := read
  have nodup : (before.entries.map TreeEntry.path).Nodup := by
    rw [← same]
    simp only [Git.readTree] at tree
    split at tree
    · exact (listed_eq_ok tree).1
    · cases tree
  obtain ⟨both, distinct, agree⟩ := thread_joinEntry joined nodup
  refine ⟨before, ⟨snapshot, rfl, ⟨_, rfl, rfl⟩, fun entry => ?_, ?_, ?_⟩⟩
  · rw [mem_sortBy, both, mem_sortBy, mem_entriesOf_sortBy]
  · exact ((sortBy_perm TreeEntry.path union).map TreeEntry.path).nodup_iff.mpr distinct
  · intro entry member existing old path
    exact agree entry (by rw [mem_sortBy, mem_entriesOf_sortBy]; exact member) existing old path

end Surveys

section Refusals

/-- Selected files that the map cannot have beside its own. -/
def Conflicts (before selected : List (TreeEntry O)) : Prop :=
  (∃ entry ∈ selected, ∃ existing ∈ before, existing.path = entry.path ∧ existing ≠ entry) ∨
    ∃ upper lower : TreeEntry O, (upper ∈ before ∨ upper ∈ selected) ∧ (lower ∈ before ∨ lower ∈ selected) ∧
      IsAncestor upper.path lower.path

theorem conflicts_refused {before : Snapshot O} (snapshot : naming.git.snapshot w.held.map = .ok before)
    (conflicts : Conflicts before.entries (entriesOf arguments.sources)) : Refused naming arguments w := by
  apply refused_of_survey
  intro plan known surveyed
  obtain ⟨before', merged⟩ := merged_of_survey surveyed
  have same : before' = before := Except.ok.inj (merged.snapshot.symm.trans snapshot)
  rw [same] at merged
  rcases conflicts with ⟨entry, selected, existing, old, path, differ⟩ | ⟨upper, lower, first, second, above⟩
  · exact differ (merged.same entry selected existing old path)
  · have apart' := (survey_eq_ok.mp surveyed).apart
    have member := List.mem_map_of_mem (f := TreeEntry.path) ((merged.entries upper).mpr first)
    have member' := List.mem_map_of_mem (f := TreeEntry.path) ((merged.entries lower).mpr second)
    exact not_isAncestor apart' member member' above

/-- An action of the batch that is bound to another snapshot of the map. -/
def BoundElsewhere (naming : Naming O D) (arguments : Arguments O) (w : World O D) : Prop :=
  ∃ (key : String) (row : Row O D) (files : FilesBase O), w.journal[key]? = some row ∧ row.kind = .mapStage ∧
    row.frozen.intent.base.files = some files ∧ row.frozen.intent.base.expectedPhase.id = arguments.batchId ∧
    naming.git.snapshot w.held.map ≠ .ok files.before

theorem elsewhere_refused (elsewhere : BoundElsewhere naming arguments w) : Refused naming arguments w := by
  apply refused_of_survey
  intro plan known surveyed
  obtain ⟨key, row, files, found, kind, bound, batch, differ⟩ := elsewhere
  obtain ⟨before, merged⟩ := merged_of_survey surveyed
  obtain ⟨each, _⟩ := collect_eq_ok.mp (survey_eq_ok.mp surveyed).existing
  obtain ⟨kept, recognised⟩ := each (key, row) (mem_staged.mpr ⟨found, kind⟩)
  simp only [Plan.recognise, bind_eq_ok] at recognised
  obtain ⟨record, read, rest⟩ := recognised
  simp only [readAction, bind_eq_ok, pure_eq_ok] at read
  obtain ⟨_, _, _, loaded, _, _, rfl⟩ := read
  obtain ⟨row', found', shape⟩ := load_eq_ok.mp loaded
  have same : row' = row := Option.some.inj (found'.symm.trans found)
  rw [readRow_receipt shape, same] at rest
  have own : plan.isOwn row.frozen.intent = true := by
    simp [Plan.isOwn, bound, batch, merged.batch]
  simp only [own, ite_true, bind_eq_ok, require_eq_ok, beq_iff_eq] at rest
  obtain ⟨_, _, _, base, _⟩ := rest
  obtain ⟨files', bound', before'⟩ := merged.bound
  rw [base, bound'] at bound
  cases bound
  rw [before'] at differ
  exact differ merged.snapshot

/-- The files that are selected, with the drives that they are on. -/
def picks (sources : List (SourceFiles O)) : List (String × FileSelection O) :=
  sources.flatMap fun source => source.files.map fun file => (source.driveLabel, file)

omit [DecidableEq O] in
theorem fileIds_eq (sources : List (SourceFiles O)) :
    fileIds sources = (picks sources).map fun pick => pick.2.fileId := by
  simp [fileIds, picks, List.map_flatMap, List.map_map, Function.comp_def]

omit [DecidableEq D] in
theorem fileProof_eq_ok {driveLabel : String} {repository : Repository O} {current : Snapshot O}
    {rows : List (String × Published O)} {item : FileSelection O} {selected : Selected O}
    (proved : fileProof naming driveLabel repository current rows item = .ok selected) :
    ∃ row, (item.fileId, row) ∈ rows ∧ row.intent.entry = item.entry ∧ row.intent.driveLabel = driveLabel := by
  simp only [fileProof] at proved
  split at proved
  · rename_i identifier row found
    have named : identifier = item.fileId := by simpa using List.find?_some found
    have member := List.mem_of_find?_eq_some found
    simp only [bind_eq_ok, require_eq_ok, Bool.and_eq_true, beq_iff_eq] at proved
    obtain ⟨_, checks, _⟩ := proved
    exact ⟨row, named ▸ member, checks.1.1.1.1.1.1.1.1.1, checks.1.1.1.1.1.1.1.2⟩
  · cases proved

/-- What a survey that returns has found of its selection: all the files of the batch, each as it was
    published. -/
theorem picked_of_survey (surveyed : survey naming arguments w = .ok (plan, known)) :
    (∃ operation, w.held.operation = .ok operation ∧ ∃ ids, operation.batchFiles[arguments.batchId]? = some ids ∧
      ids.Perm ((picks arguments.sources).map fun pick => pick.2.fileId)) ∧
    ∀ pick ∈ picks arguments.sources, ∃ row, w.held.files pick.2.fileId = .ok row ∧
      row.intent.entry = pick.2.entry ∧ row.intent.driveLabel = pick.1 := by
  obtain ⟨opening, opened', merged⟩ := (survey_eq_ok.mp surveyed).opening
  simp only [opened, receiptRows, bind_eq_ok, require_eq_ok, Bool.and_eq_true, decide_eq_true_eq, beq_iff_eq,
    pure_eq_ok] at opened'
  obtain ⟨_, _, _, ⟨operation, bound, _, ⟨_, all⟩, rows, published', rfl⟩, _, _, _, _, _, _, rfl⟩ := opened'
  constructor
  · refine ⟨operation, bound, _, all, (sortBy_perm id _).trans ?_⟩
    rw [fileIds_eq]
    exact (((sortBy_perm SourceFiles.driveLabel arguments.sources).flatMap_right _).map _)
  · intro pick member
    obtain ⟨source, among, listed'⟩ := List.mem_flatMap.mp member
    obtain ⟨file, among', rfl⟩ := List.mem_map.mp listed'
    simp only [merge, bind_eq_ok] at merged
    obtain ⟨_, _, proofs, proved, _⟩ := merged
    obtain ⟨_, _, one⟩ := exists_of_mapM proved (mem_sortBy.mpr among)
    simp only [sourceProofs, bind_eq_ok] at one
    obtain ⟨_, _, _, _, _, _, _, mapped, _⟩ := one
    obtain ⟨_, _, checked⟩ := exists_of_mapM mapped among'
    obtain ⟨row, listed'', entry, label⟩ := fileProof_eq_ok checked
    obtain ⟨fileId, _, found⟩ := exists_of_mem_mapM published' listed''
    simp only [published, bind_eq_ok] at found
    obtain ⟨stored, held, _, _, rest⟩ := found
    split at rest
    · simp only [pure_eq_ok, Prod.mk.injEq] at rest
      obtain ⟨rfl, rfl⟩ := rest
      exact ⟨stored, held, entry, label⟩
    · cases rest

/-- Of two candidates of a batch that are not refused, each selects what the other selects. -/
theorem picks_of_surveys {v : World O D} {plan' : Plan O} {known' : List String} (held : v.held = w.held)
    (surveyed : survey naming arguments w = .ok (plan, known))
    (surveyed' : survey naming other v = .ok (plan', known')) (batch : other.batchId = arguments.batchId) :
    ∀ pick ∈ picks arguments.sources, pick ∈ picks other.sources := by
  intro pick member
  obtain ⟨⟨operation, bound, ids, all, permuted⟩, published'⟩ := picked_of_survey surveyed
  obtain ⟨⟨operation', bound', ids', all', permuted'⟩, published''⟩ := picked_of_survey surveyed'
  rw [held, bound] at bound'
  cases bound'
  rw [batch, all] at all'
  cases all'
  have named := permuted'.mem_iff.mp (permuted.mem_iff.mpr (List.mem_map_of_mem member))
  obtain ⟨pick', member', same⟩ := List.mem_map.mp named
  obtain ⟨row, stored, entry, label⟩ := published' pick member
  obtain ⟨row', stored', entry', label'⟩ := published'' pick' member'
  rw [held, same, stored] at stored'
  cases stored'
  have whole : pick' = pick := by
    obtain ⟨_, _, _⟩ := pick
    obtain ⟨_, _, _⟩ := pick'
    simp only at same entry entry' label label'
    subst same label label' entry
    rw [← entry']
  exact whole ▸ member'

theorem others_refused {v : World O D} (held : v.held = w.held)
    (surveyed : survey naming arguments w = .ok (plan, known)) (batch : other.batchId = arguments.batchId)
    (differ : ¬∀ pick, pick ∈ picks other.sources ↔ pick ∈ picks arguments.sources) :
    Refused naming other v := by
  apply refused_of_survey
  intro plan' known' surveyed'
  apply differ
  intro pick
  exact ⟨picks_of_surveys held.symm surveyed' surveyed batch.symm pick,
    picks_of_surveys held surveyed surveyed' batch pick⟩

/-- What was journalled since a world is bound to the map of that world. -/
theorem elsewhere_of_new {map : Repository O} {ids : List String} {before : Snapshot O}
    (merged : Merged naming arguments w plan before) (batch : plan.base.expectedPhase.id = plan.batchId)
    (beyond : Beyond naming plan w left) (new : New naming plan ids w left) (written : left.journal ≠ w.journal)
    (changed : naming.git.snapshot map ≠ naming.git.snapshot w.held.map) :
    BoundElsewhere naming arguments { left with held := { left.held with map } } := by
  have some' : ∃ key : String, left.journal[key]? ≠ w.journal[key]? := by
    by_contra none'
    push Not at none'
    exact written (Dict.ext_lookup none')
  obtain ⟨key, apart'⟩ := some'
  cases found : left.journal[key]? with
  | none =>
      rw [found] at apart'
      exact absurd (beyond.fresh found).symm apart'
  | some row =>
      rcases new key row found with old | ⟨_, kind, _, record, read, base⟩
      · exact absurd (found.trans old.symm) apart'
      · simp only [readAction, bind_eq_ok, pure_eq_ok] at read
        obtain ⟨_, _, _, loaded, _, _, rfl⟩ := read
        obtain ⟨row', found', shape⟩ := load_eq_ok.mp loaded
        have same : row' = row := Option.some.inj (found'.symm.trans found)
        rw [readRow_receipt shape, same] at base
        obtain ⟨files, bound, before'⟩ := merged.bound
        refine ⟨key, row, files, found, kind, by rw [base, bound], by rw [base, batch, merged.batch], ?_⟩
        rw [before', ← merged.snapshot]
        exact changed

end Refusals

/-- A candidate that can return without an interruption also returns after any number of them, with the same
    entries and tree: the map and the selected files. What conflicts with the map, selects other files of the
    batch, or goes on from another map once an action is journalled, is refused and writes nothing. -/
theorem staged_files (distinct : Function.Injective naming.intent) :
    (∀ (arguments : Arguments O) (w final : World O D) (c : FileCandidate O)
      (later : Program.Moment (World O D) Failure (FileCandidate O)),
      (candidate naming { arguments with resume := false }).run w = (final, .ok c) →
      Program.Onward (Begins naming arguments) ⟨none, w⟩ later →
        (∃ c' final', (candidate naming { arguments with resume := true }).run later.state = (final', .ok c') ∧
          c' = { c with newHead := c'.newHead, actionReceipts := c'.actionReceipts }) ∧
        (∃ before, naming.git.snapshot w.held.map = .ok before ∧
          (∀ entry, entry ∈ c.entries ↔ entry ∈ before.entries ∨ entry ∈ entriesOf arguments.sources) ∧
          (c.entries.map TreeEntry.path).Nodup ∧
          ∀ upper ∈ c.entries, ∀ lower ∈ c.entries, ¬IsAncestor upper.path lower.path) ∧
        (∀ other : Arguments O, other.batchId = arguments.batchId →
          (¬∀ pick, pick ∈ picks other.sources ↔ pick ∈ picks arguments.sources) →
            Refused naming other later.state) ∧
        ∀ map : Repository O, later.state.journal ≠ w.journal →
          naming.git.snapshot map ≠ naming.git.snapshot w.held.map →
            Refused naming { arguments with resume := true }
              { later.state with held := { later.state.held with map } }) ∧
    ∀ (arguments : Arguments O) (w : World O D) (before : Snapshot O),
      naming.git.snapshot w.held.map = .ok before →
        Conflicts before.entries (entriesOf arguments.sources) → Refused naming arguments w := by
  refine ⟨?_, fun arguments w before => conflicts_refused⟩
  intro arguments w final c later ran onward
  obtain ⟨plan, operation, steps, receipts, last, m, first, finished⟩ :=
    candidate_finished distinct ran
  have stopped := finished.onward first onward
  obtain ⟨before, merged⟩ := merged_of_survey first
  obtain ⟨opening, _, bound⟩ := (survey_eq_ok.mp first).opening
  obtain ⟨beyond, new, _⟩ := finished.later stopped
  have entries : c.entries = plan.expected := by rw [finished.result]
  refine ⟨?_, ⟨before, merged.snapshot, ?_, ?_, ?_⟩, ?_, ?_⟩
  · obtain ⟨c', final', returned, _, same⟩ := (finished.resumed first stopped).returns
    exact ⟨c', final', returned, same⟩
  · rw [entries]
    exact merged.entries
  · rw [entries]
    exact merged.distinct
  · rw [entries]
    intro upper member lower member'
    exact not_isAncestor (survey_eq_ok.mp first).apart (List.mem_map_of_mem member)
      (List.mem_map_of_mem member')
  · intro other batch differ
    exact others_refused beyond.held first batch differ
  · intro map written changed
    have resumed : Merged naming { arguments with resume := true } w plan before :=
      ⟨merged.snapshot, merged.batch, merged.bound, merged.entries, merged.distinct, merged.same⟩
    exact elsewhere_refused (elsewhere_of_new resumed (merge_own bound).2 beyond new written changed)

/-- Names of objects that say all of them. -/
inductive Oid where
  | blob (data : Conversion.Bytes)
  | empty
  | entry (path : String) (mode : Mode) (oid rest : Oid)
  | tree (entries : Oid)
  | commit (tree parents : Oid) (message date : String)
  deriving DecidableEq

namespace Oid

def ofEntries : List (TreeEntry Oid) → Oid
  | [] => .empty
  | first :: others => .entry first.path first.mode first.oid (ofEntries others)

def ofParents : List Oid → Oid
  | [] => .empty
  | first :: others => .entry "" .regular first (ofParents others)

def name : GitObject Oid → Oid
  | .blob data => .blob data
  | .tree entries => .tree (ofEntries entries)
  | .commit content parents message date => .commit content (ofParents parents) message date

theorem ofEntries_injective : Function.Injective ofEntries := by
  intro left
  induction left with
  | nil =>
      intro right same
      cases right with
      | nil => rfl
      | cons first others => cases same
  | cons first others ih =>
      intro right same
      cases right with
      | nil => cases same
      | cons first' others' =>
          obtain ⟨path, mode, oid, relative⟩ := first
          obtain ⟨path', mode', oid', relative'⟩ := first'
          simp only [ofEntries, Oid.entry.injEq] at same
          obtain ⟨rfl, rfl, rfl, rest⟩ := same
          rw [ih rest]

theorem ofParents_injective : Function.Injective ofParents := by
  intro left
  induction left with
  | nil =>
      intro right same
      cases right with
      | nil => rfl
      | cons first others => cases same
  | cons first others ih =>
      intro right same
      cases right with
      | nil => cases same
      | cons first' others' =>
          simp only [ofParents, Oid.entry.injEq, true_and] at same
          rw [same.1, ih same.2]

theorem name_injective : Function.Injective name := by
  intro left right same
  cases left <;> cases right <;> simp only [name, reduceCtorEq, Oid.blob.injEq, Oid.tree.injEq,
    Oid.commit.injEq] at same
  case blob.blob => rw [same]
  case tree.tree => rw [ofEntries_injective same]
  case commit.commit =>
    obtain ⟨rfl, parents, rfl, rfl⟩ := same
    rw [ofParents_injective parents]

end Oid

/-- Names that say little more than there is to tell apart. -/
def sampleNaming : Naming Oid (Frozen Oid) where
  git := Names.git ⟨Oid.name, Oid.name_injective, fun _ => ""⟩
  uuid5 _ text := if text = "map-files:b:fetch:d" then "f" else if text = "map-files:b:index" then "i"
    else if text = "map-files:b:tree" then "t" else "c"
  profile profile := profile.annexUuid
  selection _ := ""
  stdin _ := ""
  intent := id
  receipt _ := ""

def sampleKey : String := "SHA256-s5--" ++ String.ofList (List.replicate 64 'a')

def sampleObject : String := ".git/annex/objects/aa/aa/" ++ sampleKey ++ "/" ++ sampleKey

def sampleBlob : GitObject Oid := .blob (utf8 ("/annex/objects/" ++ sampleKey ++ "\n"))

def sampleEntry (path : String) (relative : relativePath path = .ok path) : TreeEntry Oid :=
  ⟨path, .regular, Oid.name sampleBlob, relative⟩

def entryA : TreeEntry Oid := sampleEntry "a" (by decide +kernel)
def entryB : TreeEntry Oid := sampleEntry "b" (by decide +kernel)
def entryC : TreeEntry Oid := sampleEntry "c" (by decide +kernel)

def sampleTree (entries : List (TreeEntry Oid)) : GitObject Oid := .tree entries

def sampleCommit (entries : List (TreeEntry Oid)) : GitObject Oid :=
  .commit (Oid.name (sampleTree entries)) [] "" ""

def sampleProfile (root : Nat) (annexUuid : String) : Profile := ⟨(1, root, 1), 1, annexUuid, ""⟩

def sampleRepository (root : Nat) (annexUuid : String) (entries : List (TreeEntry Oid)) : Repository Oid where
  profile := sampleProfile root annexUuid
  headRef := "main"
  headOid := Oid.name (sampleCommit entries)
  index := entries
  objects := [sampleBlob, sampleTree entries, sampleCommit entries]
  objectPath _ := .ok sampleObject

def sampleDrive : Repository Oid := sampleRepository 2 "d" [entryB, entryC]

def sampleSnapshot : Snapshot Oid :=
  ⟨(1, 2, 1), 1, "main", Oid.name (sampleCommit [entryB, entryC]), Oid.name (sampleTree [entryB, entryC]), [],
    [entryB, entryC]⟩

def sampleFile (entry : TreeEntry Oid) : FileRow Oid where
  batchId := "b"
  phase := .catalogPublished
  digest := ""
  intent := ⟨entry, entry.path, "d", sampleKey, sampleObject⟩
  proofs := some (⟨"", "d", entry.path, sampleKey, sampleObject, entry.oid, sampleSnapshot⟩,
    ⟨"", "d", entry.path, sampleKey, sampleObject, entry.oid, sampleSnapshot⟩,
    ⟨"", (1, 2, 1), 1, entry.path, sampleObject, sampleKey⟩)
  latest := ""

def sampleHeld : Held Oid where
  operationId := some "o"
  operation := .ok ⟨"", Dict.ofPairs [("b", ["1", "2"])], [sampleProfile 3 "s", sampleProfile 1 "m", sampleProfile 2 "d"]⟩
  identities := ["d"]
  filePhases := ∅
  batchPhases := Dict.ofPairs [("b", "PREPARED")]
  files fileId := .ok (sampleFile (if fileId = "1" then entryB else entryC))
  map := sampleRepository 1 "m" [entryA]
  mapLabel := none
  drives := Dict.ofPairs [("d", sampleDrive)]
  stage := ⟨sampleProfile 3 "s", some "s", "main", Oid.name (sampleCommit [entryA]), false⟩

def sampleWorld : World Oid (Frozen Oid) where
  held := sampleHeld
  scratch := ⟨[entryA], ∅, [sampleBlob, sampleTree [entryA], sampleCommit [entryA]], 0⟩
  journal := ∅
  revision := 0

def sampleArguments (files : List (FileSelection Oid)) : Arguments Oid :=
  ⟨[⟨"d", Oid.name (sampleCommit [entryB, entryC]), files⟩], "b", false⟩

def filesInOrder : List (FileSelection Oid) := [⟨"1", entryB⟩, ⟨"2", entryC⟩]

/-- The stage is left after the index is brought up to the files, before that is verified. -/
def sampleLeft : World Oid (Frozen Oid) :=
  (candidate sampleNaming (sampleArguments filesInOrder)).after 16 sampleWorld

theorem sample_entries : entriesOf (sampleArguments filesInOrder).sources = [entryB, entryC] := rfl

theorem sample_returns :
    ((candidate sampleNaming (sampleArguments filesInOrder)).run sampleWorld).2.toOption.isSome := by
  decide +kernel

theorem sample_left : (candidate sampleNaming (sampleArguments filesInOrder)).Leaves sampleWorld sampleLeft :=
  Program.leaves_after 16 _ _

theorem staged_files_of_sample : ∃ (c : FileCandidate Oid) (final : World Oid (Frozen Oid)),
    (candidate sampleNaming { sampleArguments filesInOrder with resume := true }).run sampleLeft =
      (final, .ok c) ∧ entryA ∈ c.entries ∧ entryB ∈ c.entries ∧ entryC ∈ c.entries := by
  obtain ⟨c, returned⟩ := Option.isSome_iff_exists.mp sample_returns
  cases ran : (candidate sampleNaming (sampleArguments filesInOrder)).run sampleWorld with
  | mk final result =>
      rw [ran] at returned
      cases result with
      | error error => cases returned
      | ok c =>
          obtain ⟨⟨c', final', resumed, same⟩, ⟨before, read, entries, _⟩, _⟩ :=
            (staged_files Function.injective_id).1 (sampleArguments filesInOrder)
              sampleWorld final c ⟨none, sampleLeft⟩ ran (Program.onward_leaves ⟨false, rfl⟩ sample_left)
          have known : before.entries = [entryA] := by
            have whole : sampleNaming.git.snapshot sampleWorld.held.map =
                .ok ⟨(1, 1, 1), 1, "main", Oid.name (sampleCommit [entryA]), Oid.name (sampleTree [entryA]), [],
                  [entryA]⟩ := by
              decide +kernel
            rw [whole] at read
            cases read
            rfl
          have all : c'.entries = c.entries := by rw [same]
          have among : ∀ entry, entry ∈ c'.entries ↔ entry ∈ [entryA] ∨ entry ∈ [entryB, entryC] := by
            intro entry
            rw [all, entries, known, sample_entries]
          dsimp only at resumed
          refine ⟨c', final', resumed, ?_, ?_, ?_⟩
          · exact (among entryA).mpr (.inl (List.mem_singleton_self entryA))
          · exact (among entryB).mpr (.inr (List.mem_cons_self ..))
          · exact (among entryC).mpr (.inr (List.mem_cons_of_mem _ (List.mem_singleton_self _)))

/-- A candidate that is resumed with its files in another order is not refused. -/
theorem resumed_in_other_order : sampleArguments filesInOrder.reverse ≠ sampleArguments filesInOrder ∧
    (candidate sampleNaming (sampleArguments filesInOrder)).Leaves sampleWorld sampleLeft ∧
    sampleLeft.journal ≠ sampleWorld.journal ∧
    ¬Refused sampleNaming { sampleArguments filesInOrder.reverse with resume := true } sampleLeft := by
  refine ⟨by decide +kernel, sample_left, ?_, ?_⟩
  · intro same
    have some' : sampleLeft.journal["i"]?.isSome := by decide +kernel
    rw [same] at some'
    exact absurd some' (by decide +kernel)
  · rintro ⟨⟨error, refused'⟩, _⟩
    have returned : ((candidate sampleNaming { sampleArguments filesInOrder.reverse with resume := true }).run
        sampleLeft).2.toOption.isSome := by
      decide +kernel
    rw [refused'] at returned
    cases returned

end Modelark.Publication.MapFiles
