import Modelark.Library.NewestCells
import Modelark.Publication.Annotations

/-!
# The order of annotations

What a log of annotations says depends on which cells its lines have, not on their order. A merge has the newest
cells of both logs, and a write changes what is assigned only.
-/

namespace Modelark.Publication

open Library Revision Conversion

/-- A cell with its field and its value. -/
abbrev AnnotationEntry := (String ×ₗ String) × AnnotationCell

/-- What has been read of a line, except for its cells. -/
structure AnnotationScan where
  field : Option String
  hasValue : Bool
  fieldsSeen : List String
  cellsSeen : List (String × String)

def AnnotationLine.scan (line : AnnotationLine) : AnnotationScan :=
  ⟨line.field, line.hasValue, line.fieldsSeen, line.cellsSeen⟩

def AnnotationScan.line (scan : AnnotationScan) (log : AnnotationLog) : AnnotationLine :=
  ⟨log, scan.field, scan.hasValue, scan.fieldsSeen, scan.cellsSeen⟩

/-- A token with the cell it has, if any. -/
def scanToken (clock : ℚ) (scan : AnnotationScan) (token : List Char) :
    Option (AnnotationScan × List AnnotationEntry) :=
  if isField token then
    if (scan.field.isNone || scan.hasValue) && !scan.fieldsSeen.contains (String.ofList token) then
      some ({ scan with
        field := some (String.ofList token)
        hasValue := false
        fieldsSeen := String.ofList token :: scan.fieldsSeen }, [])
    else none
  else
    match scan.field, token with
    | some field, sign :: encoded =>
        if !encoded.isEmpty && (sign == '+' || sign == '-') then
          (annotationValue encoded).bind fun value =>
            if value != "" && !value.toList.contains '\x00' && !scan.cellsSeen.contains (field, value) then
              some ({ scan with hasValue := true, cellsSeen := (field, value) :: scan.cellsSeen },
                [(toLex (field, value), ⟨clock, sign == '+'⟩)])
            else none
        else none
    | _, _ => none

def scanTokens (clock : ℚ) : AnnotationScan → List (List Char) → Option (AnnotationScan × List AnnotationEntry)
  | scan, [] => some (scan, [])
  | scan, token :: tokens =>
      (scanToken clock scan token).bind fun first =>
        (scanTokens clock first.1 tokens).map fun rest => (rest.1, first.2 ++ rest.2)

/-- The cells of a line. -/
def scanLine (line : List Char) : Option (List AnnotationEntry) :=
  match line.splitOn ' ' with
  | first :: second :: third :: rest =>
      (parseClock first.dropLast).bind fun clock =>
        if first.getLast? == some 's' then
          (scanTokens clock ⟨none, false, [], []⟩ (second :: third :: rest)).bind fun read =>
            if read.1.hasValue then some read.2 else none
        else none
  | _ => none

/-- A cell is read. -/
def addCell (log : AnnotationLog) (entry : AnnotationEntry) : Except Failure AnnotationLog := do
  let moment := toLex ((ofLex entry.1).1, toLex ((ofLex entry.1).2, entry.2.clock))
  require (log.history[moment]?.all (· == entry.2)) (refused "PUBLICATION_ANNOTATION_CLOCK_CONFLICT")
  let state ← insertCell log.state entry.1 entry.2
  return ⟨state, log.history.insert moment entry.2⟩

section Scans

variable {clock : ℚ} {line : AnnotationLine}

theorem readToken_scan (token : List Char) : (readToken clock line token).toOption =
    (scanToken clock line.scan token).bind fun read =>
      (thread addCell line.log read.2).toOption.map read.1.line := by
  obtain ⟨log, field, hasValue, fieldsSeen, cellsSeen⟩ := line
  simp only [readToken, scanToken, AnnotationLine.scan]
  by_cases named : isField token = true
  · simp only [if_pos named, toOption_bind, toOption_require, Bool.and_eq_true]
    by_cases started : (field.isNone || hasValue) = true
    · by_cases fresh : (!fieldsSeen.contains (String.ofList token)) = true
      · rw [if_pos started, if_pos fresh, if_pos ⟨started, fresh⟩]
        rfl
      · rw [if_pos started, if_neg fresh, if_neg (not_and_of_not_right _ fresh)]
        rfl
    · rw [if_neg started, if_neg (not_and_of_not_left _ started)]
      rfl
  · rw [if_neg named, if_neg named]
    rcases field with _ | field
    · simp
    rcases token with _ | ⟨sign, encoded⟩
    · simp
    · simp only [toOption_bind, toOption_require]
      by_cases signed : (!encoded.isEmpty && (sign == '+' || sign == '-')) = true
      · simp only [signed, if_true, Option.bind_some]
        cases annotationValue encoded with
        | none => simp
        | some value =>
            simp only [toOption_bind, toOption_require, Option.bind_some]
            by_cases fresh :
                (value != "" && !value.toList.contains '\x00' && !cellsSeen.contains (field, value)) = true
            · simp only [fresh, if_true, Option.bind_some, thread_cons, thread_nil, addCell, toOption_bind,
                toOption_require, toOption_pure, toOption_ok, Option.map_bind, Option.bind_assoc,
                Function.comp_def, Option.map_some, Option.bind_some]
              rfl
            · simp only [fresh]
              simp
      · simp only [signed]
        simp

theorem readTokens_scan (tokens : List (List Char)) : (thread (readToken clock) line tokens).toOption =
    (scanTokens clock line.scan tokens).bind fun read =>
      (thread addCell line.log read.2).toOption.map read.1.line := by
  induction tokens generalizing line with
  | nil => rfl
  | cons token tokens ih =>
      rw [thread_cons, toOption_bind, readToken_scan, scanTokens]
      cases scanToken clock line.scan token with
      | none => rfl
      | some first =>
          obtain ⟨scan, entries⟩ := first
          rw [Option.bind_some, Option.bind_some]
          dsimp only
          cases added : thread addCell line.log entries with
          | error refused =>
              cases scanTokens clock scan tokens with
              | none => rfl
              | some rest => simp [thread_append, added]
          | ok log =>
              rw [toOption_ok, Option.map_some, Option.bind_some, ih]
              change (scanTokens clock scan tokens).bind _ = _
              cases scanTokens clock scan tokens with
              | none => rfl
              | some rest => simp [thread_append, added, AnnotationScan.line]

theorem readAnnotationLine_scan (log : AnnotationLog) (chars : List Char) :
    (readAnnotationLine log chars).toOption =
      (scanLine chars).bind fun entries => (thread addCell log entries).toOption := by
  unfold readAnnotationLine scanLine
  match chars.splitOn ' ' with
  | [] => rfl
  | [_] => rfl
  | [_, _] => rfl
  | first :: second :: third :: rest =>
      dsimp only
      cases parseClock first.dropLast with
      | none => rfl
      | some clock =>
          simp only [toOption_bind, toOption_require, readTokens_scan, Option.bind_some, toOption_pure]
          by_cases marked : (first.getLast? == some 's') = true
          · rw [if_pos marked, if_pos marked, Option.bind_some]
            change ((scanTokens clock ⟨none, false, [], []⟩ (second :: third :: rest)).bind _).bind _ = _
            cases scanTokens clock ⟨none, false, [], []⟩ (second :: third :: rest) with
            | none => rfl
            | some read =>
                rw [Option.bind_some, Option.bind_some]
                cases valued : read.1.hasValue with
                | false => cases thread addCell log read.2 <;> simp [AnnotationScan.line, valued]
                | true => cases added : thread addCell log read.2 <;> simp [AnnotationScan.line, valued, added]
          · rw [if_neg marked, if_neg marked]
            rfl

/-- The cells of all lines. -/
def scanLines : List (List Char) → Option (List AnnotationEntry)
  | [] => some []
  | line :: lines => (scanLine line).bind fun first => (scanLines lines).map fun rest => first ++ rest

theorem readLines_scan (log : AnnotationLog) (lines : List (List Char)) :
    (thread readAnnotationLine log lines).toOption =
      (scanLines lines).bind fun entries => (thread addCell log entries).toOption := by
  induction lines generalizing log with
  | nil => rfl
  | cons chars lines ih =>
      rw [thread_cons, toOption_bind, readAnnotationLine_scan, scanLines]
      cases scanLine chars with
      | none => rfl
      | some entries =>
          rw [Option.bind_some, Option.bind_some]
          cases added : thread addCell log entries with
          | error refused =>
              cases scanLines lines with
              | none => rfl
              | some rest => simp [thread_append, added]
          | ok next =>
              rw [toOption_ok, Option.bind_some, ih]
              cases scanLines lines with
              | none => rfl
              | some rest => simp [thread_append, added]

end Scans

/-- The log has all the cells by their clocks, and the newest of them. -/
structure Logged (entries : List AnnotationEntry) (log : AnnotationLog) : Prop where
  newest : Newest AnnotationCell.clock entries log.state
  moments : ∀ field value clock cell, log.history[toLex (field, toLex (value, clock))]? = some cell ↔
    (toLex (field, value), cell) ∈ entries ∧ cell.clock = clock

section Cells

variable {entries : List AnnotationEntry} {log next : AnnotationLog} {state after : AnnotationState}

theorem logged_empty : Logged [] ⟨∅, ∅⟩ where
  newest := newest_empty
  moments := by simp

theorem insertCell_eq_ok {pair : String ×ₗ String} {cell : AnnotationCell} :
    insertCell state pair cell = .ok after ↔ placeCell AnnotationCell.clock state pair cell = some after := by
  unfold insertCell placeCell
  cases state[pair]? with
  | none => simp
  | some previous =>
      simp only [bind_eq_ok, require_eq_ok, pure_eq_ok, Bool.or_eq_true, bne_iff_ne, beq_iff_eq, exists_const]
      by_cases agrees : previous.clock = cell.clock ∧ previous ≠ cell
      · simp [agrees]
      · rw [if_neg agrees, Option.some.injEq]
        have fine : previous.clock ≠ cell.clock ∨ previous = cell := by tauto
        simp [fine]

theorem Logged.addCell {entry : AnnotationEntry} (logged : Logged entries log)
    (added : addCell log entry = .ok next) :
    Logged (entry :: entries) next ∧ (Coherent AnnotationCell.clock entries →
      Coherent AnnotationCell.clock (entry :: entries)) := by
  obtain ⟨pair, cell⟩ := entry
  obtain ⟨⟨field, value⟩, rfl⟩ := toLex.surjective pair
  simp only [Publication.addCell, bind_eq_ok, require_eq_ok, pure_eq_ok] at added
  obtain ⟨_, agrees, state, placed, rfl⟩ := added
  have alike (old : AnnotationCell) (there : (toLex (field, value), old) ∈ entries)
      (same : old.clock = cell.clock) : old = cell := by
    have found := (logged.moments field value cell.clock old).mpr ⟨there, same⟩
    simpa [found] using agrees
  refine ⟨⟨logged.newest.placeCell (insertCell_eq_ok.mp placed), ?_⟩, ?_⟩
  · intro field' value' clock' cell'
    dsimp only [ofLex_toLex]
    rw [Dict.lookup_insert]
    split_ifs with here
    · have parts : field = field' ∧ value = value' ∧ cell.clock = clock' := by simpa using here
      obtain ⟨rfl, rfl, rfl⟩ := parts
      rw [Option.some.injEq]
      constructor
      · rintro rfl
        exact ⟨List.mem_cons_self, rfl⟩
      · rintro ⟨member, same⟩
        rcases List.mem_cons.mp member with first | old
        · exact (congrArg Prod.snd first).symm
        · exact (alike cell' old same).symm
    · rw [logged.moments]
      constructor
      · exact fun found => ⟨List.mem_cons_of_mem _ found.1, found.2⟩
      · rintro ⟨member, rfl⟩
        rcases List.mem_cons.mp member with first | old
        · cases first
          exact absurd rfl here
        · exact ⟨old, rfl⟩
  · intro coherent key one other first second same
    rcases List.mem_cons.mp first with first | first <;> rcases List.mem_cons.mp second with second | second
    · exact (congrArg Prod.snd first).trans (congrArg Prod.snd second).symm
    · cases first
      exact (alike other second same.symm).symm
    · cases second
      exact alike one first same
    · exact coherent key one other first second same

theorem Logged.exists_addCell {entry : AnnotationEntry} (logged : Logged entries log)
    (coherent : Coherent AnnotationCell.clock (entry :: entries)) : ∃ next, Publication.addCell log entry = .ok next := by
  obtain ⟨pair, cell⟩ := entry
  obtain ⟨⟨field, value⟩, rfl⟩ := toLex.surjective pair
  obtain ⟨state, placed⟩ := logged.newest.exists_placeCell coherent
  have agrees : log.history[toLex (field, toLex (value, cell.clock))]?.all (· == cell) = true := by
    cases found : log.history[toLex (field, toLex (value, cell.clock))]? with
    | none => rfl
    | some old =>
        obtain ⟨member, same⟩ := (logged.moments field value cell.clock old).mp found
        have alike := coherent _ old cell (List.mem_cons_of_mem _ member) List.mem_cons_self same
        simp [alike]
  simp only [Publication.addCell, bind_eq_ok, require_eq_ok, pure_eq_ok]
  exact ⟨_, (), agrees, state, insertCell_eq_ok.mpr placed, rfl⟩

theorem Logged.addCells {more : List AnnotationEntry} (logged : Logged entries log)
    (added : thread Publication.addCell log more = .ok next) :
    Logged (more.reverse ++ entries) next ∧ (Coherent AnnotationCell.clock entries →
      Coherent AnnotationCell.clock (more.reverse ++ entries)) := by
  induction more generalizing entries log with
  | nil =>
      cases added
      exact ⟨logged, id⟩
  | cons entry more ih =>
      obtain ⟨middle, first, rest⟩ := bind_eq_ok.mp added
      obtain ⟨one, still⟩ := logged.addCell first
      obtain ⟨all, kept⟩ := ih one rest
      rw [List.reverse_cons, List.append_assoc]
      exact ⟨all, fun coherent => kept (still coherent)⟩

theorem Logged.exists_addCells {more : List AnnotationEntry} (logged : Logged entries log)
    (coherent : Coherent AnnotationCell.clock (more.reverse ++ entries)) :
    ∃ next, thread Publication.addCell log more = .ok next := by
  induction more generalizing entries log with
  | nil => exact ⟨log, rfl⟩
  | cons entry more ih =>
      rw [List.reverse_cons, List.append_assoc] at coherent
      obtain ⟨middle, first⟩ := logged.exists_addCell (coherent.of_subset (List.subset_append_right _ _))
      obtain ⟨next, rest⟩ := ih (logged.addCell first).1 coherent
      exact ⟨next, by rw [thread_cons, first, ok_bind, rest]⟩

/-- The cells of a log are read, or contradict each other, in any order. -/
theorem addCells_perm {cells reordered : List AnnotationEntry} (perm : cells.Perm reordered) :
    (thread Publication.addCell ⟨∅, ∅⟩ cells).toOption.map AnnotationLog.state =
      (thread Publication.addCell ⟨∅, ∅⟩ reordered).toOption.map AnnotationLog.state := by
  have reach {cells reordered : List AnnotationEntry} (perm : cells.Perm reordered) {next : AnnotationLog}
      (added : thread Publication.addCell ⟨∅, ∅⟩ cells = .ok next) :
      ∃ again, thread Publication.addCell ⟨∅, ∅⟩ reordered = .ok again ∧ again.state = next.state := by
    obtain ⟨logged, coherent⟩ := logged_empty.addCells added
    have members (entry : AnnotationEntry) : entry ∈ cells.reverse ++ [] ↔ entry ∈ reordered.reverse ++ [] := by
      simp [perm.mem_iff]
    have coherent' : Coherent AnnotationCell.clock (reordered.reverse ++ []) :=
      (coherent fun _ _ _ first => nomatch first).of_subset fun entry there => (members entry).mpr there
    obtain ⟨again, added'⟩ := logged_empty.exists_addCells coherent'
    have logged' := (logged_empty.addCells added').1
    exact ⟨again, added', logged'.newest.unique (logged.newest.of_mem_iff members)⟩
  cases added : thread Publication.addCell ⟨∅, ∅⟩ cells with
  | ok next =>
      obtain ⟨again, added', same⟩ := reach perm added
      simp [added', same]
  | error refused =>
      cases added' : thread Publication.addCell ⟨∅, ∅⟩ reordered with
      | error _ => rfl
      | ok next =>
          obtain ⟨again, impossible, _⟩ := reach perm.symm added'
          rw [added] at impossible
          cases impossible

end Cells

/-- A log with these lines. -/
def logOf (lines : List Bytes) : Bytes :=
  lines.flatMap fun line => line ++ [10]

section Lines

variable {lines reordered : List (List Char)} {entries : List AnnotationEntry}

theorem scanLines_perm (perm : lines.Perm reordered) (scanned : scanLines lines = some entries) :
    ∃ others, scanLines reordered = some others ∧ entries.Perm others := by
  induction perm generalizing entries with
  | nil => exact ⟨entries, scanned, .refl _⟩
  | cons line _ ih =>
      simp only [scanLines, Option.bind_eq_some_iff, Option.map_eq_some_iff] at scanned
      obtain ⟨first, read, rest, scanned, rfl⟩ := scanned
      obtain ⟨others, scanned', perm⟩ := ih scanned
      exact ⟨first ++ others, by simp [scanLines, read, scanned'], perm.append_left first⟩
  | swap one other lines =>
      simp only [scanLines, Option.bind_eq_some_iff, Option.map_eq_some_iff] at scanned
      obtain ⟨first, read, _, ⟨second, read', rest, scanned, rfl⟩, rfl⟩ := scanned
      refine ⟨second ++ (first ++ rest), by simp [scanLines, read, read', scanned], ?_⟩
      rw [← List.append_assoc, ← List.append_assoc]
      exact List.perm_append_comm.append_right rest
  | trans _ _ ih₁ ih₂ =>
      obtain ⟨middle, scanned', perm⟩ := ih₁ scanned
      obtain ⟨others, scanned'', perm'⟩ := ih₂ scanned'
      exact ⟨others, scanned'', perm.trans perm'⟩

theorem readLines_perm (perm : lines.Perm reordered) :
    (thread readAnnotationLine ⟨∅, ∅⟩ lines).toOption.map AnnotationLog.state =
      (thread readAnnotationLine ⟨∅, ∅⟩ reordered).toOption.map AnnotationLog.state := by
  rw [readLines_scan, readLines_scan]
  cases scanned : scanLines lines with
  | some entries =>
      obtain ⟨others, scanned', perm'⟩ := scanLines_perm perm scanned
      rw [scanned', Option.bind_some, Option.bind_some]
      exact addCells_perm perm'
  | none =>
      cases scanned' : scanLines reordered with
      | none => rfl
      | some others =>
          obtain ⟨entries, impossible, _⟩ := scanLines_perm perm.symm scanned'
          rw [scanned] at impossible
          cases impossible

/-- The lines that are read of a log are those of its parts. -/
theorem splitOn_logOf (read : UInt8 → Char) (newline : read 10 = '\n') (lines : List Bytes) :
    (((logOf lines).map read).splitOn '\n').dropLast =
      lines.flatMap fun line => (line.map read).splitOn '\n' := by
  induction lines with
  | nil => rfl
  | cons line lines ih =>
      have split : (logOf (line :: lines)).map read =
          line.map read ++ '\n' :: (logOf lines).map read := by
        simp [logOf, newline]
      rw [split, List.splitOn_append_cons_self, List.dropLast_append_of_ne_nil (List.splitOn_ne_nil _ _), ih,
        List.flatMap_cons]

theorem parseAnnotations_toOption (lines : List Bytes) : (parseAnnotations (logOf lines)).toOption =
    if (logOf lines).all (· < 128) = true then
      (thread readAnnotationLine ⟨∅, ∅⟩ (lines.flatMap fun line =>
        (line.map fun byte => Char.ofNat byte.toNat).splitOn '\n')).toOption.map AnnotationLog.state
    else none := by
  have ends : ((logOf lines).isEmpty || (logOf lines).getLast? == some 10) = true := by
    induction lines using List.reverseRecOn with
    | nil => rfl
    | append_singleton lines line _ => simp [logOf]
  rw [parseAnnotations, ends]
  simp only [toOption_bind, toOption_require, if_true, Option.bind_some, decodeAscii]
  by_cases ascii : (logOf lines).all (· < 128) = true
  · rw [if_pos ascii, if_pos ascii]
    simp only [toOption_bind, toOption_pure]
    rw [splitOn_logOf _ rfl, Option.map_eq_bind]
    rfl
  · rw [if_neg ascii, if_neg ascii]
    rfl

/-- A log that ends as it must has lines. -/
theorem exists_logOf {data : Bytes} (ends : (data.isEmpty || data.getLast? == some 10) = true) :
    ∃ lines, logOf lines = data ∧ ∀ line ∈ lines, 10 ∉ line := by
  have lined (front : Bytes) : ∃ lines, logOf lines = front ++ [10] ∧ ∀ line ∈ lines, 10 ∉ line := by
    induction front with
    | nil => exact ⟨[[]], rfl, by simp⟩
    | cons byte front ih =>
        obtain ⟨lines, same, whole⟩ := ih
        by_cases newline : byte = 10
        · refine ⟨[] :: lines, ?_, by simpa using whole⟩
          change [10] ++ logOf lines = _
          rw [same, newline]
          rfl
        · cases lines with
          | nil => simp [logOf] at same
          | cons line lines =>
              refine ⟨(byte :: line) :: lines, ?_, ?_⟩
              · change byte :: logOf (line :: lines) = _
                rw [same]
                rfl
              · intro other member
                rcases List.mem_cons.mp member with rfl | later
                · simp [Ne.symm newline, whole line List.mem_cons_self]
                · exact whole other (List.mem_cons_of_mem _ later)
  rcases List.eq_nil_or_concat' data with rfl | ⟨front, last, rfl⟩
  · exact ⟨[], rfl, by simp⟩
  · have final : last = 10 := by simpa using ends
    rw [final]
    exact lined front

/-- Whatever the order of the lines, a log is refused or has the same cells in effect. -/
theorem parseAnnotations_perm {lines reordered : List Bytes} (perm : lines.Perm reordered) :
    (parseAnnotations (logOf lines)).toOption = (parseAnnotations (logOf reordered)).toOption := by
  rw [parseAnnotations_toOption, parseAnnotations_toOption]
  have same : (logOf lines).all (· < 128) = (logOf reordered).all (· < 128) :=
    (perm.flatMap_right _).all_eq
  rw [same, readLines_perm (perm.flatMap_right _)]

end Lines

/-- What a merge of two logs has. -/
def mergeCells (before added : AnnotationState) : Except Failure AnnotationState :=
  thread (fun state entry => insertCell state entry.1 entry.2) before added.toList

section Merges

variable {before added merged one other : AnnotationState} {cells more : List AnnotationEntry}

theorem newest_thread {state next : AnnotationState} (newest : Newest AnnotationCell.clock cells state)
    (inserted : thread (fun state entry => insertCell state entry.1 entry.2) state more = .ok next) :
    Newest AnnotationCell.clock (more.reverse ++ cells) next := by
  induction more generalizing cells state with
  | nil =>
      cases inserted
      exact newest
  | cons entry more ih =>
      obtain ⟨middle, first, rest⟩ := bind_eq_ok.mp inserted
      rw [List.reverse_cons, List.append_assoc]
      exact ih (newest.placeCell (insertCell_eq_ok.mp first)) rest

theorem exists_thread {state : AnnotationState} (newest : Newest AnnotationCell.clock cells state)
    (coherent : Coherent AnnotationCell.clock (more.reverse ++ cells)) :
    ∃ next, thread (fun state entry => insertCell state entry.1 entry.2) state more = .ok next := by
  induction more generalizing cells state with
  | nil => exact ⟨state, rfl⟩
  | cons entry more ih =>
      rw [List.reverse_cons, List.append_assoc] at coherent
      obtain ⟨middle, placed⟩ := newest.exists_placeCell (coherent.of_subset (List.subset_append_right _ _))
      obtain ⟨next, rest⟩ := ih (newest.placeCell placed) coherent
      exact ⟨next, by rw [thread_cons, insertCell_eq_ok.mpr placed, ok_bind, rest]⟩

/-- A merge has the newest cells of both. -/
theorem newest_mergeCells (ok : mergeCells before added = .ok merged) :
    Newest AnnotationCell.clock (added.toList ++ before.toList) merged := by
  apply (newest_thread (newest_toList before) ok).of_mem_iff
  simp

theorem exists_mergeCells (coherent : Coherent AnnotationCell.clock (added.toList ++ before.toList)) :
    ∃ merged, mergeCells before added = .ok merged := by
  apply exists_thread (newest_toList before)
  apply coherent.of_subset
  intro entry
  simp

/-- What has been merged agrees with the cells it was merged of. -/
theorem coherent_of_newest (newest : Newest AnnotationCell.clock cells merged) (among : added.toList ⊆ cells) :
    Coherent AnnotationCell.clock (added.toList ++ merged.toList) := by
  have agree {key : String ×ₗ String} {cell top : AnnotationCell} (there : (key, cell) ∈ added.toList)
      (found : (key, top) ∈ merged.toList) (same : cell.clock = top.clock) : cell = top := by
    rw [Dict.mem_toList] at found
    have most := ((newest key top).mp found).2
    have again := (newest key cell).mpr ⟨among there, fun other listed => (most other listed).trans same.ge⟩
    exact Option.some.inj (again.symm.trans found)
  intro key one other first second same
  rcases List.mem_append.mp first with first | first <;> rcases List.mem_append.mp second with second | second
  · exact coherent_toList added key one other first second same
  · exact agree first second same
  · exact (agree second first same.symm).symm
  · exact coherent_toList merged key one other first second same

/-- What has been merged already is merged again without a change. -/
theorem mergeCells_again (newest : Newest AnnotationCell.clock cells merged) (among : added.toList ⊆ cells) :
    mergeCells merged added = .ok merged := by
  have coherent := coherent_of_newest newest among
  obtain ⟨again, ok⟩ := exists_mergeCells coherent
  have same : again = merged := by
    apply (newest_mergeCells ok).eq_of_le _ coherent
    intro key cell member
    obtain ⟨top, found, _, most⟩ := newest.exists_newest (among member)
    exact ⟨top, found, most cell (among member)⟩
  rw [← same] at ok ⊢
  rw [same] at ok ⊢
  exact ok

theorem mergeCells_self (state : AnnotationState) : mergeCells state state = .ok state :=
  mergeCells_again (newest_toList state) fun _ member => member

/-- Two logs that are merged one after the other. -/
theorem newest_mergeCells_twice {middle final : AnnotationState} (first : mergeCells before one = .ok middle)
    (second : mergeCells middle other = .ok final) :
    Newest AnnotationCell.clock (other.toList ++ (one.toList ++ before.toList)) final :=
  (newest_mergeCells first).trans (newest_mergeCells second)

/-- Logs that do not contradict each other are merged in either order, with the same cells. -/
theorem mergeCells_comm (coherent : Coherent AnnotationCell.clock (before.toList ++ one.toList ++ other.toList)) :
    ∃ first second both, mergeCells before one = .ok first ∧ mergeCells first other = .ok both ∧
      mergeCells before other = .ok second ∧ mergeCells second one = .ok both := by
  have merge {left right : AnnotationState} (leftAmong : left.toList ⊆ one.toList ++ other.toList)
      (rightAmong : right.toList ⊆ one.toList ++ other.toList) :
      ∃ middle final, mergeCells before left = .ok middle ∧ mergeCells middle right = .ok final := by
    have inLeft : left.toList ++ before.toList ⊆ before.toList ++ one.toList ++ other.toList := by
      intro entry member
      rw [List.append_assoc]
      rcases List.mem_append.mp member with member | member
      · exact List.mem_append_right _ (leftAmong member)
      · exact List.mem_append_left _ member
    obtain ⟨middle, first⟩ := exists_mergeCells (coherent.of_subset inLeft)
    have inMiddle : middle.toList ⊆ left.toList ++ before.toList := by
      intro entry member
      exact ((newest_mergeCells first entry.1 entry.2).mp (Dict.mem_toList.mp member)).1
    have inRight : right.toList ++ middle.toList ⊆ before.toList ++ one.toList ++ other.toList := by
      intro entry member
      rcases List.mem_append.mp member with member | member
      · rw [List.append_assoc]
        exact List.mem_append_right _ (rightAmong member)
      · exact inLeft (inMiddle member)
    obtain ⟨final, second⟩ := exists_mergeCells (coherent.of_subset inRight)
    exact ⟨middle, final, first, second⟩
  obtain ⟨first, both, begun, ended⟩ :=
    merge (List.subset_append_left one.toList _) (List.subset_append_right _ other.toList)
  obtain ⟨second, both', begun', ended'⟩ :=
    merge (List.subset_append_right _ other.toList) (List.subset_append_left one.toList _)
  have same : both' = both := by
    apply (newest_mergeCells_twice begun' ended').unique
    apply (newest_mergeCells_twice begun ended).of_mem_iff
    intro entry
    simp only [List.mem_append]
    tauto
  exact ⟨first, second, both, begun, ended, begun', same ▸ ended'⟩

theorem checkAnnotationMerge_eq_ok {baseline admittedSource candidate : Bytes} :
    checkAnnotationMerge baseline admittedSource candidate = .ok () ↔
      ∃ before added merged, parseAnnotations baseline = .ok before ∧ parseAnnotations admittedSource = .ok added ∧
        parseAnnotations candidate = .ok merged ∧ mergeCells before added = .ok merged := by
  simp only [checkAnnotationMerge, bind_eq_ok, require_eq_ok, beq_iff_eq]
  constructor
  · rintro ⟨before, read, added, read', expected, ok, merged, read'', same⟩
    refine ⟨before, added, merged, read, read', read'', ok.trans ?_⟩
    congr 1
    apply Dict.ext_lookup
    intro key
    ext cell
    rw [← Dict.mem_toList, ← Dict.mem_toList, same]
  · rintro ⟨before, added, merged, read, read', read'', ok⟩
    exact ⟨before, read, added, read', merged, ok, merged, read'', rfl⟩

end Merges

theorem mem_presentValues {state : AnnotationState} {field value : String} :
    value ∈ presentValues state field ↔
      ∃ cell, state[toLex (field, value)]? = some cell ∧ cell.present = true := by
  simp only [presentValues, List.mem_filterMap, Option.ite_none_right_eq_some, Option.some.injEq]
  constructor
  · rintro ⟨⟨key, cell⟩, member, ⟨rfl, present⟩, rfl⟩
    exact ⟨cell, Dict.mem_toList.mp member, present⟩
  · rintro ⟨cell, found, present⟩
    exact ⟨_, Dict.mem_toList.mpr found, ⟨rfl, present⟩, rfl⟩

/-- What an accepted write has changed. -/
theorem checkAnnotationWrite_eq_ok {before after : Bytes} {assignments : List (String × String)} {clockCeiling : ℚ}
    (accepted : checkAnnotationWrite before after assignments clockCeiling = .ok ()) :
    ∃ old new, parseAnnotations before = .ok old ∧ parseAnnotations after = .ok new ∧
      (∀ assignment ∈ assignments, ∀ value : String, (∃ cell, new[toLex (assignment.1, value)]? = some cell ∧
        cell.present = true) ↔ value = assignment.2) ∧
      ∀ field : String, (∀ assignment ∈ assignments, assignment.1 ≠ field) →
        ∀ value : String, new[toLex (field, value)]? = old[toLex (field, value)]? := by
  simp only [checkAnnotationWrite, bind_eq_ok, require_eq_ok] at accepted
  obtain ⟨old, read, new, read', _, _, _, _, _, cells, values⟩ := accepted
  refine ⟨old, new, read, read', ?_, ?_⟩
  · intro assignment member value
    have only := of_thread_checks values assignment member
    rw [require_eq_ok, beq_iff_eq] at only
    rw [← mem_presentValues, only, List.mem_singleton]
  · intro field unassigned value
    have absent : assigned assignments field = none := by
      rw [assigned, ← Dict.not_mem_iff_lookup, Dict.mem_ofPairs]
      rintro ⟨other, member⟩
      exact unassigned _ member rfl
    by_contra changed
    have listed : toLex (field, value) ∈ sortedSet (old.keys ++ new.keys) := by
      rw [mem_sortedSet, List.mem_append, Dict.mem_keys, Dict.mem_keys]
      by_contra nowhere
      rw [not_or, Dict.not_mem_iff_lookup, Dict.not_mem_iff_lookup] at nowhere
      exact changed (nowhere.2.trans nowhere.1.symm)
    have checked := of_thread_checks cells _ listed
    unfold checkWrittenCell at checked
    rw [if_neg (Ne.symm changed)] at checked
    split at checked
    · rename_i value' cell assigns _
      exact absurd (absent.symm.trans assigns) (Option.some_ne_none value').symm
    · cases checked

/-- A log says the same in any order of its lines, a merge has the newest cell of every pair and is the same when
    made again or in another order, and a write sets what is assigned and nothing else. -/
theorem annotations_converge :
    (∀ data, (parseAnnotations data).toOption = none ∨
      ∃ lines, logOf lines = data ∧ (∀ line ∈ lines, 10 ∉ line) ∧ ∀ reordered, lines.Perm reordered →
        (parseAnnotations (logOf reordered)).toOption = (parseAnnotations data).toOption) ∧
    (∀ baseline source candidate, checkAnnotationMerge baseline source candidate = .ok () →
      ∃ before added merged, parseAnnotations baseline = .ok before ∧ parseAnnotations source = .ok added ∧
        parseAnnotations candidate = .ok merged ∧
        Newest AnnotationCell.clock (added.toList ++ before.toList) merged ∧
        checkAnnotationMerge candidate source candidate = .ok () ∧
        checkAnnotationMerge candidate baseline candidate = .ok ()) ∧
    (∀ log state, parseAnnotations log = .ok state → checkAnnotationMerge log log log = .ok ()) ∧
    (∀ before one other : AnnotationState,
      Coherent AnnotationCell.clock (before.toList ++ one.toList ++ other.toList) →
      ∃ first second both, mergeCells before one = .ok first ∧ mergeCells first other = .ok both ∧
        mergeCells before other = .ok second ∧ mergeCells second one = .ok both) ∧
    (∀ baseline one other first second final again, checkAnnotationMerge baseline one first = .ok () →
      checkAnnotationMerge first other final = .ok () → checkAnnotationMerge baseline other second = .ok () →
      checkAnnotationMerge second one again = .ok () → parseAnnotations final = parseAnnotations again) ∧
    (∀ before after assignments clockCeiling,
      checkAnnotationWrite before after assignments clockCeiling = .ok () →
      ∃ old new, parseAnnotations before = .ok old ∧ parseAnnotations after = .ok new ∧
        (∀ assignment ∈ assignments, ∀ value : String, (∃ cell, new[toLex (assignment.1, value)]? = some cell ∧
          cell.present = true) ↔ value = assignment.2) ∧
        ∀ field : String, (∀ assignment ∈ assignments, assignment.1 ≠ field) →
          ∀ value : String, new[toLex (field, value)]? = old[toLex (field, value)]?) := by
  refine ⟨?_, ?_, ?_, fun before one other coherent => mergeCells_comm coherent, ?_,
    fun before after assignments clockCeiling accepted => checkAnnotationWrite_eq_ok accepted⟩
  · intro data
    by_cases ends : (data.isEmpty || data.getLast? == some 10) = true
    · right
      obtain ⟨lines, rfl, whole⟩ := exists_logOf ends
      exact ⟨lines, rfl, whole, fun reordered perm => parseAnnotations_perm perm.symm⟩
    · left
      rw [parseAnnotations, toOption_bind, toOption_require, if_neg ends]
      rfl
  · intro baseline source candidate accepted
    obtain ⟨before, added, merged, read, read', read'', ok⟩ := checkAnnotationMerge_eq_ok.mp accepted
    have newest := newest_mergeCells ok
    refine ⟨before, added, merged, read, read', read'', newest, ?_, ?_⟩
    · exact checkAnnotationMerge_eq_ok.mpr ⟨merged, added, merged, read'', read', read'',
        mergeCells_again newest (List.subset_append_left _ _)⟩
    · exact checkAnnotationMerge_eq_ok.mpr ⟨merged, before, merged, read'', read, read'',
        mergeCells_again newest (List.subset_append_right _ _)⟩
  · intro log state read
    exact checkAnnotationMerge_eq_ok.mpr ⟨state, state, state, read, read, read, mergeCells_self state⟩
  · intro baseline one other first second final again begun ended begun' ended'
    obtain ⟨_, oneState, _, read, readOne, readFirst, mergeOne⟩ := checkAnnotationMerge_eq_ok.mp begun
    obtain ⟨_, otherState, both, same, readOther, readBoth, mergeOther⟩ := checkAnnotationMerge_eq_ok.mp ended
    cases readFirst.symm.trans same
    obtain ⟨_, _, _, same, same', readSecond, mergeOther'⟩ := checkAnnotationMerge_eq_ok.mp begun'
    cases read.symm.trans same
    cases readOther.symm.trans same'
    obtain ⟨_, _, both', same, same', readBoth', mergeOne'⟩ := checkAnnotationMerge_eq_ok.mp ended'
    cases readSecond.symm.trans same
    cases readOne.symm.trans same'
    rw [readBoth, readBoth']
    congr 1
    apply (newest_mergeCells_twice mergeOne mergeOther).unique
    apply (newest_mergeCells_twice mergeOther' mergeOne').of_mem_iff
    intro entry
    simp only [List.mem_append]
    tauto

/-- A log of one tag, a source that replaces its value, and what they are merged to. -/
theorem annotations_converge_replaced :
    let baseline := "1s model +a\n".toUTF8.data.toList
    let source := "2s model -a +b\n".toUTF8.data.toList
    let candidate := "2s model +b -a\n".toUTF8.data.toList
    checkAnnotationMerge candidate baseline candidate = .ok () ∧
      ∃ old new, parseAnnotations baseline = .ok old ∧ parseAnnotations source = .ok new ∧
        new[toLex ("format", "gguf")]? = old[toLex ("format", "gguf")]? := by
  obtain ⟨_, _, _, _, _, _, _, _, again⟩ := annotations_converge.2.1 "1s model +a\n".toUTF8.data.toList
    "2s model -a +b\n".toUTF8.data.toList "2s model +b -a\n".toUTF8.data.toList (by decide +kernel)
  obtain ⟨old, new, read, read', _, kept⟩ := annotations_converge.2.2.2.2.2 "1s model +a\n".toUTF8.data.toList
    "2s model -a +b\n".toUTF8.data.toList [("model", "b")] 3 (by decide +kernel)
  exact ⟨again, old, new, read, read', kept "format" (by decide) "gguf"⟩

end Modelark.Publication
