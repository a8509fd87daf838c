import Modelark.Planning.Outcomes

/-!
# Deposits

Rows that executions write into the archive: one for each copied file, with the file's size and
evidence that satisfies its manifest hash. A deposit proves the files it copies and changes the
verdict on nothing else.
-/

open Modelark.Archive

namespace Modelark.Planning

open Library

/-- One file to be copied to a drive. -/
structure FileCopy where
  repoId : String
  driveLabel : String
  file : ManifestFile
  deriving DecidableEq

/-- A row that records the finished copy of a file. -/
structure Records (u : Unicode) (copy : FileCopy) (row : ArchivedFileFact) : Prop where
  repoId : row.repoId = copy.repoId
  driveLabel : row.driveLabel = copy.driveLabel
  rfilename : row.rfilename = copy.file.rfilename
  origBytes : row.origBytes = some copy.file.sizeBytes
  evidence : satisfiedBy u copy.file.sha256 row = true

/-- The primary key of the archive. -/
def rowKey (row : ArchivedFileFact) : String × String × String :=
  (row.repoId, row.driveLabel, row.rfilename)

/-- One row for every copy, in any order, and no other row. -/
structure Deposit (u : Unicode) (copies : List FileCopy) (rows : List ArchivedFileFact) : Prop where
  written : ∀ copy ∈ copies, ∃ row ∈ rows, Records u copy row
  only : ∀ row ∈ rows, ∃ copy ∈ copies, Records u copy row
  distinct : (rows.map rowKey).Nodup

/-- The copies that a candidate's task makes. -/
def Candidate.copies (c : Candidate) (repo : String) : List FileCopy :=
  c.missingFiles.map (⟨repo, c.targetDrive, ·⟩)

namespace PlannerInput

/-- The input after rows were added to the archive. -/
def extend (inp : PlannerInput) (rows : List ArchivedFileFact) : PlannerInput :=
  { inp with archived := inp.archived ++ rows }

variable {inp : PlannerInput} {u : Unicode} {copies : List FileCopy} {rows : List ArchivedFileFact}

@[simp] theorem extend_requirements : (inp.extend rows).requirements = inp.requirements := rfl

@[simp] theorem extend_manifestOf (repo : String) :
    (inp.extend rows).manifestOf repo = inp.manifestOf repo := rfl

@[simp] theorem extend_acceptedCompletePool (req : CopyRequirement) :
    (inp.extend rows).acceptedCompletePool req = inp.acceptedCompletePool req := rfl

@[simp] theorem extend_byLabel : (inp.extend rows).byLabel = inp.byLabel := rfl

theorem rowOf_eq_some {repo label rfilename : String} {row : ArchivedFileFact}
    (found : inp.rowOf repo label rfilename = some row) : row ∈ inp.archived ∧ row.repoId = repo ∧
      row.driveLabel = label ∧ row.rfilename = rfilename := by
  have member := List.mem_of_find?_eq_some found
  have named := List.find?_some found
  simp only [rowsOn, List.mem_reverse, List.mem_filter, Bool.and_eq_true, beq_iff_eq] at member named
  exact ⟨member.1, member.2.1, member.2.2, named⟩

theorem rowOf_extend (repo label rfilename : String) :
    (inp.extend rows).rowOf repo label rfilename =
      (({ inp with archived := rows } : PlannerInput).rowOf repo label rfilename).or
        (inp.rowOf repo label rfilename) := by
  simp only [rowOf, rowsOn, extend, List.filter_append, List.reverse_append, List.find?_append]

section Deposit

variable (deposit : Deposit u copies rows)
include deposit

/-- After a deposit, the row of a copied file is the one that records the copy. -/
theorem rowOf_deposited {copy : FileCopy} (copied : copy ∈ copies) :
    ∃ row, (inp.extend rows).rowOf copy.repoId copy.driveLabel copy.file.rfilename = some row ∧
      row ∈ rows ∧ Records u copy row := by
  obtain ⟨row, listed, records⟩ := deposit.written copy copied
  cases found : ({ inp with archived := rows } : PlannerInput).rowOf copy.repoId copy.driveLabel
      copy.file.rfilename with
  | none =>
      exact absurd ⟨records.repoId, records.driveLabel, records.rfilename⟩
        (rowOf_eq_none.mp found row listed)
  | some other =>
      obtain ⟨among, repo, drive, name⟩ := rowOf_eq_some found
      have same : other = row := List.inj_on_of_nodup_map deposit.distinct among listed (by
        rw [rowKey, rowKey, repo, drive, name, records.repoId, records.driveLabel,
          records.rfilename])
      exact ⟨row, by rw [rowOf_extend, found, same]; rfl, listed, records⟩

/-- A deposit leaves the row of every other file alone. -/
theorem rowOf_undeposited {repo label rfilename : String}
    (other : ∀ copy ∈ copies,
      ¬(copy.repoId = repo ∧ copy.driveLabel = label ∧ copy.file.rfilename = rfilename)) :
    (inp.extend rows).rowOf repo label rfilename = inp.rowOf repo label rfilename := by
  have absent : ({ inp with archived := rows } : PlannerInput).rowOf repo label rfilename = none := by
    refine rowOf_eq_none.mpr fun row listed ⟨inRepo, onDrive, named⟩ => ?_
    obtain ⟨copy, copied, records⟩ := deposit.only row listed
    exact other copy copied ⟨records.repoId.symm.trans inRepo,
      records.driveLabel.symm.trans onDrive, records.rfilename.symm.trans named⟩
  rw [rowOf_extend, absent, Option.none_or]

theorem verdict_deposited {copy : FileCopy} (copied : copy ∈ copies) :
    (inp.extend rows).verdict u copy.repoId copy.driveLabel copy.file = .proven := by
  obtain ⟨row, found, _, records⟩ := rowOf_deposited deposit copied
  exact verdict_proven.mpr ⟨row, found, records.origBytes, records.evidence⟩

theorem verdict_undeposited {repo label : String} {mf : ManifestFile}
    (other : ∀ copy ∈ copies,
      ¬(copy.repoId = repo ∧ copy.driveLabel = label ∧ copy.file.rfilename = mf.rfilename)) :
    (inp.extend rows).verdict u repo label mf = inp.verdict u repo label mf := by
  rw [verdict, verdict, rowOf_undeposited deposit other]

/-- A drive that receives no file of a repository holds what it held. -/
theorem holding_undeposited {req : CopyRequirement} {label : String}
    (other : ∀ copy ∈ copies, ¬(copy.repoId = req.repoId ∧ copy.driveLabel = label)) :
    (inp.extend rows).holding u req label = inp.holding u req label := by
  have rowSame : ∀ rfilename, (inp.extend rows).rowOf req.repoId label rfilename =
      inp.rowOf req.repoId label rfilename := fun _ =>
    rowOf_undeposited deposit fun copy copied here => other copy copied ⟨here.1, here.2.1⟩
  simp only [holding, verdict, rowSame, extend_manifestOf]
  rfl

/-- A drive that receives all it misses of a repository holds the whole manifest. -/
theorem holding_deposited {req : CopyRequirement} {label : String}
    (unproven : (inp.holding u req label).unproven = [])
    (filled : ∀ mf ∈ (inp.holding u req label).missing, ⟨req.repoId, label, mf⟩ ∈ copies)
    (absent : ∀ copy ∈ copies, inp.rowOf copy.repoId copy.driveLabel copy.file.rfilename = none) :
    ((inp.extend rows).holding u req label).unproven = [] ∧
      ((inp.extend rows).holding u req label).missing = [] := by
  have proven : ∀ mf ∈ inp.manifestOf req.repoId,
      (inp.extend rows).verdict u req.repoId label mf = .proven := by
    intro mf listed
    cases before : inp.verdict u req.repoId label mf with
    | unproven => exact absurd before (verdict_of_unproven_nil unproven listed)
    | missing =>
        exact verdict_deposited deposit (filled mf (by simp [holding, listed, before]))
    | proven =>
        obtain ⟨row, found, _⟩ := verdict_proven.mp before
        rw [verdict_undeposited deposit, before]
        rintro copy copied ⟨inRepo, onDrive, named⟩
        have none := absent copy copied
        rw [inRepo, onDrive, named, found] at none
        cases none
  constructor
  · simp only [holding, extend_manifestOf, List.filter_eq_nil_iff, decide_eq_true_eq]
    exact fun mf listed bad => by rw [proven mf listed] at bad; cases bad
  · simp only [holding, extend_manifestOf, sortBy_eq_nil, List.filter_eq_nil_iff, decide_eq_true_eq]
    exact fun mf listed bad => by rw [proven mf listed] at bad; cases bad

end Deposit

end PlannerInput

end Modelark.Planning
