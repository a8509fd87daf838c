import Modelark.Planning.Deposits

/-!
# Convergence of planning and execution

Planning again after the task of one candidate was executed: its requirement is satisfied on the
candidate's target, and no other requirement is worse off.
-/

open Modelark.Archive

namespace Modelark.Planning.PlannerInput

open Library

variable {inp : PlannerInput} {u : Unicode} {graph : RequirementGraph} {req other : CopyRequirement}
  {rows : List ArchivedFileFact} {c : Candidate}

/-- A satisfied requirement is listed with every drive that holds a complete copy of it. -/
theorem satisfied_of_complete (desired : req ∈ graph.desired) {held : Holding}
    (complete : held ∈ inp.complete u req) :
    ∃ done ∈ (inp.candidates u graph).satisfied, done.requirementId = req.requirementId ∧
      held.driveLabel ∈ done.copies.map SatisfiedCopy.driveLabel := by
  refine ⟨inp.satisfaction u req, ?_, rfl, ?_⟩
  · simp only [candidates, mem_sortBy, List.mem_map, List.mem_filter]
    exact ⟨req, ⟨desired, by simpa using List.ne_nil_of_mem complete⟩, rfl⟩
  · simp only [satisfaction, List.map_map, List.mem_map, Function.comp_apply]
    exact ⟨held, mem_sortBy.mpr complete, rfl⟩

/-- The target of a candidate, and what the candidate is missing there. -/
theorem finishable_of_candidate (member : c ∈ inp.candidatesOf u graph req) :
    c.targetDrive ∈ inp.acceptedCompletePool req ∧ c.targetDrive ∈ req.eligibleDrives ∧
      (inp.holding u req c.targetDrive).unproven = [] ∧
      c.missingFiles = (inp.holding u req c.targetDrive).missing := by
  obtain ⟨held, finish, made⟩ := mem_candidatesOf.mp member
  obtain ⟨label, pooled, rfl, unproven, _, eligible⟩ := mem_finishable.mp finish
  rcases made with ⟨_, rfl⟩ | ⟨_, source, _, rfl⟩ <;> exact ⟨pooled, eligible, unproven, rfl⟩

/-- What a drive holds of a manifest depends on the repository alone. -/
theorem holding_congr (sameRepo : other.repoId = req.repoId) (label : String) :
    inp.holding u other label = inp.holding u req label := by
  simp only [holding, sameRepo]

section Executed

variable (member : c ∈ inp.candidatesOf u graph req)
  (deposit : Deposit u (c.copies req.repoId) rows)
include member deposit

/-- A drive either holds what it held, or it is the target and now holds the whole manifest. -/
theorem holding_executed (label : String) :
    (inp.extend rows).holding u other label = inp.holding u other label ∨
    (other.repoId = req.repoId ∧ label = c.targetDrive ∧
      ((inp.extend rows).holding u other label).unproven = [] ∧
      ((inp.extend rows).holding u other label).missing = []) := by
  obtain ⟨_, _, unproven, missing⟩ := finishable_of_candidate member
  by_cases here : other.repoId = req.repoId ∧ label = c.targetDrive
  · obtain ⟨sameRepo, rfl⟩ := here
    right
    have same := @holding_congr inp u req other sameRepo c.targetDrive
    refine ⟨sameRepo, rfl, holding_deposited deposit (same ▸ unproven) ?_ ?_⟩
    · intro mf listed
      rw [same, ← missing] at listed
      rw [sameRepo]
      exact List.mem_map_of_mem listed
    · intro copy copied
      obtain ⟨mf, listed, rfl⟩ := List.mem_map.mp copied
      rw [missing] at listed
      exact verdict_missing.mp (verdict_of_missing listed)
  · left
    refine holding_undeposited deposit ?_
    rintro copy copied ⟨inRepo, onDrive⟩
    obtain ⟨mf, _, rfl⟩ := List.mem_map.mp copied
    exact here ⟨inRepo.symm, onDrive.symm⟩

/-- The executed candidate's requirement has a complete copy on the target. -/
theorem complete_executed :
    (inp.extend rows).holding u req c.targetDrive ∈ (inp.extend rows).complete u req := by
  obtain ⟨pooled, _, unproven, missing⟩ := finishable_of_candidate member
  refine mem_complete.mpr ⟨c.targetDrive, pooled, rfl, holding_deposited deposit unproven ?_ ?_⟩
  · exact fun mf listed => List.mem_map_of_mem (missing ▸ listed)
  · intro copy copied
    obtain ⟨mf, listed, rfl⟩ := List.mem_map.mp copied
    exact verdict_missing.mp (verdict_of_missing (missing ▸ listed))

/-- A complete copy stays complete. -/
theorem complete_keeps (before : inp.complete u other ≠ []) :
    (inp.extend rows).complete u other ≠ [] := by
  obtain ⟨held, done⟩ := List.exists_mem_of_ne_nil _ before
  obtain ⟨label, pooled, rfl, unproven, missing⟩ := mem_complete.mp done
  refine List.ne_nil_of_mem (mem_complete.mpr ⟨label, pooled, rfl, ?_⟩)
  rcases @holding_executed inp u graph req other rows c member deposit label with
    unchanged | ⟨_, _, now⟩
  · rw [unchanged]
    exact ⟨unproven, missing⟩
  · exact now

/-- A requirement that could be finished can still be finished, or is satisfied. -/
theorem blocked_executed (blocked : (inp.extend rows).isBlocked u graph other = true) :
    inp.isBlocked u graph other = true := by
  simp only [isBlocked, Bool.and_eq_true, List.isEmpty_iff] at blocked ⊢
  obtain ⟨incomplete, stuck⟩ := blocked
  refine ⟨by_contra fun before => complete_keeps member deposit before incomplete, ?_⟩
  by_contra before
  obtain ⟨d, listed⟩ := List.exists_mem_of_ne_nil _ before
  obtain ⟨held, finish, _⟩ := mem_candidatesOf.mp listed
  obtain ⟨label, pooled, rfl, unproven, missing, eligible⟩ := mem_finishable.mp finish
  rcases @holding_executed inp u graph req other rows c member deposit label with
    unchanged | ⟨_, _, now⟩
  · obtain ⟨d', listed', _⟩ := @candidate_of_finishable (inp.extend rows) u graph other _
      (mem_finishable.mpr ⟨label, pooled, unchanged.symm, unproven, missing, eligible⟩)
    rw [stuck] at listed'
    cases listed'
  · have done : (inp.extend rows).holding u other label ∈ (inp.extend rows).complete u other :=
      mem_complete.mpr ⟨label, pooled, rfl, now⟩
    rw [incomplete] at done
    cases done

end Executed

/-- Executing one candidate of an open requirement satisfies that requirement on the candidate's
    target, keeps every satisfied requirement satisfied, blocks nothing and leaves the desired copies
    as they are. -/
theorem candidate_converges (u : Unicode) (inp : PlannerInput) (req : CopyRequirement)
    (desired : req ∈ inp.requirements.desired) (cands : List Candidate)
    (open' : (req.requirementId, cands) ∈ (inp.candidates u inp.requirements).byRequirement)
    (c : Candidate) (among : c ∈ cands) (rows : List ArchivedFileFact)
    (deposit : Deposit u (c.copies req.repoId) rows) :
    (∃ done ∈ ((inp.extend rows).candidates u (inp.extend rows).requirements).satisfied,
      done.requirementId = req.requirementId ∧
        c.targetDrive ∈ done.copies.map SatisfiedCopy.driveLabel) ∧
    (∀ done ∈ (inp.candidates u inp.requirements).satisfied,
      ∃ still ∈ ((inp.extend rows).candidates u (inp.extend rows).requirements).satisfied,
        still.requirementId = done.requirementId) ∧
    (∀ item ∈ ((inp.extend rows).candidates u (inp.extend rows).requirements).blocked,
      item ∈ (inp.candidates u inp.requirements).blocked) ∧
    (inp.extend rows).requirements = inp.requirements := by
  have member : c ∈ inp.candidatesOf u inp.requirements req := by
    obtain ⟨req', desired', _, id, same⟩ := mem_byRequirement open'
    obtain rfl := List.inj_on_of_nodup_map nodup_requirements desired desired' id
    obtain rfl : cands = _ := same
    exact mem_sortBy.mp among
  rw [extend_requirements]
  refine ⟨?_, ?_, ?_, rfl⟩
  · exact satisfied_of_complete desired (complete_executed member deposit)
  · intro done listed
    obtain ⟨other, otherDesired, before, id⟩ :=
      mem_satisfied.mp (List.mem_map_of_mem (f := Satisfaction.requirementId) listed)
    obtain ⟨held, now⟩ := List.exists_mem_of_ne_nil _ (complete_keeps member deposit before)
    obtain ⟨still, listed', id', _⟩ := satisfied_of_complete otherDesired now
    exact ⟨still, listed', id'.trans id⟩
  · intro item listed
    obtain ⟨other, otherDesired, blocked, id, reason⟩ := mem_blocked listed
    simp only [candidates, mem_sortBy, List.mem_map, List.mem_filter]
    refine ⟨other, ⟨otherDesired, blocked_executed member deposit blocked⟩, ?_⟩
    cases item
    simp_all

section Sample

/-- A hashed and an unhashed file on two equal drives, one of which holds a part already. -/
def twoDriveManifests : List (String × List ManifestFile) :=
  [("m", [⟨"big.safetensors", 100, some "aa", .compress⟩, ⟨"note.txt", 5, none, .raw⟩])]

def twoDriveInput : PlannerInput where
  selection := ["m"]
  manifests := twoDriveManifests
  uniqueRepos := by decide
  numcopies := []
  drives := [⟨"alpha", "primary", false, 200, none, none, none, "active", "enabled"⟩,
    ⟨"beta", "primary", false, 200, none, none, none, "active", "enabled"⟩]
  archived := [⟨"m", "alpha", "big.safetensors", some "aa", some 100, some 60, none, true⟩]
  budget := ⟨⟨fun _ => true, true, true⟩, ManifestFile.sizeBytes⟩

def twoDriveRequirement : CopyRequirement :=
  ⟨"primary:m", "m", .primary, ["alpha", "beta"], none⟩

def finishAlpha : Candidate :=
  twoDriveInput.fetchCandidate twoDriveRequirement
    (twoDriveInput.holding asciiUnicode twoDriveRequirement "alpha")

def noteRow : ArchivedFileFact :=
  ⟨"m", "alpha", "note.txt", some "bb", some 5, some 5, none, false⟩

theorem noteRow_deposit : Deposit asciiUnicode (finishAlpha.copies "m") [noteRow] where
  written := by
    intro copy copied
    obtain rfl : copy = ⟨"m", "alpha", ⟨"note.txt", 5, none, .raw⟩⟩ := by
      revert copied
      decide +revert +kernel
    exact ⟨noteRow, by simp, rfl, rfl, rfl, rfl, by decide +kernel⟩
  only := by
    intro row listed
    obtain rfl := List.mem_singleton.mp listed
    exact ⟨⟨"m", "alpha", ⟨"note.txt", 5, none, .raw⟩⟩, by decide +kernel, rfl, rfl, rfl, rfl,
      by decide +kernel⟩
  distinct := List.nodup_singleton _

theorem candidate_converges_alpha :
    ∃ done ∈ ((twoDriveInput.extend [noteRow]).candidates asciiUnicode
        (twoDriveInput.extend [noteRow]).requirements).satisfied,
      done.requirementId = "primary:m" ∧ "alpha" ∈ done.copies.map SatisfiedCopy.driveLabel :=
  (candidate_converges asciiUnicode twoDriveInput twoDriveRequirement (by decide +kernel)
    (sortBy candidateKey
      (twoDriveInput.candidatesOf asciiUnicode twoDriveInput.requirements twoDriveRequirement))
    (by decide +kernel) finishAlpha (by decide +kernel) [noteRow] noteRow_deposit).1

end Sample

end Modelark.Planning.PlannerInput
