import Modelark.Archive.Evidence
import Modelark.Revision.Discipline

/-!
# Healing a replica

What a heal of one archived row from another may do to the catalog, over every pair of rows: which
evidence it accepts, what it fills, and that a second heal finds nothing to do.
-/

namespace Modelark.Revision

open Library Archive.Unicode

variable {u : Archive.Unicode}

/-- The original-byte digest a row resolves to by itself. -/
def ArchivedRow.evidence (u : Archive.Unicode) (row : ArchivedRow) :
    Except Archive.DigestError (Option String) :=
  u.expectedSha256 none row.origSha256 (some row.compressed) row.annexKey

def ArchivedRow.keyDigest (u : Archive.Unicode) (row : ArchivedRow) : Option String :=
  u.annexDigest (some row.compressed) row.annexKey

/-- The target with the source's digest and its provenance. -/
def ArchivedRow.withDigestOf (target source : ArchivedRow) : ArchivedRow :=
  { target with
    origSha256 := source.origSha256
    origSha256Provenance := source.origSha256Provenance }

def ArchivedRow.withProvenanceOf (target source : ArchivedRow) : ArchivedRow :=
  { target with origSha256Provenance := source.origSha256Provenance }

@[simp] theorem ArchivedRow.key_withDigestOf (target source : ArchivedRow) :
    (target.withDigestOf source).key = target.key := rfl

@[simp] theorem ArchivedRow.key_withProvenanceOf (target source : ArchivedRow) :
    (target.withProvenanceOf source).key = target.key := rfl

@[simp] theorem ArchivedRow.evidence_withProvenanceOf (target source : ArchivedRow) :
    (target.withProvenanceOf source).evidence u = target.evidence u := rfl

/-- The source's digest field holds only blanks beside a key that resolves, and the target has neither:
    the blanks are copied although they are no evidence. -/
def BlankFill (u : Archive.Unicode) (source target : ArchivedRow) : Prop :=
  (∃ text, source.origSha256 = some text ∧ text ≠ "" ∧ u.strip text = "") ∧
    source.keyDigest u ≠ none ∧ target.origSha256 = none ∧ target.keyDigest u = none

section Rows

variable {source target : ArchivedRow} {digest : String}

/-- A key that resolves is what a row without a digest resolves to. -/
theorem keyDigest_of_evidence {resolved : Option String} (empty : target.origSha256 = none)
    (found : target.evidence u = .ok resolved) : target.keyDigest u = resolved := by
  rw [ArchivedRow.evidence, empty] at found
  cases key : target.keyDigest u with
  | none =>
      rw [own_of_nothing rfl rfl key] at found
      exact Except.ok.inj found
  | some other => exact (resolved_of_source found (.inr (.inr key))).symm

/-- A target that takes over the source's digest resolves to what the source resolves to. -/
theorem evidence_filled (lawful : u.Lawful)
    (found : source.evidence u = .ok (some digest))
    (present : Archive.truthy source.origSha256 = true) (empty : target.origSha256 = none)
    (compatible : target.keyDigest u = none ∨ target.keyDigest u = some digest)
    (ordinary : ¬BlankFill u source target) :
    (target.withDigestOf source).evidence u = .ok (some digest) := by
  rcases own_eq_ok found with ⟨clean, own⟩ | ⟨text, named, bad, noKey, rfl⟩
  · cases column : u.hex64 source.origSha256 with
    | some other =>
        have same : other = digest :=
          Option.some.inj (resolved_of_source found (.inr (.inl column))).symm
        subst same
        refine own_of_sources clean ?_ (.inl column)
        rintro result (orig | key)
        · exact Option.some.inj (orig.symm.trans column)
        · rcases compatible with none | same
          · exact absurd (none.symm.trans key) (by simp)
          · exact Option.some.inj (key.symm.trans same)
    | none =>
        have key := own.resolve_left (by simp [column])
        obtain ⟨text, named⟩ : ∃ text, source.origSha256 = some text :=
          Option.ne_none_iff_exists'.mp (by rintro absent; simp [absent, Archive.truthy] at present)
        have blank : u.strip text = "" := by
          rw [named] at clean column
          simpa [malformed, presentNonempty, column] using clean
        have nonempty : text ≠ "" := by simpa [named, Archive.truthy] using present
        have targetKey : target.keyDigest u = some digest := by
          refine compatible.resolve_left fun none => ordinary ?_
          refine ⟨⟨text, named, nonempty, blank⟩, ?_, empty, none⟩
          rw [ArchivedRow.keyDigest, key]
          simp
        refine own_of_sources clean ?_ (.inr targetKey)
        rintro result (orig | other)
        · exact absurd (column.symm.trans orig) (by simp)
        · exact Option.some.inj (other.symm.trans targetKey)
  · -- A malformed text is no 64 digits, so the target's key cannot have resolved to it.
    have targetNone : target.keyDigest u = none := by
      refine compatible.resolve_right fun key => ?_
      have hex := hex_of_source lawful.lowersHex (show u.WellFormedSource none none
        (some target.compressed) target.annexKey _ from .inr (.inr key))
      have column : (u.hex64 (some text)).isSome = true := by
        simp [hex64, Option.filter, hex.1, hex.2]
      rw [named, malformed, Bool.and_eq_true, Option.isNone_iff_eq_none] at bad
      rw [bad.2] at column
      cases column
    rw [ArchivedRow.evidence, ArchivedRow.withDigestOf]
    dsimp only
    rw [named] at bad ⊢
    exact own_of_malformed bad targetNone

/-- The decision once both rows resolve, by what they resolve to. -/
theorem classify_of_ok (lawful : u.Lawful) {resolved : Option String}
    (sourceOk : source.evidence u = .ok (some digest)) (targetOk : target.evidence u = .ok resolved) :
    classifyReplicaHeal u source target =
      if resolved = some digest then
        if target.origSha256.isNone && Archive.truthy source.origSha256 then .fill .digest
        else if Archive.truthy target.origSha256 && target.origSha256Provenance.isNone &&
            source.origSha256Provenance.isSome then .fill .provenance
        else .satisfied
      else if resolved.isSome then .haltContradiction
      else if Archive.truthy source.origSha256 then .fill .digest
      else .noop := by
  rw [ArchivedRow.evidence] at sourceOk targetOk
  simp only [classifyReplicaHeal, sourceOk, targetOk, satisfies_own_iff lawful sourceOk,
    Except.ok.injEq, Option.isNone_some, Bool.false_eq_true, if_false]

theorem classify_of_unresolved {resolved : Option String}
    (sourceOk : source.evidence u = .ok none) (targetOk : target.evidence u = .ok resolved) :
    classifyReplicaHeal u source target = .noop := by
  rw [ArchivedRow.evidence] at sourceOk targetOk
  simp [classifyReplicaHeal, sourceOk, targetOk]

theorem classify_of_error {error : Archive.DigestError}
    (refused : source.evidence u = .error error ∨ target.evidence u = .error error) :
    classifyReplicaHeal u source target = .haltContradiction := by
  rw [ArchivedRow.evidence, ArchivedRow.evidence] at refused
  unfold classifyReplicaHeal
  split
  · rename_i sourceOk targetOk
    rw [sourceOk, targetOk] at refused
    rcases refused with refused | refused <;> cases refused
  · rfl

/-- Whatever is decided other than to halt, both rows resolve without an error. -/
theorem resolved_of_classify {action : HealAction}
    (decision : classifyReplicaHeal u source target = action) (runs : action ≠ .haltContradiction) :
    ∃ sourceResolved targetResolved, source.evidence u = .ok sourceResolved ∧
      target.evidence u = .ok targetResolved := by
  cases sourceOk : source.evidence u with
  | error => exact absurd (decision.symm.trans (classify_of_error (.inl sourceOk))) runs
  | ok sourceResolved =>
      cases targetOk : target.evidence u with
      | error => exact absurd (decision.symm.trans (classify_of_error (.inr targetOk))) runs
      | ok targetResolved => exact ⟨_, _, rfl, rfl⟩

/-- What each decision tells about the two rows. -/
theorem classify_cases (lawful : u.Lawful) {action : HealAction}
    (decision : classifyReplicaHeal u source target = action) (runs : action ≠ .haltContradiction) :
    action = .noop ∨ ∃ digest resolved, source.evidence u = .ok (some digest) ∧
      target.evidence u = .ok resolved ∧
      ((action = .fill .digest ∧ Archive.truthy source.origSha256 = true ∧
          (resolved = some digest ∨ resolved = none)) ∨
        (action = .fill .provenance ∧ resolved = some digest ∧ target.origSha256 ≠ none ∧
          target.origSha256Provenance = none ∧ source.origSha256Provenance ≠ none) ∨
        (action = .satisfied ∧ resolved = some digest)) := by
  obtain ⟨sourceResolved, targetResolved, sourceOk, targetOk⟩ := resolved_of_classify decision runs
  cases sourceResolved with
  | none => exact .inl (decision.symm.trans (classify_of_unresolved sourceOk targetOk))
  | some digest =>
      rw [classify_of_ok lawful sourceOk targetOk] at decision
      split at decision
      · rename_i same
        split at decision
        · rename_i fills
          simp only [Bool.and_eq_true] at fills
          exact .inr ⟨digest, _, sourceOk, targetOk, .inl ⟨decision.symm, fills.2, .inl same⟩⟩
        split at decision
        · rename_i fills
          simp only [Bool.and_eq_true, Option.isNone_iff_eq_none, Option.isSome_iff_ne_none] at fills
          refine .inr ⟨digest, _, sourceOk, targetOk, .inr (.inl ⟨decision.symm, same, ?_, fills.1.2,
            fills.2⟩)⟩
          intro empty
          simp [empty, Archive.truthy] at fills
        · exact .inr ⟨digest, _, sourceOk, targetOk, .inr (.inr ⟨decision.symm, same⟩)⟩
      · split at decision
        · exact absurd decision.symm runs
        · rename_i none
          split at decision
          · rename_i present
            exact .inr ⟨digest, _, sourceOk, targetOk, .inl ⟨decision.symm, present,
              .inr (by simpa using none)⟩⟩
          · exact .inl decision.symm

/-- A target with a digest of its own, and a provenance unless the source has none, is satisfied. -/
theorem classify_satisfied (lawful : u.Lawful) (sourceOk : source.evidence u = .ok (some digest))
    (targetOk : target.evidence u = .ok (some digest)) (present : target.origSha256 ≠ none)
    (provenance : target.origSha256Provenance = none → source.origSha256Provenance = none) :
    classifyReplicaHeal u source target = .satisfied := by
  rw [classify_of_ok lawful sourceOk targetOk, if_pos rfl, if_neg, if_neg]
  · simp only [Bool.and_eq_true, Option.isNone_iff_eq_none, Option.isSome_iff_ne_none, not_and]
    rintro ⟨_, absent⟩
    exact not_not.mpr (provenance absent)
  · simp [present]

end Rows

section Catalogs

variable {c after : Catalog} {source target : ArchivedRow}
  {sourceDrive targetDrive repoId rfilename : String} {result : HealResult}

/-- One archived row is replaced, under its own key, and nothing else changes. -/
structure Replaced (c after : Catalog) (row : ArchivedRow) : Prop where
  rest : after = { c with tables := { c.tables with archived := after.tables.archived } }
  archived : ∀ wanted, after.tables.archived.find wanted =
    if wanted = row.key then some row else c.tables.archived.find wanted

theorem replaced_refl (found : c.tables.archived.find target.key = some target) :
    Replaced c c target where
  rest := rfl
  archived := by
    intro wanted
    split
    · rename_i here
      rw [here, found]
    · rfl

theorem replaced_of_update {selected : ArchivedRow → Bool} {change : ArchivedRow → ArchivedRow}
    (keeps : ∀ row, (change row).key = row.key)
    (found : c.tables.archived.find target.key = some target) (chosen : selected target = true)
    (only : ∀ row, selected row = true → row.key = target.key) :
    Replaced c { c with tables := c.tables.updateArchived selected change keeps }
      (change target) where
  rest := rfl
  archived := by
    intro wanted
    rw [Tables.updateArchived, Table.find_update_map, keeps]
    by_cases here : wanted = target.key
    · rw [if_pos here, here, found, Option.map_some, if_pos chosen]
    · rw [if_neg here]
      cases other : c.tables.archived.find wanted with
      | none => rfl
      | some row =>
          have key := ((Table.find_eq_some _).mp other).2
          rw [Option.map_some, if_neg fun picked => here (key.symm.trans (only row picked))]

/-- The one row an update selects is the target it was read from. -/
theorem selected_target {selected : ArchivedRow → Bool}
    (found : c.tables.archived.find target.key = some target)
    (only : ∀ row, selected row = true → row.key = target.key)
    (count : (c.tables.archived.rows.filter selected).length = 1) : selected target = true := by
  obtain ⟨row, among⟩ : ∃ row, row ∈ c.tables.archived.rows.filter selected :=
    List.exists_mem_of_length_pos (by omega)
  obtain ⟨member, picked⟩ := List.mem_filter.mp among
  have targetMember := ((Table.find_eq_some _).mp found).1
  rwa [List.inj_on_of_nodup_map c.tables.archived.distinct member targetMember (only row picked)]
    at picked

theorem heal_cases
    (healed : healReplicaArchivedFromSource u sourceDrive targetDrive repoId rfilename c =
      .ok (after, result)) :
    ∃ source target, c.tables.archived.find (repoId, rfilename, sourceDrive) = some source ∧
      c.tables.archived.find (repoId, rfilename, targetDrive) = some target ∧
      ((result = .filled ∧ classifyReplicaHeal u source target = .fill .digest ∧
          target.origSha256 = none ∧ Replaced c after (target.withDigestOf source)) ∨
        (result = .provenanceFilled ∧ classifyReplicaHeal u source target = .fill .provenance ∧
          Replaced c after (target.withProvenanceOf source)) ∨
        (result = .targetComplete ∧ classifyReplicaHeal u source target = .satisfied ∧ after = c) ∨
        (result = .sourceCannotFillTarget ∧ classifyReplicaHeal u source target = .noop ∧
          after = c)) := by
  unfold healReplicaArchivedFromSource at healed
  cases foundSource : c.tables.archived.find (repoId, rfilename, sourceDrive) with
  | none => simp [foundSource] at healed
  | some source =>
  cases foundTarget : c.tables.archived.find (repoId, rfilename, targetDrive) with
  | none => simp [foundSource, foundTarget] at healed
  | some target =>
  refine ⟨source, target, rfl, rfl, ?_⟩
  simp only [foundSource, foundTarget] at healed
  have key := ((Table.find_eq_some _).mp foundTarget).2
  rw [← key] at foundTarget
  cases decision : classifyReplicaHeal u source target with
  | haltContradiction => simp [decision] at healed
  | fill kind =>
      cases kind with
      | digest =>
          simp only [decision, bind_eq_ok, require_eq_ok, pure_eq_ok, beq_iff_eq, Prod.mk.injEq]
            at healed
          obtain ⟨_, count, rfl, rfl⟩ := healed
          have only : ∀ row : ArchivedRow, (healTarget target row && row.origSha256.isNone) = true →
              row.key = target.key := by
            intro row picked
            simp only [healTarget, Bool.and_eq_true, beq_iff_eq] at picked
            exact picked.1.1.1
          have chosen := selected_target foundTarget only count
          have empty := chosen
          simp only [Bool.and_eq_true, Option.isNone_iff_eq_none] at empty
          exact .inl ⟨rfl, rfl, empty.2, replaced_of_update _ foundTarget chosen only⟩
      | provenance =>
          simp only [decision, bind_eq_ok, require_eq_ok, pure_eq_ok, beq_iff_eq, Prod.mk.injEq]
            at healed
          obtain ⟨_, count, rfl, rfl⟩ := healed
          have only : ∀ row : ArchivedRow, (healTarget target row &&
              row.origSha256 == target.origSha256 && row.origSha256Provenance.isNone) = true →
                row.key = target.key := by
            intro row picked
            simp only [healTarget, Bool.and_eq_true, beq_iff_eq] at picked
            exact picked.1.1.1.1
          have chosen := selected_target foundTarget only count
          exact .inr (.inl ⟨rfl, rfl, replaced_of_update _ foundTarget chosen only⟩)
  | satisfied =>
      simp only [decision, pure_eq_ok, Prod.mk.injEq] at healed
      obtain ⟨rfl, rfl⟩ := healed
      exact .inr (.inr (.inl ⟨rfl, rfl, rfl⟩))
  | noop =>
      simp only [decision, pure_eq_ok, Prod.mk.injEq] at healed
      obtain ⟨rfl, rfl⟩ := healed
      exact .inr (.inr (.inr ⟨rfl, rfl, rfl⟩))

/-- A decision that does not fill leaves the catalog as it is. -/
theorem heal_unchanged {action : HealAction}
    (foundSource : c.tables.archived.find (repoId, rfilename, sourceDrive) = some source)
    (foundTarget : c.tables.archived.find (repoId, rfilename, targetDrive) = some target)
    (decision : classifyReplicaHeal u source target = action) :
    (action = .haltContradiction →
      ∃ failure, healReplicaArchivedFromSource u sourceDrive targetDrive repoId rfilename c =
        .error failure) ∧
    (action = .satisfied →
      healReplicaArchivedFromSource u sourceDrive targetDrive repoId rfilename c =
        .ok (c, .targetComplete)) ∧
    (action = .noop →
      healReplicaArchivedFromSource u sourceDrive targetDrive repoId rfilename c =
        .ok (c, .sourceCannotFillTarget)) := by
  refine ⟨?_, ?_, ?_⟩ <;> rintro rfl <;>
    simp only [healReplicaArchivedFromSource, foundSource, foundTarget, decision]
  · exact ⟨_, rfl⟩
  · rfl
  · rfl

/-- What a heal is for, at one catalog. -/
structure HealKeeps (u : Archive.Unicode) (sourceDrive targetDrive repoId rfilename : String)
    (c : Catalog) : Prop where
  /-- Only the target's row changes, and never a digest that is there. -/
  frame : ∀ after result, healReplicaArchivedFromSource u sourceDrive targetDrive repoId rfilename c =
      .ok (after, result) →
    after = { c with tables := { c.tables with archived := after.tables.archived } } ∧
    (∀ wanted, wanted ≠ (repoId, rfilename, targetDrive) →
      after.tables.archived.find wanted = c.tables.archived.find wanted) ∧
    ∀ target digest, c.tables.archived.find (repoId, rfilename, targetDrive) = some target →
      target.origSha256 = some digest →
        ∃ healed, after.tables.archived.find (repoId, rfilename, targetDrive) = some healed ∧
          healed.origSha256 = some digest
  /-- Contradictory evidence of a row, or between the rows, is an error. -/
  halts : ∀ source target,
    c.tables.archived.find (repoId, rfilename, sourceDrive) = some source →
    c.tables.archived.find (repoId, rfilename, targetDrive) = some target →
    ((∃ error, source.evidence u = .error error) ∨ (∃ error, target.evidence u = .error error) ∨
      ∃ digest other, source.evidence u = .ok (some digest) ∧
        target.evidence u = .ok (some other) ∧ digest ≠ other) →
    ∃ failure, healReplicaArchivedFromSource u sourceDrive targetDrive repoId rfilename c =
      .error failure
  /-- After a fill both rows resolve to one digest, which the target satisfies. -/
  fills : ∀ after result, healReplicaArchivedFromSource u sourceDrive targetDrive repoId rfilename c =
      .ok (after, result) → result = .filled ∨ result = .provenanceFilled →
    ∃ source target digest,
      after.tables.archived.find (repoId, rfilename, sourceDrive) = some source ∧
      after.tables.archived.find (repoId, rfilename, targetDrive) = some target ∧
      source.evidence u = .ok (some digest) ∧ target.evidence u = .ok (some digest) ∧
      u.contentSatisfies (some digest) target.origSha256 (some target.compressed)
        target.annexKey = true
  /-- A second heal has nothing to do. -/
  again : ∀ after result, healReplicaArchivedFromSource u sourceDrive targetDrive repoId rfilename c =
      .ok (after, result) →
    ∃ status, healReplicaArchivedFromSource u sourceDrive targetDrive repoId rfilename after =
        .ok (after, status) ∧ (status = .targetComplete ∨ status = .sourceCannotFillTarget)
  /-- Only a target that satisfies the source's digest is called satisfied. -/
  satisfied : ∀ after, healReplicaArchivedFromSource u sourceDrive targetDrive repoId rfilename c =
      .ok (after, .targetComplete) →
    ∃ source target digest,
      c.tables.archived.find (repoId, rfilename, sourceDrive) = some source ∧
      c.tables.archived.find (repoId, rfilename, targetDrive) = some target ∧
      source.evidence u = .ok (some digest) ∧
      u.contentSatisfies (some digest) target.origSha256 (some target.compressed)
        target.annexKey = true

theorem heal_frame (healed : healReplicaArchivedFromSource u sourceDrive targetDrive repoId rfilename c =
      .ok (after, result)) :
    after = { c with tables := { c.tables with archived := after.tables.archived } } ∧
    (∀ wanted, wanted ≠ (repoId, rfilename, targetDrive) →
      after.tables.archived.find wanted = c.tables.archived.find wanted) ∧
    ∀ target digest, c.tables.archived.find (repoId, rfilename, targetDrive) = some target →
      target.origSha256 = some digest →
        ∃ healed, after.tables.archived.find (repoId, rfilename, targetDrive) = some healed ∧
          healed.origSha256 = some digest := by
  obtain ⟨source, target, _, foundTarget, outcome⟩ := heal_cases healed
  have key := ((Table.find_eq_some _).mp foundTarget).2
  obtain ⟨row, replaced, sameKey, digestKept⟩ : ∃ row, Replaced c after row ∧ row.key = target.key ∧
      ∀ digest, target.origSha256 = some digest → row.origSha256 = some digest := by
    rcases outcome with ⟨_, _, empty, replaced⟩ | ⟨_, _, replaced⟩ | ⟨_, _, rfl⟩ | ⟨_, _, rfl⟩
    · exact ⟨_, replaced, rfl, fun digest present => by rw [empty] at present; cases present⟩
    · exact ⟨_, replaced, rfl, fun _ present => present⟩
    · exact ⟨target, replaced_refl (key ▸ foundTarget), rfl, fun _ present => present⟩
    · exact ⟨target, replaced_refl (key ▸ foundTarget), rfl, fun _ present => present⟩
  refine ⟨replaced.rest, fun wanted other => ?_, fun old digest found present => ?_⟩
  · rw [replaced.archived, if_neg (by rwa [sameKey, key])]
  · obtain rfl := Option.some.inj (foundTarget.symm.trans found)
    refine ⟨row, ?_, digestKept digest present⟩
    rw [replaced.archived, sameKey, key, if_pos rfl]

theorem heal_halts
    (foundSource : c.tables.archived.find (repoId, rfilename, sourceDrive) = some source)
    (foundTarget : c.tables.archived.find (repoId, rfilename, targetDrive) = some target)
    (lawful : u.Lawful)
    (contradictory : (∃ error, source.evidence u = .error error) ∨
      (∃ error, target.evidence u = .error error) ∨
      ∃ digest other, source.evidence u = .ok (some digest) ∧
        target.evidence u = .ok (some other) ∧ digest ≠ other) :
    ∃ failure, healReplicaArchivedFromSource u sourceDrive targetDrive repoId rfilename c =
      .error failure := by
  refine (heal_unchanged foundSource foundTarget rfl).1 ?_
  rcases contradictory with ⟨_, refused⟩ | ⟨_, refused⟩ | ⟨digest, other, sourceOk, targetOk, apart⟩
  · exact classify_of_error (.inl refused)
  · exact classify_of_error (.inr refused)
  · have different : some other ≠ some digest := fun same => apart (Option.some.inj same).symm
    rw [classify_of_ok lawful sourceOk targetOk, if_neg different]
    rfl

/-- After a heal that fills, both rows are found again and resolve to one digest. -/
theorem heal_filled (lawful : u.Lawful)
    (ordinary : ∀ source target,
      c.tables.archived.find (repoId, rfilename, sourceDrive) = some source →
      c.tables.archived.find (repoId, rfilename, targetDrive) = some target →
        ¬BlankFill u source target)
    (healed : healReplicaArchivedFromSource u sourceDrive targetDrive repoId rfilename c =
      .ok (after, result)) (fills : result = .filled ∨ result = .provenanceFilled) :
    ∃ source target digest,
      after.tables.archived.find (repoId, rfilename, sourceDrive) = some source ∧
      after.tables.archived.find (repoId, rfilename, targetDrive) = some target ∧
      source.evidence u = .ok (some digest) ∧ target.evidence u = .ok (some digest) ∧
      target.origSha256 ≠ none ∧
      (target.origSha256Provenance = none → source.origSha256Provenance = none) := by
  obtain ⟨source, target, foundSource, foundTarget, outcome⟩ := heal_cases healed
  have sourceKey := ((Table.find_eq_some _).mp foundSource).2
  have targetKey := ((Table.find_eq_some _).mp foundTarget).2
  -- A row cannot fill itself, so the source is read again as it was.
  have sourceKept : ∀ {row}, Replaced c after row → row.key = target.key → source ≠ target →
      after.tables.archived.find (repoId, rfilename, sourceDrive) = some source := by
    intro row replaced sameKey apart
    rw [replaced.archived, if_neg, foundSource]
    intro same
    rw [same, sameKey, targetKey] at foundSource
    exact apart (Option.some.inj (foundSource.symm.trans foundTarget))
  have targetFound : ∀ {row}, Replaced c after row → row.key = target.key →
      after.tables.archived.find (repoId, rfilename, targetDrive) = some row := by
    intro row replaced sameKey
    rw [replaced.archived, sameKey, targetKey, if_pos rfl]
  rcases outcome with ⟨_, decision, empty, replaced⟩ | ⟨_, decision, replaced⟩ | ⟨rfl, _⟩ | ⟨rfl, _⟩
  · rcases classify_cases lawful decision nofun with absurd' | ⟨digest, resolved, sourceOk, targetOk,
      ⟨_, present, fits⟩ | ⟨other, _⟩ | ⟨other, _⟩⟩
    · cases absurd'
    · have compatible : target.keyDigest u = none ∨ target.keyDigest u = some digest := by
        rw [keyDigest_of_evidence empty targetOk]
        exact fits.symm
      have apart : source ≠ target := by
        rintro rfl
        rw [empty] at present
        cases present
      refine ⟨source, _, digest, sourceKept replaced rfl apart, targetFound replaced rfl, sourceOk,
        evidence_filled lawful sourceOk present empty compatible
          (ordinary source target foundSource foundTarget), ?_, id⟩
      intro absent
      rw [show source.origSha256 = none from absent] at present
      cases present
    · cases other
    · cases other
  · rcases classify_cases lawful decision nofun with absurd' | ⟨digest, resolved, sourceOk, targetOk,
      ⟨other, _⟩ | ⟨_, rfl, present, noProvenance, provenance⟩ | ⟨other, _⟩⟩
    · cases absurd'
    · cases other
    · have apart : source ≠ target := by
        rintro rfl
        exact provenance noProvenance
      exact ⟨source, _, digest, sourceKept replaced rfl apart, targetFound replaced rfl, sourceOk,
        targetOk, present, id⟩
    · cases other
  · rcases fills with fills | fills <;> cases fills
  · rcases fills with fills | fills <;> cases fills

/-- A second heal finds the target satisfied, or the source still unable to fill it. -/
theorem heal_again (lawful : u.Lawful)
    (ordinary : ∀ source target,
      c.tables.archived.find (repoId, rfilename, sourceDrive) = some source →
      c.tables.archived.find (repoId, rfilename, targetDrive) = some target →
        ¬BlankFill u source target)
    (healed : healReplicaArchivedFromSource u sourceDrive targetDrive repoId rfilename c =
      .ok (after, result)) :
    ∃ status, healReplicaArchivedFromSource u sourceDrive targetDrive repoId rfilename after =
        .ok (after, status) ∧ (status = .targetComplete ∨ status = .sourceCannotFillTarget) := by
  by_cases fills : result = .filled ∨ result = .provenanceFilled
  · obtain ⟨source, target, digest, foundSource, foundTarget, sourceOk, targetOk, present, provenance⟩ :=
      heal_filled lawful ordinary healed fills
    have decision := classify_satisfied lawful sourceOk targetOk present provenance
    exact ⟨_, (heal_unchanged foundSource foundTarget decision).2.1 rfl, .inl rfl⟩
  · obtain ⟨_, _, _, _, ⟨rfl, _⟩ | ⟨rfl, _⟩ | ⟨rfl, _, rfl⟩ | ⟨rfl, _, rfl⟩⟩ := heal_cases healed
    · exact absurd (.inl rfl) fills
    · exact absurd (.inr rfl) fills
    · exact ⟨_, healed, .inl rfl⟩
    · exact ⟨_, healed, .inr rfl⟩

/-- Copied blanks are reported as a fill, and the target still resolves to nothing. -/
theorem not_keeps_of_blank (lawful : u.Lawful)
    (foundSource : c.tables.archived.find (repoId, rfilename, sourceDrive) = some source)
    (foundTarget : c.tables.archived.find (repoId, rfilename, targetDrive) = some target)
    (blank : BlankFill u source target) :
    ¬HealKeeps u sourceDrive targetDrive repoId rfilename c := by
  intro keeps
  obtain ⟨⟨text, named, nonempty, spaces⟩, sourceKey, empty, targetKey⟩ := blank
  obtain ⟨digest, sourceDigest⟩ := Option.ne_none_iff_exists'.mp sourceKey
  have absent := blank_of_strip lawful.lowersHex spaces
  have sourceOk : source.evidence u = .ok (some digest) := by
    rw [ArchivedRow.evidence, named]
    refine own_of_sources absent.2 ?_ (.inr sourceDigest)
    rintro other (orig | key)
    · rw [absent.1] at orig
      cases orig
    · exact Option.some.inj (key.symm.trans sourceDigest)
  have targetOk : target.evidence u = .ok none := by
    rw [ArchivedRow.evidence, empty]
    exact own_of_nothing rfl rfl targetKey
  have present : Archive.truthy source.origSha256 = true := by
    rw [named, Archive.truthy, Option.any_some]
    exact bne_iff_ne.mpr nonempty
  have decision : classifyReplicaHeal u source target = .fill .digest := by
    rw [classify_of_ok lawful sourceOk targetOk, if_neg (by simp), present]
    rfl
  obtain ⟨after, healed, _⟩ := heal_fills ⟨source, target, foundSource, foundTarget, decision, empty⟩
  obtain ⟨_, filled, other, _, foundFilled, _, filledOk, _⟩ := keeps.fills after _ healed (.inl rfl)
  obtain ⟨source', target', foundSource', foundTarget', outcome⟩ := heal_cases healed
  obtain rfl := Option.some.inj (foundSource.symm.trans foundSource')
  obtain rfl := Option.some.inj (foundTarget.symm.trans foundTarget')
  rcases outcome with ⟨_, _, _, replaced⟩ | ⟨wrong, _⟩ | ⟨wrong, _⟩ | ⟨wrong, _⟩
  · have key := ((Table.find_eq_some _).mp foundTarget).2
    rw [replaced.archived, ArchivedRow.key_withDigestOf, if_pos key.symm] at foundFilled
    obtain rfl := Option.some.inj foundFilled
    rw [ArchivedRow.evidence, ArchivedRow.withDigestOf] at filledOk
    dsimp only at filledOk
    rw [named, own_of_nothing absent.2 absent.1 targetKey] at filledOk
    cases filledOk
  all_goals cases wrong

/-- A heal does what it is for unless it would copy blanks. -/
theorem heal_keeps_iff (lawful : u.Lawful) : HealKeeps u sourceDrive targetDrive repoId rfilename c ↔
    ∀ source target, c.tables.archived.find (repoId, rfilename, sourceDrive) = some source →
      c.tables.archived.find (repoId, rfilename, targetDrive) = some target →
        ¬BlankFill u source target := by
  constructor
  · intro keeps source target foundSource foundTarget blank
    exact not_keeps_of_blank lawful foundSource foundTarget blank keeps
  · intro ordinary
    refine ⟨fun _ _ => heal_frame, fun _ _ foundSource foundTarget =>
      heal_halts foundSource foundTarget lawful, ?_, fun _ _ => heal_again lawful ordinary, ?_⟩
    · intro after result healed fills
      obtain ⟨source, target, digest, foundSource, foundTarget, sourceOk, targetOk, _⟩ :=
        heal_filled lawful ordinary healed fills
      exact ⟨source, target, digest, foundSource, foundTarget, sourceOk, targetOk,
        (satisfies_own_iff lawful sourceOk).mpr targetOk⟩
    · intro after healed
      obtain ⟨source, target, foundSource, foundTarget, ⟨wrong, _⟩ | ⟨wrong, _⟩ | ⟨_, decision, _⟩ |
        ⟨wrong, _⟩⟩ := heal_cases healed
      · cases wrong
      · cases wrong
      · rcases classify_cases lawful decision nofun with wrong | ⟨digest, _, sourceOk, targetOk,
          ⟨wrong, _⟩ | ⟨wrong, _⟩ | ⟨_, rfl⟩⟩
        · cases wrong
        · cases wrong
        · cases wrong
        · exact ⟨source, target, digest, foundSource, foundTarget, sourceOk,
            (satisfies_own_iff lawful sourceOk).mpr targetOk⟩
      · cases wrong

end Catalogs

theorem heal_keeps_mirrored :
    HealKeeps Archive.asciiUnicode "a" "b" "org/m" "m.gguf" mirroredCatalog := by
  refine (heal_keeps_iff Archive.asciiUnicode_lawful).mpr ?_
  intro source target foundSource _ blank
  have first : mirroredCatalog.tables.archived.find ("org/m", "m.gguf", "a") =
      some (mirroredRow "a" (some (String.ofList (List.replicate 64 '0')))) := rfl
  obtain rfl := Option.some.inj (first.symm.trans foundSource)
  exact absurd rfl blank.2.1

/-- The first copy has blanks for a digest, and the key of its content. -/
def blankCatalog : Catalog :=
  { mirroredCatalog with
    tables := { mirroredCatalog.tables with
      archived := ⟨[{ mirroredRow "a" (some " ") with annexKey := some (Archive.uniformAnnex 'a') },
        mirroredRow "b" none], by decide +kernel⟩ } }

theorem blankCatalog_not_kept :
    ¬HealKeeps Archive.asciiUnicode "a" "b" "org/m" "m.gguf" blankCatalog := by
  refine not_keeps_of_blank Archive.asciiUnicode_lawful rfl rfl ⟨⟨" ", rfl, nofun, rfl⟩, ?_, rfl, rfl⟩
  have key := @Archive.annexDigest_uniformAnnex 'a' rfl
  intro absent
  exact absurd (key.symm.trans absent) nofun

end Modelark.Revision
