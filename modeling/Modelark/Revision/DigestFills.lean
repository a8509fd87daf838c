import Modelark.Archive.Evidence
import Modelark.Revision.Discipline

/-!
# Fills of original digests

What a transaction that fills missing digests leaves of the tables, how such transactions compose, and when
the copies of a file still agree after one.
-/

namespace Modelark.Revision

open Library Archive.Unicode

/-- A row whose missing digest is filled, and the evidence recorded with it, if any is. -/
structure DigestFill where
  repoId : String
  rfilename : String
  driveLabel : String
  digest : String
  evidence : Option String
  deriving Repr, DecidableEq

namespace DigestFill

def key (fill : DigestFill) : String × String × String :=
  (fill.repoId, fill.rfilename, fill.driveLabel)

def file (fill : DigestFill) : String × String :=
  (fill.repoId, fill.rfilename)

end DigestFill

namespace ArchivedRow

def file (row : ArchivedRow) : String × String :=
  (row.repoId, row.rfilename)

def filledBy (row : ArchivedRow) (fill : DigestFill) : ArchivedRow :=
  { row with
    origSha256 := some fill.digest
    origSha256Provenance := fill.evidence <|> row.origSha256Provenance }

@[simp] theorem key_filledBy (row : ArchivedRow) (fill : DigestFill) :
    (row.filledBy fill).key = row.key := rfl

theorem file_eq_of_key {row : ArchivedRow} {fill : DigestFill} (same : row.key = fill.key) :
    row.file = fill.file := by
  simp only [key, DigestFill.key, Prod.mk.injEq] at same
  simp [file, DigestFill.file, same.1, same.2.1]

/-- A copy has evidence of its own for a digest. -/
def Own (u : Archive.Unicode) (row : ArchivedRow) (digest : String) : Prop :=
  u.WellFormedSource none row.origSha256 (some row.compressed) row.annexKey digest

end ArchivedRow

theorem Tables.find_updateArchived (tables : Tables) {selected : ArchivedRow → Bool}
    {change : ArchivedRow → ArchivedRow} (keeps : ∀ row, (change row).key = row.key)
    (key : String × String × String) :
    (tables.updateArchived selected change keeps).archived.find key =
      (tables.archived.find key).map fun row => if selected row then change row else row :=
  tables.archived.find_update_map keeps key

/-- Exactly the rows of the fills are filled, each of which had no digest, and nothing else changes but the
    state of the repairs. -/
structure Fills (before : Tables) (fills : List DigestFill) (after : Tables) : Prop where
  filled : ∀ fill ∈ fills, ∃ row, before.archived.find fill.key = some row ∧ row.origSha256 = none ∧
    after.archived.find fill.key = some (row.filledBy fill)
  others : ∀ key, (∀ fill ∈ fills, fill.key ≠ key) → after.archived.find key = before.archived.find key
  frame : after = { before with archived := after.archived, hashRepairState := after.hashRepairState }
  distinct : (fills.map DigestFill.key).Nodup

namespace Fills

variable {before middle after : Tables} {fills later : List DigestFill} {fill : DigestFill}

theorem refl (tables : Tables) : Fills tables [] tables where
  filled := by simp
  others _ _ := rfl
  frame := rfl
  distinct := by simp

theorem repairState (tables : Tables) (state : HashRepairState) :
    Fills tables [] (tables.setRepairState state) where
  filled := by simp
  others _ _ := rfl
  frame := rfl
  distinct := by simp

theorem files_eq (fills' : Fills before fills after) : after.files = before.files := by
  rw [fills'.frame]

/-- A row that has been filled is not filled again. -/
theorem key_ne (first : Fills before fills middle) (second : Fills middle later after)
    {one other : DigestFill} (early : one ∈ fills) (late : other ∈ later) : one.key ≠ other.key := by
  intro same
  obtain ⟨row, _, _, found⟩ := first.filled one early
  obtain ⟨blank, again, none, _⟩ := second.filled other late
  rw [← same, found] at again
  cases again
  cases none

theorem trans (first : Fills before fills middle) (second : Fills middle later after) :
    Fills before (fills ++ later) after where
  filled := by
    intro fill member
    rcases List.mem_append.mp member with early | late
    · obtain ⟨row, found, blank, filled⟩ := first.filled fill early
      refine ⟨row, found, blank, ?_⟩
      rw [second.others fill.key, filled]
      intro other late
      exact (key_ne first second early late).symm
    · obtain ⟨row, found, blank, filled⟩ := second.filled fill late
      refine ⟨row, ?_, blank, filled⟩
      rw [← first.others fill.key, found]
      intro other early
      exact key_ne first second early late
  others := by
    intro key absent
    rw [second.others key, first.others key]
    · intro fill early
      exact absent fill (List.mem_append_left _ early)
    · intro fill late
      exact absent fill (List.mem_append_right _ late)
  frame := by
    rw [second.frame, first.frame]
  distinct := by
    rw [List.map_append, List.nodup_append]
    refine ⟨first.distinct, second.distinct, ?_⟩
    intro key early other late
    obtain ⟨one, oneMember, rfl⟩ := List.mem_map.mp early
    obtain ⟨two, twoMember, rfl⟩ := List.mem_map.mp late
    exact key_ne first second oneMember twoMember

/-- Fills between two states of a repair. -/
theorem betweenStates {running done : HashRepairState}
    (fills' : Fills (before.setRepairState running) fills middle) :
    Fills before fills (middle.setRepairState done) := by
  have chain := (repairState before running).trans (fills'.trans (repairState middle done))
  rwa [List.nil_append, List.append_nil] at chain

/-- An update that selects one row, by its key and because it has no digest. -/
theorem one {selected : ArchivedRow → Bool} {row : ArchivedRow} (member : row ∈ before.archived.rows)
    (chosen : selected row = true)
    (pins : ∀ other, selected other = true → other.key = fill.key ∧ other.origSha256 = none)
    (keeps : ∀ other : ArchivedRow, (other.filledBy fill).key = other.key) :
    Fills before [fill] (before.updateArchived selected (·.filledBy fill) keeps) where
  filled := by
    intro other same
    obtain rfl := List.mem_singleton.mp same
    obtain ⟨key, blank⟩ := pins row chosen
    have found := before.archived.find_eq_some.mpr ⟨member, key⟩
    refine ⟨row, found, blank, ?_⟩
    rw [Tables.find_updateArchived, found, Option.map_some, if_pos chosen]
  others := by
    intro key absent
    have away := absent fill (List.mem_singleton_self _)
    rw [Tables.find_updateArchived]
    cases found : before.archived.find key with
    | none => rfl
    | some other =>
        rw [Option.map_some, if_neg]
        intro chosen
        exact away ((pins other chosen).1.symm.trans (before.archived.find_eq_some.mp found).2)
  frame := rfl
  distinct := by simp

/-- A digest that a row has is still there afterwards. -/
theorem kept (fills' : Fills before fills after) {key : String × String × String} {row : ArchivedRow}
    {digest : String} (found : before.archived.find key = some row) (has : row.origSha256 = some digest) :
    after.archived.find key = some row := by
  rw [fills'.others key, found]
  rintro fill member rfl
  obtain ⟨other, again, blank, _⟩ := fills'.filled fill member
  rw [found] at again
  cases again
  rw [has] at blank
  cases blank

end Fills

/-- No two copies of a file have evidence of different digests, and none disagrees with the file's digest
    in the catalog. -/
structure Agreement (u : Archive.Unicode) (tables : Tables) : Prop where
  copies : ∀ row ∈ tables.archived.rows, ∀ other ∈ tables.archived.rows, row.key ≠ other.key →
    row.file = other.file → ∀ digest otherDigest, row.Own u digest → other.Own u otherDigest →
      digest = otherDigest
  catalog : ∀ row ∈ tables.archived.rows, ∀ file ∈ tables.files.rows, file.key = row.file →
    ∀ digest known, row.Own u digest → u.hex64 file.sha256 = some known → digest = known

/-- A fill that nothing else known of the file contradicts. -/
structure Corroborated (u : Archive.Unicode) (tables : Tables) (fills : List DigestFill)
    (fill : DigestFill) : Prop where
  hex : fill.digest.length = 64 ∧ fill.digest.toList.all Archive.isHex = true
  copies : ∀ other ∈ tables.archived.rows, other.key ≠ fill.key → other.file = fill.file →
    ∀ digest, other.Own u digest → digest = fill.digest
  catalog : ∀ file ∈ tables.files.rows, file.key = fill.file →
    ∀ known, u.hex64 file.sha256 = some known → known = fill.digest
  fills : ∀ other ∈ fills, other.file = fill.file → other.digest = fill.digest

section Agreement

variable {u : Archive.Unicode} {before after : Tables} {fills : List DigestFill}

/-- Stripping a digest cannot leave another digest. -/
theorem hex64_self (lowers : u.LowersHex) {text digest : String} (long : text.length = 64)
    (hex : text.toList.all Archive.isHex = true) (found : u.hex64 (some text) = some digest) :
    digest = text := by
  have part : List.Sublist (u.strip text).toList text.toList := by
    rw [strip, String.toList_ofList, ← List.reverse_sublist, List.reverse_reverse]
    exact (List.dropWhile_sublist _).trans (List.reverse_sublist.mpr (List.dropWhile_sublist _))
  have lowered : u.lower (u.strip text) = u.strip text := by
    apply lowers
    rw [List.all_eq_true] at hex ⊢
    intro c member
    exact hex c (part.subset member)
  have same : digest = u.strip text := by
    rw [hex64, Option.map_some, lowered, Option.filter_eq_some_iff] at found
    exact (Option.some.inj found.1).symm
  have length := (hex_of_hex64 found).1
  rw [same] at length ⊢
  have whole := part.eq_of_length (by rw [String.length_toList, String.length_toList, length, long])
  exact String.toList_injective whole

/-- Evidence of a row afterwards is evidence it had or the digest it was filled with. -/
theorem Fills.own (lowers : u.LowersHex) (fills' : Fills before fills after)
    (hex : ∀ fill ∈ fills, fill.digest.length = 64 ∧ fill.digest.toList.all Archive.isHex = true)
    {row : ArchivedRow} (member : row ∈ after.archived.rows) {digest : String}
    (own : row.Own u digest) :
    ∃ old ∈ before.archived.rows, old.key = row.key ∧
      (old.Own u digest ∨ ∃ fill ∈ fills, fill.key = row.key ∧ fill.digest = digest) := by
  have here := after.archived.find_eq_some.mpr ⟨member, rfl⟩
  by_cases among : ∃ fill ∈ fills, fill.key = row.key
  · obtain ⟨fill, fillMember, key⟩ := among
    obtain ⟨old, found, _, filled⟩ := fills'.filled fill fillMember
    rw [key] at found filled
    obtain ⟨oldMember, oldKey⟩ := before.archived.find_eq_some.mp found
    obtain rfl : row = old.filledBy fill := Option.some.inj (here.symm.trans filled)
    refine ⟨old, oldMember, oldKey, ?_⟩
    rcases own with none | column | annex
    · cases none
    · have same := hex64_self lowers (hex fill fillMember).1 (hex fill fillMember).2 column
      exact .inr ⟨fill, fillMember, key, same.symm⟩
    · exact .inl (.inr (.inr annex))
  · have found : before.archived.find row.key = some row := by
      rw [← here, fills'.others row.key]
      intro fill fillMember key
      exact among ⟨fill, fillMember, key⟩
    exact ⟨row, (before.archived.find_eq_some.mp found).1, rfl, .inl own⟩

theorem file_eq_of_keys {row other : ArchivedRow} (same : row.key = other.key) : row.file = other.file := by
  simp only [ArchivedRow.key, Prod.mk.injEq] at same
  simp [ArchivedRow.file, same.1, same.2.1]

/-- Fills that are corroborated keep the copies in agreement. -/
theorem Fills.agreement (lowers : u.LowersHex) (fills' : Fills before fills after)
    (corroborated : ∀ fill ∈ fills, Corroborated u before fills fill) (agreement : Agreement u before) :
    Agreement u after := by
  have hex := fun fill member => (corroborated fill member).hex
  constructor
  · intro row rowMember other otherMember apart sameFile digest otherDigest own otherOwn
    obtain ⟨old, oldMember, oldKey, source⟩ := fills'.own lowers hex rowMember own
    obtain ⟨old', oldMember', oldKey', source'⟩ := fills'.own lowers hex otherMember otherOwn
    have oldApart : old.key ≠ old'.key := by rwa [oldKey, oldKey']
    have oldFile : old.file = old'.file := by
      rw [file_eq_of_keys oldKey, file_eq_of_keys oldKey', sameFile]
    rcases source with had | ⟨fill, member, key, rfl⟩
    · rcases source' with had' | ⟨fill', member', key', rfl⟩
      · exact agreement.copies old oldMember old' oldMember' oldApart oldFile _ _ had had'
      · apply (corroborated fill' member').copies old oldMember _ _ _ had
        · rwa [key', ← oldKey']
        · rw [oldFile, ArchivedRow.file_eq_of_key (oldKey'.trans key'.symm)]
    · have fillFile := ArchivedRow.file_eq_of_key key.symm
      rcases source' with had' | ⟨fill', member', key', rfl⟩
      · refine ((corroborated fill member).copies old' oldMember' ?_ ?_ _ had').symm
        · rw [key, ← oldKey]
          exact oldApart.symm
        · rw [← oldFile, ArchivedRow.file_eq_of_key (oldKey.trans key.symm)]
      · apply (corroborated fill' member').fills fill member
        rw [← fillFile, sameFile, ArchivedRow.file_eq_of_key key'.symm]
  · intro row rowMember file fileMember sameFile digest known own published
    rw [fills'.files_eq] at fileMember
    obtain ⟨old, oldMember, oldKey, source⟩ := fills'.own lowers hex rowMember own
    rcases source with had | ⟨fill, member, key, rfl⟩
    · apply agreement.catalog old oldMember file fileMember _ _ _ had published
      rw [sameFile, file_eq_of_keys oldKey]
    · refine ((corroborated fill member).catalog file fileMember ?_ known published).symm
      rw [sameFile, ArchivedRow.file_eq_of_key key.symm]

end Agreement

end Modelark.Revision
