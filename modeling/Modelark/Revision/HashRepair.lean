import Modelark.Library.Runs
import Modelark.Revision.CommittedBlob
import Modelark.Revision.DigestFills

/-!
# Hash repair

Runs of the two repairs of original digests, of any callers and over any archives. The repair of a catalog
audits, backs the catalog up and then audits again under the write lock; the repair of a drive is one
transaction.
-/

namespace Modelark.Revision

open Library Execution

def Repair.fill (repair : Repair) : DigestFill :=
  ⟨repair.repoId, repair.rfilename, repair.driveLabel, repair.sha256, none⟩

section Calls

variable (u : Archive.Unicode) (supported : Check) (archives : Archives)

/-- `repair_hashes` up to its backup, which is all of a dry run. -/
def beginRepair (scope : List String) (c : Catalog) : Except Failure Audit := do
  supported c
  require (!c.sessions.liveExists) (refusal "FILL_SESSION_ACTIVE")
  auditHashes u archives.evidence scope c.tables

/-- The transaction of `repair_hashes`, with the repairs of the first audit. -/
def commitRepair (scope : List String) (repairs : List Repair) (c : Catalog) : Except Failure Catalog :=
  c.immediate fun c => do
    supported c
    let rechecked ← auditHashes u archives.evidence scope c.tables
    require (rechecked.errors.isEmpty && rechecked.repairs == repairs)
      (.raised "repair evidence changed after backup; no catalog rows updated")
    thread applyRepair c.tables repairs

/-- The archive of the drive under repair, if it is mounted. -/
def Archives.ofDrive (driveLabel : String) : Option HeadEvidence :=
  (archives driveLabel).map fun _ => archives.evidence

end Calls

/-- A repair with nothing in between is its two phases. -/
theorem repairHashes_eq (u : Archive.Unicode) (supported : Check) (archives : Archives)
    (scope : List String) (c : Catalog) :
    repairHashes u supported archives.evidence scope c = (do
      let report ← beginRepair u supported archives scope c
      require report.errors.isEmpty (.raised "refusing hash repair")
      if report.repairs.isEmpty then return c
      else commitRepair u supported archives scope report.repairs c) := by
  unfold repairHashes beginRepair commitRepair
  cases checked : supported c with
  | error refused => rfl
  | ok _ =>
      cases c.sessions.liveExists with
      | true => rfl
      | false => simp [Catalog.immediate, checked, require]

section Fills

variable {u : Archive.Unicode} {supported : Check} {archives : Archives} {scope : List String}
  {tables filled : Tables}

/-- The digest of a copy that its key names or that its archive has committed. -/
inductive Proven (u : Archive.Unicode) (archives : Archives) (row : ArchivedRow) (digest : String) : Prop
  | annexKey (raw : row.compressed = false) (named : u.annexSha256 row.annexKey = some digest)
  | committed (archive : ArchiveView) (mounted : archives row.driveLabel = some archive)
      (blob : CommittedBlob archive row digest)

/-- Every fill is of a row that proves it. -/
def AllProven (u : Archive.Unicode) (archives : Archives) (tables : Tables) (fills : List DigestFill) : Prop :=
  ∀ fill ∈ fills, ∃ row, tables.archived.find fill.key = some row ∧ Proven u archives row fill.digest

theorem proven_of_evidence {row : ArchivedRow} {file : FileRow} {digest : String}
    (found : archives.evidence.validateCandidate row file = some digest) : Proven u archives row digest := by
  simp only [Archives.evidence, Option.bind_eq_some_iff, Option.map_eq_some_iff, Prod.exists,
    exists_and_right, exists_eq_right] at found
  obtain ⟨archive, mounted, size, accepted⟩ := found
  exact .committed archive mounted (committedBlob_of_validated (toOption_eq_some.mp accepted))

theorem Proven.hex {row : ArchivedRow} {digest : String} (proven : Proven u archives row digest) :
    digest.length = 64 ∧ digest.toList.all Archive.isHex = true := by
  cases proven with
  | annexKey _ named => exact Archive.Unicode.hex_of_annexSha256 named
  | committed _ _ blob =>
      obtain ⟨_, _, _, bytes, _, _, _, _, rfl⟩ := blob.committed
      exact Archive.hex_sha256 bytes

theorem mem_archivedFiles {pair : ArchivedRow × FileRow} :
    pair ∈ tables.archivedFiles ↔
      pair.1 ∈ tables.archived.rows ∧ tables.files.find pair.1.file = some pair.2 := by
  simp only [Tables.archivedFiles, mem_sortBy, List.mem_filterMap, Option.map_eq_some_iff]
  constructor
  · rintro ⟨row, member, file, found, same⟩
    subst same
    exact ⟨member, found⟩
  · rintro ⟨member, found⟩
    exact ⟨pair.1, member, pair.2, found, rfl⟩

/-- The evidence of one row, with the digest of the catalog. -/
def expectedOf (u : Archive.Unicode) (pair : ArchivedRow × FileRow) :
    Except Archive.DigestError (Option String) :=
  u.expectedSha256 pair.2.sha256 pair.1.origSha256 (some pair.1.compressed) pair.1.annexKey

/-- What an audit has established of a repair. -/
structure Audited (u : Archive.Unicode) (archives : Archives) (tables : Tables) (repairs : List Repair)
    (repair : Repair) : Prop where
  row : ∃ pair ∈ tables.archivedFiles, pair.1.key = repair.fill.key ∧ expectedOf u pair = .ok none ∧
    archives.evidence.validateCandidate pair.1 pair.2 = some repair.sha256
  /-- Every copy of the file has proper evidence, for this digest if for any. -/
  known : ∀ pair ∈ tables.archivedFiles, pair.1.file = repair.fill.file → ∃ resolved,
    expectedOf u pair = .ok resolved ∧ ∀ digest, resolved = some digest → digest = repair.sha256
  agreed : ∀ other ∈ repairs, other.fill.file = repair.fill.file → other.sha256 = repair.sha256

theorem auditRow_eq_ok {rows : List (ArchivedRow × FileRow)} {pair : ArchivedRow × FileRow} {repair : Repair}
    (audited : auditRow u archives.evidence rows pair = .ok repair) :
    repair.fill.key = pair.1.key ∧ archives.evidence.validateCandidate pair.1 pair.2 = some repair.sha256 ∧
      ∀ digest ∈ knownDigests u rows pair.1.file, digest = repair.sha256 := by
  simp only [auditRow, bind_eq_ok, require_eq_ok] at audited
  obtain ⟨_, _, audited⟩ := audited
  split at audited
  · cases audited
  · rename_i digest found
    simp only [bind_eq_ok, require_eq_ok, pure_eq_ok, List.all_eq_true, beq_iff_eq] at audited
    obtain ⟨_, known, rfl⟩ := audited
    split at found
    · cases found
    · exact ⟨rfl, found, known⟩

theorem audited_of_auditHashes {audit : Audit}
    (performed : auditHashes u archives.evidence scope tables = .ok audit) {repair : Repair}
    (member : repair ∈ audit.repairs) : Audited u archives tables audit.repairs repair := by
  simp only [auditHashes, bind_eq_ok, require_eq_ok, pure_eq_ok, exists_and_left, exists_const] at performed
  obtain ⟨proper, rfl⟩ := performed
  obtain ⟨proposed, agrees⟩ := List.mem_filter.mp member
  obtain ⟨entry, audited, accepted⟩ := List.mem_filterMap.mp proposed
  obtain ⟨pair, candidate, rfl⟩ := List.mem_map.mp audited
  obtain ⟨inScope, unresolved⟩ := List.mem_filter.mp candidate
  obtain ⟨pairMember, inRepo⟩ := List.mem_filter.mp inScope
  obtain ⟨key, validated, known⟩ := auditRow_eq_ok (toOption_eq_some.mp accepted)
  have file : pair.1.file = repair.fill.file := ArchivedRow.file_eq_of_key key.symm
  -- the other copies of the file are of the same repository, so that they are in the scope too
  have among : ∀ other ∈ tables.archivedFiles, other.1.file = repair.fill.file →
      other ∈ tables.archivedFiles.filter fun pair => scope.isEmpty || scope.contains pair.1.repoId := by
    intro other otherMember same
    rw [← file] at same
    obtain ⟨sameRepo, _⟩ := Prod.mk.inj same
    exact List.mem_filter.mpr ⟨otherMember, by simpa [sameRepo] using inRepo⟩
  refine ⟨⟨pair, pairMember, key.symm, ?_, validated⟩, ?_, ?_⟩
  · have resolved := List.all_eq_true.mp proper pair inScope
    obtain ⟨result, found⟩ := Option.isSome_iff_exists.mp resolved
    rw [Option.isNone_iff_eq_none, found, Option.join_some] at unresolved
    rw [expectedOf, toOption_eq_some.mp found, unresolved]
  · intro other otherMember same
    have resolved := List.all_eq_true.mp proper other (among other otherMember same)
    obtain ⟨result, found⟩ := Option.isSome_iff_exists.mp resolved
    refine ⟨result, toOption_eq_some.mp found, ?_⟩
    rintro digest rfl
    apply known
    refine List.mem_filterMap.mpr ⟨other, List.mem_filter.mpr ⟨among other otherMember same, ?_⟩, ?_⟩
    · rw [← file] at same
      exact beq_iff_eq.mpr same
    · rw [found, Option.join_some]
  · intro other otherMember same
    obtain ⟨otherProposed, _⟩ := List.mem_filter.mp otherMember
    have agreed := List.all_eq_true.mp agrees other otherProposed
    obtain ⟨sameRepo, sameName⟩ := Prod.mk.inj same
    simpa [show other.repoId = repair.repoId from sameRepo,
      show other.rfilename = repair.rfilename from sameName] using agreed

/-- Nothing else known of the file contradicts an audited repair. -/
theorem Audited.corroborated {repairs : List Repair} {repair : Repair}
    (audited : Audited u archives tables repairs repair) :
    Corroborated u tables (repairs.map Repair.fill) repair.fill := by
  obtain ⟨pair, pairMember, key, unresolved, validated⟩ := audited.row
  obtain ⟨rowMember, found⟩ := mem_archivedFiles.mp pairMember
  have file : pair.1.file = repair.fill.file := ArchivedRow.file_eq_of_key key
  have proven : Proven u archives pair.1 repair.sha256 := proven_of_evidence validated
  refine ⟨proven.hex, ?_, ?_, ?_⟩
  · intro other otherMember _ same digest own
    have joined : (other, pair.2) ∈ tables.archivedFiles := by
      rw [mem_archivedFiles, same, ← file]
      exact ⟨otherMember, found⟩
    obtain ⟨resolved, expected, known⟩ := audited.known _ joined same
    apply known
    exact Archive.Unicode.resolved_of_source expected (own.elim nofun .inr)
  · intro other otherMember same known published
    have only : other = pair.2 := by
      have here := tables.files.find_eq_some.mpr ⟨otherMember, same⟩
      rw [← file, found] at here
      exact (Option.some.inj here).symm
    subst only
    cases Archive.Unicode.resolved_of_source unresolved (.inl published)
  · intro other otherMember same
    obtain ⟨origin, originMember, rfl⟩ := List.mem_map.mp otherMember
    exact audited.agreed origin originMember same

theorem applyRepair_fills {repair : Repair} (applied : applyRepair tables repair = .ok filled) :
    Fills tables [repair.fill] filled := by
  simp only [applyRepair, bind_eq_ok, require_eq_ok, pure_eq_ok, beq_iff_eq, exists_and_left,
    exists_const] at applied
  obtain ⟨one, rfl⟩ := applied
  obtain ⟨row, among⟩ := List.exists_mem_of_length_pos (Nat.lt_of_lt_of_eq Nat.zero_lt_one one.symm)
  obtain ⟨member, selected⟩ := List.mem_filter.mp among
  refine Fills.one member selected ?_ (fun _ => rfl)
  intro other chosen
  simp only [Bool.and_eq_true, beq_iff_eq, Option.isNone_iff_eq_none] at chosen
  exact chosen.1

theorem thread_applyRepair_fills {repairs : List Repair}
    (applied : thread applyRepair tables repairs = .ok filled) :
    Fills tables (repairs.map Repair.fill) filled := by
  induction repairs generalizing tables with
  | nil =>
      cases applied
      exact .refl _
  | cons repair repairs ih =>
      obtain ⟨next, first, rest⟩ := bind_eq_ok.mp applied
      exact (applyRepair_fills first).trans (ih rest)

/-- A committed repair fills the rows of the audit before its backup, and the audit under the lock backs
    every one of them. -/
theorem commitRepair_fills {repairs : List Repair} {c after : Catalog}
    (committed : commitRepair u supported archives scope repairs c = .ok after) :
    Fills c.tables (repairs.map Repair.fill) after.tables ∧
      ∀ repair ∈ repairs, Audited u archives c.tables repairs repair := by
  simp only [commitRepair, Catalog.immediate, Catalog.bumpRevision, bind_eq_ok, require_eq_ok,
    Bool.and_eq_true, beq_iff_eq] at committed
  obtain ⟨tables, ⟨_, _, audit, rechecked, _, ⟨_, same⟩, applied⟩, _, _, finished⟩ := committed
  cases finished
  subst same
  exact ⟨thread_applyRepair_fills applied, fun repair member => audited_of_auditHashes rechecked member⟩

theorem allProven_of_audited {repairs : List Repair}
    (audited : ∀ repair ∈ repairs, Audited u archives tables repairs repair) :
    AllProven u archives tables (repairs.map Repair.fill) := by
  intro fill member
  obtain ⟨repair, repairMember, rfl⟩ := List.mem_map.mp member
  obtain ⟨pair, pairMember, key, _, validated⟩ := (audited repair repairMember).row
  have found := tables.archived.find_eq_some.mpr ⟨(mem_archivedFiles.mp pairMember).1, key⟩
  exact ⟨pair.1, found, proven_of_evidence validated⟩

def fillOf (planned : ArchivedRow × String × String) : DigestFill :=
  ⟨planned.1.repoId, planned.1.rfilename, planned.1.driveLabel, planned.2.1, some planned.2.2⟩

variable {head : Option HeadEvidence} {planned : List (ArchivedRow × String × String)}

theorem fillOne_fills {fill : ArchivedRow × String × String}
    (found : tables.archived.find fill.1.key = some fill.1) (blank : fill.1.origSha256 = none) :
    Fills tables [fillOf fill] (fillOne tables fill) := by
  have selected : (fill.1.key == fill.1.key && fill.1.origSha256.isNone) = true := by
    simp [blank]
  refine Fills.one (tables.archived.find_eq_some.mp found).1 selected ?_ (fun _ => rfl)
  intro other chosen
  simp only [Bool.and_eq_true, beq_iff_eq, Option.isNone_iff_eq_none] at chosen
  exact chosen

theorem foldl_fillOne_fills (apart : planned.Pairwise fun one other => one.1.key ≠ other.1.key)
    (blank : ∀ fill ∈ planned, tables.archived.find fill.1.key = some fill.1 ∧ fill.1.origSha256 = none) :
    Fills tables (planned.map fillOf) (planned.foldl fillOne tables) := by
  induction planned generalizing tables with
  | nil => exact .refl _
  | cons fill rest ih =>
      obtain ⟨away, restApart⟩ := List.pairwise_cons.mp apart
      obtain ⟨found, none⟩ := blank fill List.mem_cons_self
      have first := fillOne_fills found none
      apply first.trans (ih restApart _)
      intro other member
      obtain ⟨otherFound, otherNone⟩ := blank other (List.mem_cons_of_mem _ member)
      refine ⟨?_, otherNone⟩
      rw [first.others other.1.key, otherFound]
      intro only same
      rw [List.mem_singleton.mp same]
      exact away other member

theorem pairwise_archivedFiles (tables : Tables) :
    tables.archivedFiles.Pairwise fun one other => one.1.key ≠ other.1.key := by
  have distinct := tables.archived.distinct
  rw [List.Nodup, List.pairwise_map] at distinct
  rw [Tables.archivedFiles, (sortBy_perm _ _).pairwise_iff (fun apart => apart.symm), List.pairwise_filterMap]
  apply distinct.imp
  intro one other apart first joined second joined'
  obtain ⟨_, _, rfl⟩ := Option.map_eq_some_iff.mp joined
  obtain ⟨_, _, rfl⟩ := Option.map_eq_some_iff.mp joined'
  exact apart

/-- The fills of a drive repair, which fills nothing unless the drive's identity is proven and the hub
    agrees with all of them. -/
theorem driveRepair_fills (u : Archive.Unicode) (head : Option HeadEvidence) (identity : RepairIdentity)
    (drive : FleetDrive) (lifecycle : String) (tables : Tables) :
    ∃ planned : List (ArchivedRow × String × String),
      Fills tables (planned.map fillOf) (driveRepair u head identity drive lifecycle tables).1 ∧
      (driveRepair u head identity drive lifecycle tables).2.applied = planned.length ∧
      ∀ fill ∈ planned, repairHalt u.lower identity drive = none ∧
        Agreed u head (unresolvedNullDigests tables identity.driveLabel) ∧
        ∃ pair ∈ unresolvedNullDigests tables identity.driveLabel, plannedFill u head pair = some fill := by
  unfold driveRepair
  dsimp only
  split
  · exact ⟨[], .refl _, rfl, by simp⟩
  · cases halted : repairHalt u.lower identity drive with
    | some detail => exact ⟨[], .repairState _ _, rfl, by simp⟩
    | none =>
        cases plan : planRepairs u head (unresolvedNullDigests tables identity.driveLabel) with
        | error detail => exact ⟨[], (Fills.repairState _ _).trans (.repairState _ _), rfl, by simp⟩
        | ok planned =>
            obtain ⟨agreed, rfl⟩ := planRepairs_eq_ok.mp plan
            refine ⟨_, ?_, rfl, ?_⟩
            · have apart : ((unresolvedNullDigests tables identity.driveLabel).filterMap
                  (plannedFill u head)).Pairwise fun one other => one.1.key ≠ other.1.key := by
                rw [List.pairwise_filterMap]
                apply ((pairwise_archivedFiles tables).filter _).imp
                intro one other away first planned second planned'
                simp only [plannedFill, Option.map_eq_some_iff] at planned planned'
                obtain ⟨_, _, rfl⟩ := planned
                obtain ⟨_, _, rfl⟩ := planned'
                exact away
              apply (foldl_fillOne_fills apart _).betweenStates
              intro fill member
              obtain ⟨pair, unresolved, planned⟩ := List.mem_filterMap.mp member
              obtain ⟨rowMember, _, blank⟩ := mem_unresolved unresolved
              simp only [plannedFill, Option.map_eq_some_iff] at planned
              obtain ⟨_, _, rfl⟩ := planned
              exact ⟨tables.archived.find_eq_some.mpr ⟨rowMember, rfl⟩, blank⟩
            · intro fill member
              exact ⟨rfl, agreed, List.mem_filterMap.mp member⟩

theorem proven_of_repairDigest {driveLabel digest evidence : String} {pair : ArchivedRow × FileRow}
    (found : repairDigest u (archives.ofDrive driveLabel) pair = some (digest, evidence)) :
    Proven u archives pair.1 digest ∧ (u.annexSha256 pair.1.annexKey = some digest ∨
      u.annexSha256 pair.1.annexKey = none ∧
        archives.evidence.validateCandidate pair.1 pair.2 = some digest) := by
  unfold repairDigest at found
  cases compressed : pair.1.compressed with
  | true => simp [compressed] at found
  | false =>
      simp only [compressed, Bool.false_eq_true, if_false] at found
      cases named : u.annexSha256 pair.1.annexKey with
      | some other =>
          rw [named] at found
          cases found
          exact ⟨.annexKey compressed named, .inl rfl⟩
      | none =>
          rw [named] at found
          simp only [Archives.ofDrive, Option.map_eq_some_iff, Option.bind_eq_some_iff, Prod.mk.injEq] at found
          obtain ⟨_, ⟨_, ⟨_, _, rfl⟩, validated⟩, rfl, _⟩ := found
          exact ⟨proven_of_evidence validated, .inr ⟨rfl, validated⟩⟩

end Fills

/-- Lower-casing keeps blanks, and no hexadecimal digit is one. -/
structure KeepsBlanks (u : Archive.Unicode) : Prop where
  digits : ∀ c, Archive.isHex c = true → u.isSpace c = false
  blanks : ∀ text : String, text.toList.any u.isSpace = true → (u.lower text).toList.any u.isSpace = true

section Agreement

variable {u : Archive.Unicode} {archives : Archives} {tables : Tables}

theorem strip_of_unspaced {text : String} (unspaced : text.toList.any u.isSpace = false) :
    u.strip text = text := by
  have kept : ∀ chars : List Char, chars.any u.isSpace = false → chars.dropWhile u.isSpace = chars := by
    intro chars unspaced
    cases chars with
    | nil => rfl
    | cons c rest =>
        rw [List.any_cons, Bool.or_eq_false_iff] at unspaced
        rw [List.dropWhile_cons_of_neg]
        simp [unspaced.1]
  rw [Archive.Unicode.strip, kept _ unspaced, kept _ (by rwa [List.any_reverse]), List.reverse_reverse,
    String.ofList_toList]

/-- A hub that agrees with a digest has no other one. -/
theorem known_of_hubAgrees (lowers : u.LowersHex) (blanks : KeepsBlanks u) {sha : Option String}
    {digest known : String} (hex : digest.toList.all Archive.isHex = true)
    (agrees : hubDisagrees u.lower sha digest = false) (published : u.hex64 sha = some known) :
    known = digest := by
  cases sha with
  | none => cases published
  | some text =>
      simp only [hubDisagrees, Option.any_some, Bool.and_eq_false_iff, bne_eq_false_iff_eq,
        lowers digest hex] at agrees
      rcases agrees with rfl | same
      · have long := (Archive.Unicode.hex_of_hex64 published).1
        rw [Archive.Unicode.hex64, Option.map_some, Option.filter_eq_some_iff] at published
        have empty := lowers "" rfl
        rw [show u.strip "" = "" from rfl, empty] at published
        cases published.1
        cases long
      · have unspaced : text.toList.any u.isSpace = false := by
          by_contra spaced
          have lowered := blanks.blanks text (Bool.eq_true_of_not_eq_false spaced)
          rw [same] at lowered
          obtain ⟨c, member, space⟩ := List.any_eq_true.mp lowered
          rw [blanks.digits c (List.all_eq_true.mp hex c member)] at space
          cases space
        rw [Archive.Unicode.hex64, Option.map_some, strip_of_unspaced unspaced, same,
          Option.filter_eq_some_iff] at published
        exact (Option.some.inj published.1).symm

/-- No committed blob on the drive has another digest than some other copy of its file. -/
def Uncontradicted (u : Archive.Unicode) (archives : Archives) (driveLabel : String) (tables : Tables) : Prop :=
  ∀ pair ∈ unresolvedNullDigests tables driveLabel, u.annexSha256 pair.1.annexKey = none →
    ∀ digest, archives.evidence.validateCandidate pair.1 pair.2 = some digest →
      ∀ other ∈ tables.archived.rows, other.key ≠ pair.1.key → other.file = pair.1.file →
        ∀ known, other.Own u known → known = digest

/-- A planned fill is corroborated when no other copy contradicts it. -/
theorem corroborated_of_planned (lowers : u.LowersHex) (blanks : KeepsBlanks u) {driveLabel : String}
    (agreement : Agreement u tables) (uncontradicted : Uncontradicted u archives driveLabel tables)
    (agreed : Agreed u (archives.ofDrive driveLabel) (unresolvedNullDigests tables driveLabel))
    {planned : List (ArchivedRow × String × String)}
    (distinct : ((planned.map fillOf).map DigestFill.key).Nodup)
    (origin : ∀ fill ∈ planned, ∃ pair ∈ unresolvedNullDigests tables driveLabel,
      plannedFill u (archives.ofDrive driveLabel) pair = some fill)
    {fill : ArchivedRow × String × String} (member : fill ∈ planned) :
    Corroborated u tables (planned.map fillOf) (fillOf fill) := by
  obtain ⟨pair, unresolved, found⟩ := origin fill member
  simp only [plannedFill, Option.map_eq_some_iff, Prod.exists] at found
  obtain ⟨digest, evidence, found, rfl⟩ := found
  obtain ⟨proven, source⟩ := proven_of_repairDigest found
  obtain ⟨rowMember, label, _⟩ := mem_unresolved unresolved
  have hex := proven.hex
  refine ⟨hex, ?_, ?_, ?_⟩
  · intro other otherMember apart same known own
    rcases source with named | ⟨unnamed, validated⟩
    · -- the key was evidence of the row before
      have raw : pair.1.compressed = false := by
        cases compressed : pair.1.compressed with
        | false => rfl
        | true => simp [repairDigest, compressed] at found
      have had : pair.1.Own u digest := by
        refine .inr (.inr ?_)
        rw [Archive.Unicode.annexDigest, raw, if_pos rfl, named, Option.map_some, lowers digest hex.2]
      exact agreement.copies other otherMember pair.1 rowMember apart same _ _ own had
    · exact uncontradicted pair unresolved unnamed digest validated other otherMember apart same known own
  · intro file fileMember same known published
    have joined := (mem_archivedFiles.mp (List.mem_filter.mp unresolved).1).2
    have here := tables.files.find_eq_some.mpr ⟨fileMember, same⟩
    obtain rfl : pair.2 = file := Option.some.inj (joined.symm.trans here)
    exact known_of_hubAgrees lowers blanks hex.2 (agreed pair unresolved (digest, evidence) found) published
  · intro other otherMember same
    -- one file has one row on a drive
    obtain ⟨source', sourceMember, rfl⟩ := List.mem_map.mp otherMember
    obtain ⟨pair', unresolved', found'⟩ := origin source' sourceMember
    simp only [plannedFill, Option.map_eq_some_iff] at found'
    obtain ⟨found', _, rfl⟩ := found'
    obtain ⟨_, label', _⟩ := mem_unresolved unresolved'
    have keys : (fillOf (pair'.1, found')).key = (fillOf (pair.1, digest, evidence)).key := by
      obtain ⟨sameRepo, sameName⟩ := Prod.mk.inj same
      exact Prod.ext sameRepo (Prod.ext sameName (label'.trans label.symm))
    exact congrArg DigestFill.digest (List.inj_on_of_nodup_map distinct otherMember
      (List.mem_map.mpr ⟨_, member, rfl⟩) keys)

end Agreement

/-- What a call returns. -/
inductive RepairReturn where
  | raised
  /-- An audit, of which nothing is applied. -/
  | audited (report : Audit)
  | applied (repairs : List Repair)
  | repaired (report : RepairReport)

/-- The rows that are reported as applied. -/
def RepairReturn.Reports : RepairReturn → List DigestFill → Prop
  | .raised, fills | .audited _, fills => fills = []
  | .applied repairs, fills => fills = repairs.map Repair.fill
  | .repaired report, fills => report.applied = fills.length

/-- A catalog, the audits between which and their transactions callers are, and what the last step returned. -/
structure RepairSystem where
  catalog : Catalog
  audited : Nat → Option (List String × List Repair)
  returned : RepairReturn

inductive RepairEvent where
  /-- `repair_hashes` up to its backup. -/
  | audit (conn : Nat) (apply : Bool) (supported : Check) (archives : Archives) (scope : List String)
  /-- The backup and the transaction of a call that applies. -/
  | commit (conn : Nat) (supported : Check) (archives : Archives)
  | repairDrive (supported : Check) (archives : Archives) (identity : RepairIdentity)
  /-- A call fails somewhere, which rolls back its transaction if it had one. -/
  | fail (conn : Nat)

def RepairEvent.archives : RepairEvent → Archives
  | .audit _ _ _ archives _ | .commit _ _ archives | .repairDrive _ archives _ => archives
  | .fail _ => fun _ => none

namespace RepairSystem

variable (u : Archive.Unicode) (sys : RepairSystem)

def setAudited (conn : Nat) (audited : Option (List String × List Repair)) (returned : RepairReturn) :
    RepairSystem :=
  { sys with audited := Function.update sys.audited conn audited, returned }

def step : RepairEvent → RepairSystem
  | .audit conn apply supported archives scope =>
      match beginRepair u supported archives scope sys.catalog with
      | .error _ => sys.setAudited conn none .raised
      | .ok report =>
          if !apply then sys.setAudited conn none (.audited report)
          else if !report.errors.isEmpty then sys.setAudited conn none .raised
          else if report.repairs.isEmpty then sys.setAudited conn none (.audited report)
          else sys.setAudited conn (some (scope, report.repairs)) (.audited report)
  | .commit conn supported archives =>
      match sys.audited conn with
      | none => sys.setAudited conn none .raised
      | some (scope, repairs) =>
          match commitRepair u supported archives scope repairs sys.catalog with
          | .error _ => sys.setAudited conn none .raised
          | .ok after => { sys with catalog := after }.setAudited conn none (.applied repairs)
  | .repairDrive supported archives identity =>
      match runExplicitDriveRepair u supported (some (archives.ofDrive identity.driveLabel)) identity
          sys.catalog with
      | .error _ => { sys with returned := .raised }
      | .ok (after, report) => { sys with catalog := after, returned := .repaired report }
  | .fail conn => sys.setAudited conn none .raised

end RepairSystem

/-- A drive repair that fills digests has no committed blob with another digest than some other copy. -/
def RepairEvent.Careful (u : Archive.Unicode) (sys : RepairSystem) : RepairEvent → Prop
  | .repairDrive supported archives identity =>
      RepairFills u supported (archives.ofDrive identity.driveLabel) identity sys.catalog →
        Uncontradicted u archives identity.driveLabel sys.catalog.tables
  | _ => True

/-- What a step has done: the rows it reports are filled, all of them with proof, or else nothing is. -/
structure Repaired (u : Archive.Unicode) (event : RepairEvent) (before after : RepairSystem)
    (fills : List DigestFill) : Prop where
  rows : Fills before.catalog.tables fills after.catalog.tables
  reported : after.returned.Reports fills
  proven : AllProven u event.archives before.catalog.tables fills
  raised : after.returned = .raised → after.catalog = before.catalog

section Runs

variable {u : Archive.Unicode}

theorem repaired_of_unchanged {event : RepairEvent} {before after : RepairSystem}
    (same : after.catalog = before.catalog) (nothing : after.returned.Reports []) :
    Repaired u event before after [] where
  rows := by
    rw [same]
    exact .refl _
  reported := nothing
  proven := by simp [AllProven]
  raised _ := same

/-- One step fills what it reports, and a careful one fills nothing that is contradicted. -/
theorem step_repaired (lowers : u.LowersHex) (blanks : KeepsBlanks u) (sys : RepairSystem)
    (event : RepairEvent) : ∃ fills, Repaired u event sys (sys.step u event) fills ∧
      (event.Careful u sys → Agreement u sys.catalog.tables →
        ∀ fill ∈ fills, Corroborated u sys.catalog.tables fills fill) := by
  cases event with
  | audit conn apply supported archives scope =>
      refine ⟨[], ?_, by simp⟩
      simp only [RepairSystem.step]
      split
      · exact repaired_of_unchanged rfl rfl
      · split_ifs <;> exact repaired_of_unchanged rfl rfl
  | commit conn supported archives =>
      simp only [RepairSystem.step]
      cases sys.audited conn with
      | none => exact ⟨[], repaired_of_unchanged rfl rfl, by simp⟩
      | some call =>
          obtain ⟨scope, repairs⟩ := call
          dsimp only
          split
          · exact ⟨[], repaired_of_unchanged rfl rfl, by simp⟩
          · rename_i after committed
            obtain ⟨fills, audited⟩ := commitRepair_fills committed
            refine ⟨repairs.map Repair.fill, ⟨fills, rfl, allProven_of_audited audited, nofun⟩, ?_⟩
            intro _ _ fill member
            obtain ⟨repair, repairMember, rfl⟩ := List.mem_map.mp member
            exact (audited repair repairMember).corroborated
  | repairDrive supported archives identity =>
      simp only [RepairSystem.step]
      split
      · exact ⟨[], repaired_of_unchanged rfl rfl, by simp⟩
      · rename_i after report performed
        simp only [runExplicitDriveRepair, bind_eq_ok, require_eq_ok] at performed
        obtain ⟨_, accepted, _, _, performed⟩ := performed
        split at performed
        · rename_i drive columns foundDrive foundColumns
          cases performed
          obtain ⟨planned, fills, applied, origin⟩ := driveRepair_fills u
            (archives.ofDrive identity.driveLabel) identity drive (u.lower columns.lifecycle) sys.catalog.tables
          refine ⟨planned.map fillOf, ⟨fills, ?_, ?_, nofun⟩, ?_⟩
          · simpa [RepairReturn.Reports, readArchive] using applied
          · intro fill member
            obtain ⟨source, sourceMember, rfl⟩ := List.mem_map.mp member
            obtain ⟨_, _, pair, unresolved, found⟩ := origin source sourceMember
            simp only [plannedFill, Option.map_eq_some_iff, Prod.exists] at found
            obtain ⟨digest, evidence, found, rfl⟩ := found
            have here := sys.catalog.tables.archived.find_eq_some.mpr ⟨(mem_unresolved unresolved).1, rfl⟩
            exact ⟨pair.1, here, (proven_of_repairDigest found).1⟩
          · intro careful agreement fill member
            obtain ⟨source, sourceMember, rfl⟩ := List.mem_map.mp member
            obtain ⟨authorized, agreed, pair, unresolved, found⟩ := origin source sourceMember
            have some_ : (repairDigest u (archives.ofDrive identity.driveLabel) pair).isSome = true := by
              simpa [plannedFill, Option.isSome_map] using congrArg Option.isSome found
            have uncontradicted := careful ⟨accepted, by simp [foundColumns],
              ⟨drive, foundDrive, authorized⟩, ⟨pair, unresolved, some_⟩, agreed⟩
            exact corroborated_of_planned lowers blanks agreement uncontradicted agreed fills.distinct
              (fun other otherMember => (origin other otherMember).2.2) sourceMember
        · cases performed
  | fail conn => exact ⟨[], repaired_of_unchanged rfl rfl, by simp⟩

/-- A run keeps every digest there is. -/
theorem run_kept (lowers : u.LowersHex) (blanks : KeepsBlanks u) (start : RepairSystem)
    (events : List RepairEvent) {key : String × String × String} {row : ArchivedRow} {digest : String}
    (found : start.catalog.tables.archived.find key = some row) (has : row.origSha256 = some digest) :
    (run (RepairSystem.step u) start events).catalog.tables.archived.find key = some row := by
  apply run_invariant_always (fun sys : RepairSystem => sys.catalog.tables.archived.find key = some row)
    _ events found
  intro sys event still
  obtain ⟨_, repaired, _⟩ := step_repaired lowers blanks sys event
  exact repaired.rows.kept still has

/-- Careful steps keep the copies in agreement. -/
theorem run_agreement (lowers : u.LowersHex) (blanks : KeepsBlanks u) {start : RepairSystem}
    {events : List RepairEvent}
    (careful : Permitted (RepairSystem.step u) (fun sys event => event.Careful u sys) start events)
    (agreement : Agreement u start.catalog.tables) :
    Agreement u (run (RepairSystem.step u) start events).catalog.tables := by
  have preserved (sys : RepairSystem) (event : RepairEvent) (stepCareful : event.Careful u sys)
      (holds : Agreement u sys.catalog.tables) : Agreement u (sys.step u event).catalog.tables := by
    obtain ⟨_, repaired, corroborated⟩ := step_repaired lowers blanks sys event
    exact repaired.rows.agreement lowers (corroborated stepCareful holds) holds
  exact run_invariant preserved careful agreement

/-- Over every run of the two repairs, a call fills exactly the rows it reports, each with proof, and no
    digest is lost; as long as no drive repair takes a committed blob that another copy contradicts, the
    copies stay in agreement. -/
theorem hash_repairs (lowers : u.LowersHex) (blanks : KeepsBlanks u) (start : RepairSystem)
    (events : List RepairEvent) :
    (∀ before event later, events = before ++ event :: later →
      ∃ fills, Repaired u event (run (RepairSystem.step u) start before)
        (run (RepairSystem.step u) start (before ++ [event])) fills) ∧
    (∀ key row digest, start.catalog.tables.archived.find key = some row → row.origSha256 = some digest →
      (run (RepairSystem.step u) start events).catalog.tables.archived.find key = some row) ∧
    (Permitted (RepairSystem.step u) (fun sys event => event.Careful u sys) start events →
      Agreement u start.catalog.tables → ∀ before later, events = before ++ later →
        Agreement u (run (RepairSystem.step u) start before).catalog.tables) := by
  refine ⟨?_, ?_, ?_⟩
  · intro before event later _
    obtain ⟨fills, repaired, _⟩ := step_repaired lowers blanks (run (RepairSystem.step u) start before) event
    rw [run_snoc]
    exact ⟨fills, repaired⟩
  · intro key row digest found has
    exact run_kept lowers blanks start events found has
  · rintro careful agreement before later rfl
    exact run_agreement lowers blanks (permitted_append.mp careful).1 agreement

end Runs

section Copies

open Archive (asciiUnicode)

theorem asciiUnicode_keepsBlanks : KeepsBlanks asciiUnicode where
  digits := by
    intro c hex
    by_contra space
    have blank : c ∈ Archive.asciiBlanks := List.contains_iff_mem.mp (Bool.eq_true_of_not_eq_false space)
    have apart : Archive.asciiBlanks.all (!Archive.isHex ·) = true := by decide
    simpa [hex] using List.all_eq_true.mp apart c blank
  blanks := by
    intro text spaced
    obtain ⟨c, member, space⟩ := List.any_eq_true.mp spaced
    have same : c.toLower = c := by
      have kept : Archive.asciiBlanks.all (fun c => c.toLower = c) = true := by decide
      simpa using List.all_eq_true.mp kept c (List.contains_iff_mem.mp space)
    simp only [asciiUnicode, String.toList_ofList, List.any_map, List.any_eq_true]
    refine ⟨c, member, ?_⟩
    rw [Function.comp_apply, same]
    exact space

def helloBytes : Bytes := "hello".toUTF8.data.toList

def helloDigest : String := "2cf24dba5fb0a30e26e83b2ac5b9e29e1b161e5c1fa7425e73043362938b9824"

/-- An archive whose head commit has these bytes under every path. -/
def helloArchive : ArchiveView where
  within _ := true
  lsTree path :=
    .listed [some ⟨some ["100644", "blob", "b6fc4c620b67d95f953a5c1c1230aaab5db5a1b0"], some path⟩]
  stored _ := .regular helloBytes

def copiedFile : FileRow := ⟨"org/m", "m.gguf", some 5, none, some "gguf", none⟩

def copiedRow (label : String) (digest : Option String) : ArchivedRow :=
  { mirroredRow label digest with storedRelpath := some "m.gguf" }

/-- A file with a raw copy of this digest on one drive and one without a digest on another. -/
def copiedCatalog (digest : String) : Catalog :=
  { mirroredCatalog with tables := { mirroredCatalog.tables with
      archived := ⟨[copiedRow "a" (some digest), copiedRow "b" none], by simp [copiedRow, mirroredRow, ArchivedRow.key]⟩ } }

def copiedStart (digest : String) : RepairSystem :=
  ⟨copiedCatalog digest, fun _ => none, .raised⟩

/-- The repair of the second drive. -/
def copiedRepair : RepairEvent :=
  .repairDrive (fun _ => .ok ()) (fun label => if label = "b" then some helloArchive else none)
    ⟨"b", 1, String.ofList (List.replicate 64 'f')⟩

theorem own_copiedRow (label : String) {digest : String} {text : Option String} :
    (copiedRow label text).Own asciiUnicode digest ↔ asciiUnicode.hex64 text = some digest := by
  have unnamed : asciiUnicode.annexDigest (some (copiedRow label text).compressed)
      (copiedRow label text).annexKey = none := rfl
  rw [ArchivedRow.Own, Archive.Unicode.WellFormedSource, unnamed]
  refine ⟨?_, fun found => .inr (.inl found)⟩
  rintro (impossible | found | impossible)
  · cases impossible
  · exact found
  · cases impossible

theorem agreement_copiedCatalog (digest : String) : Agreement asciiUnicode (copiedCatalog digest).tables := by
  constructor
  · intro row rowMember other otherMember apart _ known otherKnown own otherOwn
    have rows : (copiedCatalog digest).tables.archived.rows =
        [copiedRow "a" (some digest), copiedRow "b" none] := rfl
    rw [rows, List.mem_pair] at rowMember otherMember
    rcases rowMember with rfl | rfl
    · rcases otherMember with rfl | rfl
      · exact absurd rfl apart
      · cases (own_copiedRow _).mp otherOwn
    · cases (own_copiedRow _).mp own
  · intro row _ file fileMember _ known published _ found
    obtain rfl : file = copiedFile := List.mem_singleton.mp fileMember
    cases found

theorem hex64_helloDigest : asciiUnicode.hex64 (some helloDigest) = some helloDigest :=
  Archive.hex64_of_hex (by decide +kernel) (by decide +kernel)

theorem unresolved_copiedCatalog : unresolvedNullDigests (copiedCatalog helloDigest).tables "b" =
    [(copiedRow "b" none, copiedFile)] := by
  decide +kernel

theorem hash_repairs_copied :
    Agreement asciiUnicode (run (RepairSystem.step asciiUnicode) (copiedStart helloDigest)
        [copiedRepair]).catalog.tables ∧
      ((run (RepairSystem.step asciiUnicode) (copiedStart helloDigest)
        [copiedRepair]).catalog.tables.archived.find ("org/m", "m.gguf", "b")).map
          ArchivedRow.origSha256 = some (some helloDigest) := by
  refine ⟨(hash_repairs Archive.asciiUnicode_lowersHex asciiUnicode_keepsBlanks (copiedStart helloDigest)
    [copiedRepair]).2.2 ?_ (agreement_copiedCatalog _) [copiedRepair] [] rfl, by decide +kernel⟩
  refine permitted_cons.mpr ⟨?_, Permitted.nil⟩
  intro _ pair unresolved _ digest validated other otherMember _ _ known own
  have only : pair = (copiedRow "b" none, copiedFile) := by
    have listed : pair ∈ [(copiedRow "b" none, copiedFile)] := unresolved_copiedCatalog ▸ unresolved
    exact List.mem_singleton.mp listed
  subst only
  have proven : digest = helloDigest := by
    have computed : (Archives.evidence fun label => if label = "b" then some helloArchive else none).validateCandidate
        (copiedRow "b" none) copiedFile = some helloDigest := by decide +kernel
    exact Option.some.inj (validated.symm.trans computed)
  subst proven
  rcases List.mem_pair.mp otherMember with rfl | rfl
  · exact Option.some.inj (((own_copiedRow _).mp own).symm.trans hex64_helloDigest)
  · cases (own_copiedRow _).mp own

def repairedCopy : ArchivedRow :=
  { copiedRow "b" (some helloDigest) with origSha256Provenance := some "archive-head-blob" }

/-- The drive repair fills the second copy although the first has another digest. -/
theorem committed_blob_contradicts :
    Agreement asciiUnicode (copiedStart (Archive.uniformDigest '0')).catalog.tables ∧
      ¬Agreement asciiUnicode (run (RepairSystem.step asciiUnicode)
        (copiedStart (Archive.uniformDigest '0')) [copiedRepair]).catalog.tables := by
  refine ⟨agreement_copiedCatalog _, ?_⟩
  intro agreement
  have rows : (run (RepairSystem.step asciiUnicode) (copiedStart (Archive.uniformDigest '0'))
      [copiedRepair]).catalog.tables.archived.rows = [copiedRow "a" (some (Archive.uniformDigest '0')),
        repairedCopy] := by
    decide +kernel
  have first := (own_copiedRow "a").mpr (Archive.hex64_of_hex (Archive.length_uniformDigest '0')
    (Archive.hex_uniformDigest rfl))
  have second : repairedCopy.Own asciiUnicode helloDigest := (own_copiedRow "b").mpr hex64_helloDigest
  have same := agreement.copies (copiedRow "a" (some (Archive.uniformDigest '0')))
    (by rw [rows]; exact List.mem_pair.mpr (.inl rfl)) repairedCopy
    (by rw [rows]; exact List.mem_pair.mpr (.inr rfl)) (by decide +kernel) rfl _ _ first second
  exact absurd same (by decide +kernel)

end Copies

end Modelark.Revision
