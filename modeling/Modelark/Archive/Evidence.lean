import Modelark.Archive.Digest
import Modelark.Library.Sha256

/-!
# What the evidence rule guarantees

The digest form and the boolean form of the one evidence rule, over every combination of absent,
well-formed and malformed sources: what each returns, which error it raises and where the two agree.
-/

namespace Modelark.Archive

/-- A value of a row's `compressed` field. -/
inductive CompressedValue where
  | flag (value : Bool)
  | number (value : Int)
  | other (truth : Bool)
  deriving Repr, DecidableEq

namespace CompressedValue

/-- `_canonical_compressed`, nothing where it raises. -/
def canonical : CompressedValue → Option Bool
  | .flag value => some value
  | .number value => if value = 0 ∨ value = 1 then some (value == 1) else none
  | .other _ => none

/-- `bool(compressed)`. -/
def truth : CompressedValue → Bool
  | .flag value => value
  | .number value => value != 0
  | .other truth => truth

theorem truth_of_canonical {value : CompressedValue} {flag : Bool}
    (canonical : value.canonical = some flag) : value.truth = flag := by
  cases value with
  | flag value => exact Option.some.inj canonical
  | number value =>
      rw [CompressedValue.canonical, Option.ite_none_right_eq_some] at canonical
      obtain ⟨binary, same⟩ := canonical
      obtain rfl := Option.some.inj same
      rcases binary with rfl | rfl <;> rfl
  | other => cases canonical

end CompressedValue

/-- Raised as `DigestEvidenceConflict`; every other error is a `DigestEvidenceInvalid`. -/
def DigestError.isConflict : DigestError → Bool
  | .conflict _ => true
  | _ => false

namespace Unicode

variable (u : Unicode)

/-- Lower-case hexadecimal texts are their own lower case. -/
def LowersHex : Prop :=
  ∀ text : String, text.toList.all isHex = true → u.lower text = text

/-- Present but no digest. -/
def malformed (value : Option String) : Bool :=
  u.presentNonempty value && (u.hex64 value).isNone

/-- The digest an annex key names, of a copy that is not compressed. -/
def annexDigest (compressed : Option Bool) (annexKey : Option String) : Option String :=
  if compressed = some false then (u.annexSha256 annexKey).map u.lower else none

/-- A well-formed source of the original bytes says `digest`. -/
def WellFormedSource (catalogSha origSha256 : Option String) (compressed : Option Bool)
    (annexKey : Option String) (digest : String) : Prop :=
  u.hex64 catalogSha = some digest ∨ u.hex64 origSha256 = some digest ∨
    u.annexDigest compressed annexKey = some digest

/-- `_expected_hash` of a restore. -/
def expectedHash (catalogSha origSha256 : Option String) (compressed : CompressedValue)
    (annexKey : Option String) : Except DigestError (Option String) :=
  u.expectedSha256 catalogSha origSha256 (some compressed.truth) annexKey

/-- The well-formed sources with their names. -/
def sources (catalogSha origSha256 : Option String) (compressed : Option Bool)
    (annexKey : Option String) : List (String × String) :=
  [("catalog_sha", u.hex64 catalogSha), ("orig_sha256", u.hex64 origSha256),
    ("annex_key", u.annexDigest compressed annexKey)].filterMap
      fun source => source.2.map fun digest => (source.1, digest)

/-- What lower-casing promises: it leaves lower-case texts alone and erases no text. -/
structure Lawful : Prop where
  lowersHex : u.LowersHex
  lowerOnce : ∀ text, u.lower (u.lower text) = u.lower text
  lowerNonempty : ∀ text, u.lower text = "" → text = ""

variable {u} {catalogSha origSha256 annexKey approved : Option String} {compressed : Option Bool}
  {flag : Bool} {digest : String} {resolved : Option String}

theorem expectedSha256_flag : u.expectedSha256 catalogSha origSha256 (some flag) annexKey =
    if u.malformed origSha256 && (u.annexDigest (some flag) annexKey).isSome then
      .error (.malformedOrig origSha256 ((u.annexDigest (some flag) annexKey).getD ""))
    else if u.malformed catalogSha &&
        ((u.hex64 origSha256).isSome || (u.annexDigest (some flag) annexKey).isSome) then
      .error (.malformedCatalog catalogSha)
    else
      match ((u.sources catalogSha origSha256 (some flag) annexKey).map Prod.snd).dedup with
      | _ :: _ :: _ => .error (.conflict (u.sources catalogSha origSha256 (some flag) annexKey))
      | [digest] => .ok (some digest)
      | [] =>
          if u.malformed origSha256 then .ok (origSha256.map fun text => u.lower (u.strip text))
          else if u.malformed catalogSha then
            .ok (catalogSha.map fun text => u.lower (u.strip text))
          else .ok none := by
  cases flag <;> rfl

theorem mem_sources : digest ∈
    ((u.sources catalogSha origSha256 compressed annexKey).map Prod.snd).dedup ↔
      u.WellFormedSource catalogSha origSha256 compressed annexKey digest := by
  rw [List.mem_dedup, sources, WellFormedSource]
  cases u.hex64 catalogSha <;> cases u.hex64 origSha256 <;>
    cases u.annexDigest compressed annexKey <;> simp [eq_comm]

/-- Where a well-formed source exists, its digest is all that can be returned. -/
theorem resolved_of_source
    (found : u.expectedSha256 catalogSha origSha256 compressed annexKey = .ok resolved)
    (source : u.WellFormedSource catalogSha origSha256 compressed annexKey digest) :
    resolved = some digest := by
  cases compressed with
  | none => cases found
  | some flag =>
      rw [← mem_sources] at source
      rw [expectedSha256_flag] at found
      split at found
      · cases found
      split at found
      · cases found
      split at found
      · cases found
      · rename_i only
        rw [only, List.mem_singleton] at source
        rw [source]
        exact (Except.ok.inj found).symm
      · rename_i none
        rw [none] at source
        exact absurd source List.not_mem_nil

/-- A digest is only returned when every well-formed source says the same. -/
theorem wellFormedSource_eq {result : String}
    (found : u.expectedSha256 catalogSha origSha256 compressed annexKey = .ok (some result))
    (source : u.WellFormedSource catalogSha origSha256 compressed annexKey digest) :
    digest = result :=
  Option.some.inj (resolved_of_source found source).symm

/-- Two well-formed sources that disagree are refused, as a conflict when nothing is malformed. -/
theorem refused_of_disagreement {other : String}
    (source : u.WellFormedSource catalogSha origSha256 (some flag) annexKey digest)
    (second : u.WellFormedSource catalogSha origSha256 (some flag) annexKey other)
    (apart : digest ≠ other) :
    ∃ error, u.expectedSha256 catalogSha origSha256 (some flag) annexKey = .error error ∧
      (u.malformed origSha256 = false → u.malformed catalogSha = false →
        error.isConflict = true) := by
  rw [← mem_sources] at source second
  rw [expectedSha256_flag]
  split
  · rename_i bad
    exact ⟨_, rfl, fun orig _ => by simp [orig] at bad⟩
  split
  · rename_i bad
    exact ⟨_, rfl, fun _ catalog => by simp [catalog] at bad⟩
  split
  · exact ⟨_, rfl, fun _ _ => rfl⟩
  · rename_i only
    rw [only, List.mem_singleton] at source second
    exact absurd (source.trans second.symm) apart
  · rename_i none
    rw [none] at source
    exact absurd source List.not_mem_nil

theorem invalid_of_malformedOrig (bad : u.malformed origSha256 = true)
    (annex : u.annexDigest compressed annexKey = some digest) :
    ∃ error, u.expectedSha256 catalogSha origSha256 compressed annexKey = .error error ∧
      error.isConflict = false := by
  cases compressed with
  | none => exact ⟨_, rfl, rfl⟩
  | some flag =>
      rw [expectedSha256_flag, bad, annex]
      exact ⟨_, rfl, rfl⟩

theorem invalid_of_malformedCatalog (bad : u.malformed catalogSha = true)
    (source : u.hex64 origSha256 = some digest ∨ u.annexDigest compressed annexKey = some digest) :
    ∃ error, u.expectedSha256 catalogSha origSha256 compressed annexKey = .error error ∧
      error.isConflict = false := by
  cases compressed with
  | none => exact ⟨_, rfl, rfl⟩
  | some flag =>
      rw [expectedSha256_flag, bad]
      split
      · exact ⟨_, rfl, rfl⟩
      · rw [if_pos (by rcases source with source | source <;> simp [source])]
        exact ⟨_, rfl, rfl⟩

section Approval

/-- What `hex64` and the annex key yield is a lower-case hexadecimal text of 64 characters. -/
theorem hex_of_hex64 {value : Option String} (found : u.hex64 value = some digest) :
    digest.length = 64 ∧ digest.toList.all isHex = true := by
  rw [hex64, Option.filter_eq_some_iff, Bool.and_eq_true, decide_eq_true_eq] at found
  exact found.2

theorem hex_of_annexSha256 (found : u.annexSha256 annexKey = some digest) :
    digest.length = 64 ∧ digest.toList.all isHex = true := by
  simp only [annexSha256, Option.bind_eq_bind, Option.bind_eq_some_iff] at found
  obtain ⟨_, _, _, _, _, _, body, _, _, hex, _, _, same⟩ := found
  rw [Option.guard_eq_some'] at hex
  obtain rfl := Option.some.inj same
  rw [String.length_ofList, String.toList_ofList]
  exact hex

theorem hex_of_source (lowers : u.LowersHex)
    (source : u.WellFormedSource catalogSha origSha256 compressed annexKey digest) :
    digest.length = 64 ∧ digest.toList.all isHex = true := by
  rcases source with catalog | orig | annex
  · exact hex_of_hex64 catalog
  · exact hex_of_hex64 orig
  · rw [annexDigest, Option.ite_none_right_eq_some, Option.map_eq_some_iff] at annex
    obtain ⟨_, extracted, named, rfl⟩ := annex
    have hex := hex_of_annexSha256 named
    rw [lowers extracted hex.2]
    exact hex

/-- A digest is resolved when no malformed piece stands beside other evidence and the well-formed
    sources agree. -/
theorem exists_ok_iff :
    (∃ result, u.expectedSha256 catalogSha origSha256 (some flag) annexKey = .ok result) ↔
      (u.malformed origSha256 = true → u.annexDigest (some flag) annexKey = none) ∧
      (u.malformed catalogSha = true →
        u.hex64 origSha256 = none ∧ u.annexDigest (some flag) annexKey = none) ∧
      ∀ digest other, u.WellFormedSource catalogSha origSha256 (some flag) annexKey digest →
        u.WellFormedSource catalogSha origSha256 (some flag) annexKey other → digest = other := by
  constructor
  · rintro ⟨result, found⟩
    refine ⟨fun bad => ?_, fun bad => ?_, fun digest other source second => ?_⟩
    · by_contra annex
      obtain ⟨digest, annex⟩ := Option.ne_none_iff_exists'.mp annex
      obtain ⟨_, refused, _⟩ := @invalid_of_malformedOrig u catalogSha _ _ _ _ bad annex
      rw [found] at refused
      cases refused
    · have absent : ∀ digest, ¬(u.hex64 origSha256 = some digest ∨
          u.annexDigest (some flag) annexKey = some digest) := by
        intro digest source
        obtain ⟨_, refused, _⟩ := invalid_of_malformedCatalog bad source
        rw [found] at refused
        cases refused
      constructor
      · exact Option.eq_none_iff_forall_ne_some.mpr fun digest orig => absent digest (.inl orig)
      · exact Option.eq_none_iff_forall_ne_some.mpr fun digest annex => absent digest (.inr annex)
    · by_contra apart
      obtain ⟨_, refused, _⟩ := refused_of_disagreement source second apart
      rw [found] at refused
      cases refused
  · rintro ⟨orig, catalog, agree⟩
    rw [expectedSha256_flag]
    split
    · rename_i bad
      simp only [Bool.and_eq_true] at bad
      simp [orig bad.1] at bad
    split
    · rename_i bad
      simp only [Bool.and_eq_true] at bad
      simp [catalog bad.1] at bad
    split
    · rename_i first second rest several
      have distinct := List.nodup_dedup
        ((u.sources catalogSha origSha256 (some flag) annexKey).map Prod.snd)
      have same := agree first second
        (mem_sources.mp (by rw [several]; exact List.mem_cons_self ..))
        (mem_sources.mp (by rw [several]; exact List.mem_cons_of_mem _ (List.mem_cons_self ..)))
      rw [several, same] at distinct
      simp at distinct
    · exact ⟨_, rfl⟩
    · split
      · exact ⟨_, rfl⟩
      · split
        · exact ⟨_, rfl⟩
        · exact ⟨_, rfl⟩

/-- What a row without a malformed digest resolves to is one of its own sources. -/
theorem source_of_ok (clean : u.malformed origSha256 = false)
    (found : u.expectedSha256 none origSha256 (some flag) annexKey = .ok (some digest)) :
    u.hex64 origSha256 = some digest ∨ u.annexDigest (some flag) annexKey = some digest := by
  have source : u.WellFormedSource none origSha256 (some flag) annexKey digest := by
    rw [expectedSha256_flag, clean] at found
    rw [← mem_sources]
    split at found
    · cases found
    split at found
    · cases found
    split at found
    · cases found
    · rename_i only
      rw [only, Option.some.inj (Except.ok.inj found)]
      exact List.mem_singleton_self _
    · cases found
  exact source.resolve_left nofun

/-- The boolean form, read off the digest the row itself resolves to. -/
theorem contentSatisfies_eq_true :
    u.contentSatisfies approved origSha256 compressed annexKey = true ↔
      ∃ digest, u.expectedSha256 none origSha256 compressed annexKey = .ok (some digest) ∧
        if truthy approved = true then ∃ text, approved = some text ∧ u.lower digest = u.lower text
        else digest ≠ "" := by
  rw [contentSatisfies]
  cases u.expectedSha256 none origSha256 compressed annexKey with
  | error => simp
  | ok resolved =>
      dsimp only
      cases resolved with
      | none => split <;> simp [truthy]
      | some digest => split <;> simp [truthy, Option.any_eq_true]

/-- Without an approved text there is no catalog source and nothing malformed about it. -/
theorem absent_of_not_truthy (lowers : u.LowersHex) (absent : ¬truthy approved = true) :
    u.hex64 approved = none ∧ u.malformed approved = false := by
  cases approved with
  | none => exact ⟨rfl, rfl⟩
  | some text =>
      obtain rfl : text = "" := by simpa [truthy] using absent
      have empty : u.strip "" = "" := rfl
      have lowered : u.lower "" = "" := lowers "" rfl
      simp [malformed, hex64, presentNonempty, empty, lowered]

/-- An approved text without surrounding blanks is the catalog source that says its lower case, or
    malformed. -/
theorem hex64_of_truthy {text : String} (bare : u.strip text = text) :
    u.hex64 (some text) =
      if (u.lower text).length = 64 && (u.lower text).toList.all isHex then some (u.lower text)
      else none := by
  rw [hex64, Option.map_some, bare]
  rfl

theorem malformed_of_truthy {text : String} (bare : u.strip text = text)
    (present : truthy (some text) = true) (noDigest : u.hex64 (some text) = none) :
    u.malformed (some text) = true := by
  rw [malformed, presentNonempty, noDigest, Option.any_some, bare, Option.isNone_none, Bool.and_true]
  exact present

/-- Content that satisfies an approved text raises no error when that text is the catalog source. -/
theorem ok_of_contentSatisfies (lowers : u.LowersHex)
    (bare : ∀ text, approved = some text → u.strip text = text)
    (satisfied : u.contentSatisfies approved origSha256 compressed annexKey = true) :
    (∃ digest, u.expectedSha256 none origSha256 compressed annexKey = .ok (some digest)) ∧
      ∃ result, u.expectedSha256 approved origSha256 compressed annexKey = .ok result := by
  obtain ⟨digest, own, same⟩ := contentSatisfies_eq_true.mp satisfied
  refine ⟨⟨digest, own⟩, ?_⟩
  cases compressed with
  | none => cases own
  | some flag =>
      obtain ⟨origAnnex, _, _⟩ := exists_ok_iff.mp ⟨_, own⟩
      -- A source of the row's own is the digest it resolves to, which the approved text names.
      have ofOwn : ∀ {source}, (u.hex64 origSha256 = some source ∨
          u.annexDigest (some flag) annexKey = some source) → source = digest ∧
          (truthy approved = true → u.hex64 approved = some source) := by
        intro source named
        have wellFormed : u.WellFormedSource none origSha256 (some flag) annexKey source :=
          .inr named
        obtain rfl := wellFormedSource_eq own wellFormed
        obtain ⟨long, hex⟩ := hex_of_source lowers wellFormed
        refine ⟨rfl, fun present => ?_⟩
        rw [if_pos present] at same
        obtain ⟨text, rfl, same⟩ := same
        rw [hex64_of_truthy (bare text rfl), ← same, lowers _ hex, long, hex]
        rfl
      refine exists_ok_iff.mpr ⟨origAnnex, fun bad => ?_, fun left right first second => ?_⟩
      · have present : truthy approved = true := by
          by_contra absent
          rw [(absent_of_not_truthy lowers absent).2] at bad
          cases bad
        have none : ∀ source, ¬(u.hex64 origSha256 = some source ∨
            u.annexDigest (some flag) annexKey = some source) := by
          intro source named
          rw [malformed, (ofOwn named).2 present] at bad
          simp at bad
        constructor
        · exact Option.eq_none_iff_forall_ne_some.mpr fun source orig => none source (.inl orig)
        · exact Option.eq_none_iff_forall_ne_some.mpr fun source annex => none source (.inr annex)
      · have catalogOwn : ∀ {catalog source}, u.hex64 approved = some catalog →
            (u.hex64 origSha256 = some source ∨ u.annexDigest (some flag) annexKey = some source) →
            catalog = source := by
          intro catalog source named own'
          have present : truthy approved = true := by
            by_contra absent
            rw [(absent_of_not_truthy lowers absent).1] at named
            cases named
          exact Option.some.inj (named.symm.trans ((ofOwn own').2 present))
        rcases first with first | first <;> rcases second with second | second
        · exact Option.some.inj (first.symm.trans second)
        · exact catalogOwn first second
        · exact (catalogOwn second first).symm
        · exact (ofOwn first).1.trans (ofOwn second).1.symm

/-- On rows without a malformed digest the boolean and the digest form agree. -/
theorem contentSatisfies_iff (lowers : u.LowersHex)
    (bare : ∀ text, approved = some text → u.strip text = text)
    (clean : u.malformed origSha256 = false) :
    u.contentSatisfies approved origSha256 compressed annexKey = true ↔
      (∃ digest, u.expectedSha256 none origSha256 compressed annexKey = .ok (some digest)) ∧
        ∃ result, u.expectedSha256 approved origSha256 compressed annexKey = .ok result := by
  refine ⟨ok_of_contentSatisfies lowers bare, ?_⟩
  rintro ⟨⟨digest, own⟩, result, accepted⟩
  refine contentSatisfies_eq_true.mpr ⟨digest, own, ?_⟩
  cases compressed with
  | none => cases own
  | some flag =>
      have source := source_of_ok clean own
      obtain ⟨long, hex⟩ := hex_of_source lowers
        (show u.WellFormedSource none origSha256 (some flag) annexKey digest from .inr source)
      split
      · rename_i present
        cases approved with
        | none => cases present
        | some text =>
            refine ⟨text, rfl, ?_⟩
            obtain ⟨_, catalog, agree⟩ := exists_ok_iff.mp ⟨_, accepted⟩
            cases named : u.hex64 (some text) with
            | none =>
                have absent := catalog (malformed_of_truthy (bare text rfl) present named)
                rw [absent.1, absent.2] at source
                rcases source with source | source <;> cases source
            | some approvedDigest =>
                obtain rfl := agree approvedDigest digest (.inl named) (.inr source)
                rw [hex64_of_truthy (bare text rfl), Option.ite_none_right_eq_some] at named
                rw [lowers _ hex]
                exact (Option.some.inj named.2).symm
      · rintro rfl
        cases long

end Approval

section Own

variable {text : String}

/-- A row whose digest is a blank text has no digest source but its annex key. -/
theorem blank_of_strip (lowers : u.LowersHex) (blank : u.strip text = "") :
    u.hex64 (some text) = none ∧ u.malformed (some text) = false := by
  have lowered : u.lower "" = "" := lowers "" rfl
  simp [malformed, hex64, presentNonempty, blank, lowered]

/-- A malformed digest on its own is returned as it is written. -/
theorem own_of_malformed (bad : u.malformed (some text) = true)
    (noKey : u.annexDigest (some flag) annexKey = none) :
    u.expectedSha256 none (some text) (some flag) annexKey = .ok (some (u.lower (u.strip text))) := by
  have noDigest : u.hex64 (some text) = none := by
    rw [malformed, Bool.and_eq_true, Option.isNone_iff_eq_none] at bad
    exact bad.2
  have none : u.sources none (some text) (some flag) annexKey = [] := by
    rw [sources, noDigest, noKey]
    rfl
  rw [expectedSha256_flag, bad, noKey, none]
  rfl

/-- Evidence from the row's own sources, when they agree. -/
theorem own_of_sources (clean : u.malformed origSha256 = false)
    (agree : ∀ source, u.hex64 origSha256 = some source ∨
      u.annexDigest (some flag) annexKey = some source → source = digest)
    (source : u.hex64 origSha256 = some digest ∨ u.annexDigest (some flag) annexKey = some digest) :
    u.expectedSha256 none origSha256 (some flag) annexKey = .ok (some digest) := by
  obtain ⟨result, found⟩ : ∃ result,
      u.expectedSha256 none origSha256 (some flag) annexKey = .ok result := by
    refine exists_ok_iff.mpr ⟨fun bad => ?_, nofun, fun left right first second => ?_⟩
    · rw [clean] at bad
      cases bad
    · exact (agree left (first.resolve_left nofun)).trans
        (agree right (second.resolve_left nofun)).symm
  rw [found, resolved_of_source found (.inr source)]

/-- A row resolves to nothing when it has no source at all. -/
theorem own_of_nothing (clean : u.malformed origSha256 = false) (noDigest : u.hex64 origSha256 = none)
    (noKey : u.annexDigest (some flag) annexKey = none) :
    u.expectedSha256 none origSha256 (some flag) annexKey = .ok none := by
  have none : u.sources none origSha256 (some flag) annexKey = [] := by
    rw [sources, noDigest, noKey]
    rfl
  rw [expectedSha256_flag, clean, none]
  rfl

/-- What a row resolves to is one of its sources, or its malformed digest as it is written. -/
theorem own_eq_ok (found : u.expectedSha256 none origSha256 (some flag) annexKey = .ok (some digest)) :
    (u.malformed origSha256 = false ∧ (u.hex64 origSha256 = some digest ∨
        u.annexDigest (some flag) annexKey = some digest)) ∨
      ∃ text, origSha256 = some text ∧ u.malformed origSha256 = true ∧
        u.annexDigest (some flag) annexKey = none ∧ digest = u.lower (u.strip text) := by
  cases clean : u.malformed origSha256 with
  | false => exact .inl ⟨rfl, source_of_ok clean found⟩
  | true =>
      have noKey := (exists_ok_iff.mp ⟨_, found⟩).1 clean
      cases origSha256 with
      | none => cases clean
      | some text =>
          rw [own_of_malformed clean noKey] at found
          exact .inr ⟨text, rfl, rfl, noKey, (Option.some.inj (Except.ok.inj found)).symm⟩

/-- A resolved digest is lower case and not empty. -/
theorem lower_of_own (lawful : u.Lawful)
    (found : u.expectedSha256 none origSha256 compressed annexKey = .ok (some digest)) :
    u.lower digest = digest ∧ digest ≠ "" := by
  cases compressed with
  | none => cases found
  | some flag =>
      rcases own_eq_ok found with ⟨_, source⟩ | ⟨text, rfl, bad, _, rfl⟩
      · obtain ⟨long, hex⟩ := hex_of_source lawful.lowersHex
          (show u.WellFormedSource none origSha256 (some flag) annexKey digest from .inr source)
        refine ⟨lawful.lowersHex _ hex, ?_⟩
        rintro rfl
        cases long
      · refine ⟨lawful.lowerOnce _, fun empty => ?_⟩
        have blank := lawful.lowerNonempty _ empty
        simp [malformed, presentNonempty, blank] at bad

/-- Two rows satisfy each other when they resolve to the same digest. -/
theorem satisfies_own_iff {other otherKey : Option String} {otherFlag : Option Bool}
    (lawful : u.Lawful)
    (found : u.expectedSha256 none origSha256 compressed annexKey = .ok (some digest)) :
    u.contentSatisfies (some digest) other otherFlag otherKey = true ↔
      u.expectedSha256 none other otherFlag otherKey = .ok (some digest) := by
  obtain ⟨lowered, present⟩ := lower_of_own lawful found
  have named : truthy (some digest) = true := by
    rw [truthy, Option.any_some]
    exact bne_iff_ne.mpr present
  rw [contentSatisfies_eq_true]
  simp only [if_pos named]
  constructor
  · rintro ⟨result, own, text, approved, same⟩
    rw [← Option.some.inj approved, (lower_of_own lawful own).1, lowered] at same
    rw [own, same]
  · intro own
    exact ⟨digest, own, digest, rfl, rfl⟩

end Own

/-- The evidence rule over every combination of sources: a returned digest is every well-formed
    source's, disagreement and malformed pieces beside other evidence are refused, and for a row
    without a malformed digest the boolean form, the digest form and the restore's form agree. -/
theorem evidence_rule (lowers : u.LowersHex)
    (approved catalogSha origSha256 annexKey : Option String) (value : CompressedValue) :
    (∀ result digest,
      u.expectedSha256 catalogSha origSha256 value.canonical annexKey = .ok (some result) →
        u.WellFormedSource catalogSha origSha256 value.canonical annexKey digest →
          digest = result) ∧
    (∀ digest other, u.WellFormedSource catalogSha origSha256 value.canonical annexKey digest →
      u.WellFormedSource catalogSha origSha256 value.canonical annexKey other → digest ≠ other →
        ∃ error, u.expectedSha256 catalogSha origSha256 value.canonical annexKey = .error error ∧
          (value.canonical ≠ none → u.malformed origSha256 = false →
            u.malformed catalogSha = false → error.isConflict = true)) ∧
    (∀ digest, (u.malformed origSha256 = true ∧
          u.annexDigest value.canonical annexKey = some digest) ∨
        (u.malformed catalogSha = true ∧ (u.hex64 origSha256 = some digest ∨
          u.annexDigest value.canonical annexKey = some digest)) →
      ∃ error, u.expectedSha256 catalogSha origSha256 value.canonical annexKey = .error error ∧
        error.isConflict = false) ∧
    ((∀ text, approved = some text → u.strip text = text) → u.malformed origSha256 = false →
      (u.contentSatisfies approved origSha256 value.canonical annexKey = true ↔
        (∃ digest, u.expectedSha256 none origSha256 value.canonical annexKey =
          .ok (some digest)) ∧
        ∃ result, u.expectedSha256 approved origSha256 value.canonical annexKey = .ok result)) ∧
    (value.canonical ≠ none → u.expectedHash catalogSha origSha256 value annexKey =
      u.expectedSha256 catalogSha origSha256 value.canonical annexKey) := by
  refine ⟨fun _ _ => wellFormedSource_eq, ?_, ?_, contentSatisfies_iff lowers, ?_⟩
  · intro digest other source second apart
    cases canonical : value.canonical with
    | none => exact ⟨_, rfl, fun determinate => absurd rfl determinate⟩
    | some flag =>
        rw [canonical] at source second
        obtain ⟨error, refused, conflict⟩ := refused_of_disagreement source second apart
        exact ⟨error, refused, fun _ => conflict⟩
  · rintro digest (⟨bad, annex⟩ | ⟨bad, source⟩)
    · exact invalid_of_malformedOrig bad annex
    · exact invalid_of_malformedCatalog bad source
  · intro determinate
    cases canonical : value.canonical with
    | none => exact absurd canonical determinate
    | some flag => rw [expectedHash, CompressedValue.truth_of_canonical canonical]

end Unicode

section Hexadecimal

theorem isHex_digitChar {digit : Nat} (small : digit < 16) : isHex (Nat.digitChar digit) = true := by
  decide +revert

/-- A digest is 64 lower-case hexadecimal digits. -/
theorem hex_sha256 (bytes : List UInt8) :
    (Library.sha256 bytes).length = 64 ∧ (Library.sha256 bytes).toList.all isHex = true := by
  have word (value : UInt32) : (Library.Sha256.hexWord value).length = 8 ∧
      (Library.Sha256.hexWord value).all isHex = true := by
    constructor
    · simp [Library.Sha256.hexWord]
    · rw [Library.Sha256.hexWord, List.all_map, List.all_eq_true]
      intro place _
      exact isHex_digitChar (Nat.mod_lt _ (by omega))
  simp [Library.sha256, word]

end Hexadecimal

section Ascii

open Unicode

theorem toLower_of_isHex {c : Char} (hex : isHex c = true) : c.toLower = c := by
  rw [Char.toLower, dif_neg]
  simp only [isHex, Bool.or_eq_true, Bool.and_eq_true, decide_eq_true_eq, Char.le_def,
    UInt32.le_iff_toNat_le] at hex
  rintro ⟨low, high⟩
  simp only [ge_iff_le, UInt32.le_iff_toNat_le] at low high
  have digits : '9'.val.toNat < 'A'.val.toNat := by decide
  have letters : 'Z'.val.toNat < 'a'.val.toNat := by decide
  omega

theorem asciiUnicode_lowersHex : asciiUnicode.LowersHex := by
  intro text hex
  have same : text.toList.map Char.toLower = text.toList := by
    refine (List.map_congr_left fun c member => ?_).trans (List.map_id _)
    exact toLower_of_isHex (List.all_eq_true.mp hex c member)
  exact (congrArg String.ofList same).trans String.ofList_toList

theorem toLower_toLower (c : Char) : c.toLower.toLower = c.toLower := by
  by_cases upper : c.isUpper = true
  · have once : c.toLower.val = c.val + 32 := by
      rw [Char.toLower, dif_pos (by simpa [Char.isUpper] using upper)]
      rfl
    rw [Char.toLower, dif_neg]
    rintro ⟨_, high⟩
    simp only [Char.isUpper, decide_eq_true_eq] at upper
    rw [once] at high
    simp only [UInt32.le_iff_toNat_le, UInt32.toNat_add] at upper high
    have bound : 'Z'.val.toNat = 90 := by decide
    have least : 'A'.val.toNat = 65 := by decide
    have step : (32 : UInt32).toNat = 32 := by decide
    omega
  · have same : c.toLower = c := by
      rw [Char.toLower, dif_neg]
      simpa [Char.isUpper] using upper
    rw [same, same]

theorem asciiUnicode_lawful : asciiUnicode.Lawful where
  lowersHex := asciiUnicode_lowersHex
  lowerOnce := by
    intro text
    simp only [asciiUnicode, String.toList_ofList, List.map_map]
    congr 1
    exact List.map_congr_left fun c _ => toLower_toLower c
  lowerNonempty := by
    intro text empty
    have chars := congrArg String.toList empty
    simp only [asciiUnicode, String.toList_ofList] at chars
    exact String.toList_injective (List.map_eq_nil_iff.mp chars)

theorem strip_of_hex {text : String} (hex : text.toList.all isHex = true) :
    asciiUnicode.strip text = text := by
  have kept : ∀ chars : List Char, chars.all isHex = true →
      chars.dropWhile asciiUnicode.isSpace = chars := by
    intro chars hex
    cases chars with
    | nil => rfl
    | cons c rest =>
        have first : isHex c = true := List.all_eq_true.mp hex c (List.mem_cons_self ..)
        rw [List.dropWhile_cons_of_neg]
        intro space
        have apart : asciiBlanks.all (!isHex ·) = true := by decide
        simpa [first] using List.all_eq_true.mp apart c (List.contains_iff_mem.mp space)
  rw [strip, kept _ hex, kept _ (by rwa [List.all_reverse]), List.reverse_reverse,
    String.ofList_toList]

theorem hex64_of_hex {text : String} (long : text.length = 64)
    (hex : text.toList.all isHex = true) : asciiUnicode.hex64 (some text) = some text := by
  rw [hex64_of_truthy (strip_of_hex hex), asciiUnicode_lowersHex text hex, long, hex]
  rfl

/-- The digest made of one digit. -/
def uniformDigest (digit : Char) : String :=
  String.ofList (List.replicate 64 digit)

def uniformAnnex (digit : Char) : String :=
  "SHA256E-s1--" ++ uniformDigest digit

theorem length_uniformDigest (digit : Char) : (uniformDigest digit).length = 64 := by
  rw [uniformDigest, String.length_ofList, List.length_replicate]

theorem hex_uniformDigest {digit : Char} (hex : isHex digit = true) :
    (uniformDigest digit).toList.all isHex = true := by
  rw [uniformDigest, String.toList_ofList, List.all_replicate, hex]
  rfl

theorem annexDigest_uniformAnnex {digit : Char} (hex : isHex digit = true) :
    asciiUnicode.annexDigest (some false) (some (uniformAnnex digit)) =
      some (uniformDigest digit) := by
  have key : (uniformAnnex digit).toList = "SHA256E-s1--".toList ++ List.replicate 64 digit := by
    rw [uniformAnnex, uniformDigest, String.toList_append]
    exact congrArg _ String.toList_ofList
  have named : dropText "SHA256" ("SHA256E-s1--".toList ++ List.replicate 64 digit) =
      some ("E-s1--".toList ++ List.replicate 64 digit) := rfl
  have sized : dropText "-s" ("-s1--".toList ++ List.replicate 64 digit) =
      some ("1--".toList ++ List.replicate 64 digit) := rfl
  have body : dropText "--" ("--".toList ++ List.replicate 64 digit) =
      some (List.replicate 64 digit) := rfl
  have extracted : asciiUnicode.annexSha256 (some (uniformAnnex digit)) =
      some (uniformDigest digit) := by
    rw [annexSha256, Option.getD_some, key, named, Option.bind_eq_bind, Option.bind_some]
    change (dropText "-s" ("-s1--".toList ++ List.replicate 64 digit)).bind _ = _
    rw [sized, Option.bind_some]
    change (some ()).bind (fun _ => (dropText "--" ("--".toList ++ List.replicate 64 digit)).bind
      _) = _
    rw [body]
    have whole : List.take 64 (List.replicate 64 digit) = List.replicate 64 digit := rfl
    have ended : List.drop 64 (List.replicate 64 digit) = [] := rfl
    simp only [Option.bind_some, whole, ended, List.length_replicate, List.all_replicate, hex]
    rfl
  rw [annexDigest, if_pos rfl, extracted, Option.map_some,
    asciiUnicode_lowersHex _ (hex_uniformDigest hex)]

theorem evidence_rule_agreed :
    asciiUnicode.contentSatisfies (some (uniformDigest 'a')) (some (uniformDigest 'a'))
      (CompressedValue.number 0).canonical (some (uniformAnnex 'a')) = true := by
  have hex := @hex_uniformDigest 'a' rfl
  have orig := hex64_of_hex (length_uniformDigest 'a') hex
  have annex := @annexDigest_uniformAnnex 'a' rfl
  have clean : asciiUnicode.malformed (some (uniformDigest 'a')) = false := by
    rw [malformed, orig, Option.isNone_some, Bool.and_false]
  have agreed : ∀ catalogSha, asciiUnicode.malformed catalogSha = false →
      (∀ digest, asciiUnicode.hex64 catalogSha = some digest → digest = uniformDigest 'a') →
      asciiUnicode.expectedSha256 catalogSha (some (uniformDigest 'a')) (some false)
        (some (uniformAnnex 'a')) = .ok (some (uniformDigest 'a')) := by
    intro catalogSha proper catalog
    have same : ∀ digest, asciiUnicode.WellFormedSource catalogSha (some (uniformDigest 'a'))
        (some false) (some (uniformAnnex 'a')) digest → digest = uniformDigest 'a' := by
      rintro digest (source | source | source)
      · exact catalog digest source
      · exact Option.some.inj (source.symm.trans orig)
      · exact Option.some.inj (source.symm.trans annex)
    obtain ⟨result, found⟩ := exists_ok_iff.mpr ⟨fun bad => absurd (clean.symm.trans bad) nofun,
      fun bad => absurd (proper.symm.trans bad) nofun,
      fun left right first second => (same left first).trans (same right second).symm⟩
    rw [found, resolved_of_source found (.inr (.inl orig))]
  refine ((evidence_rule asciiUnicode_lowersHex (some (uniformDigest 'a')) none
    (some (uniformDigest 'a')) (some (uniformAnnex 'a')) (.number 0)).2.2.2.1 ?_ clean).mpr ⟨?_, ?_⟩
  · rintro text same
    obtain rfl := Option.some.inj same
    exact strip_of_hex hex
  · exact ⟨_, agreed none rfl nofun⟩
  · exact ⟨_, agreed _ clean fun digest source => Option.some.inj (source.symm.trans orig)⟩

/-- A malformed piece is refused before the other two are compared; beside a malformed digest of the
    row an approved digest is returned, although the row's own evidence does not satisfy it. -/
theorem evidence_rule_as_stated_fails :
    (¬∀ catalogSha origSha256 annexKey : Option String, ∀ digest other,
      asciiUnicode.WellFormedSource catalogSha origSha256 (some false) annexKey digest →
        asciiUnicode.WellFormedSource catalogSha origSha256 (some false) annexKey other →
          digest ≠ other → ∃ error, asciiUnicode.expectedSha256 catalogSha origSha256 (some false)
            annexKey = .error error ∧ error.isConflict = true) ∧
    (¬∀ catalogSha origSha256 annexKey : Option String, ∀ digest,
      asciiUnicode.malformed origSha256 = true → asciiUnicode.hex64 catalogSha = some digest →
        ∃ error, asciiUnicode.expectedSha256 catalogSha origSha256 (some false) annexKey =
          .error error ∧ error.isConflict = false) ∧
    ¬∀ approved origSha256 annexKey : Option String,
      (∀ text, approved = some text → asciiUnicode.strip text = text) →
        (asciiUnicode.contentSatisfies approved origSha256 (some false) annexKey = true ↔
          (∃ digest, asciiUnicode.expectedSha256 none origSha256 (some false) annexKey =
            .ok (some digest)) ∧
          ∃ result, asciiUnicode.expectedSha256 approved origSha256 (some false) annexKey =
            .ok result) := by
  have hex := @hex_uniformDigest 'a' rfl
  have digest := hex64_of_hex (length_uniformDigest 'a') hex
  have bad : asciiUnicode.malformed (some "not-a-digest") = true := by decide +kernel
  have own : asciiUnicode.expectedSha256 none (some "not-a-digest") (some false) none =
      .ok (some "not-a-digest") := by decide +kernel
  -- Only the approved digest is well formed here, and the key is not there to contradict.
  obtain ⟨result, accepted⟩ : ∃ result, asciiUnicode.expectedSha256 (some (uniformDigest 'a'))
      (some "not-a-digest") (some false) none = .ok result := by
    have noDigest : asciiUnicode.hex64 (some "not-a-digest") = none := by decide +kernel
    have noKey : asciiUnicode.annexDigest (some false) none = none := rfl
    have only : ∀ source, asciiUnicode.WellFormedSource (some (uniformDigest 'a'))
        (some "not-a-digest") (some false) none source → source = uniformDigest 'a' := by
      rintro source (catalog | orig | annex)
      · exact Option.some.inj (catalog.symm.trans digest)
      · rw [noDigest] at orig
        cases orig
      · rw [noKey] at annex
        cases annex
    exact exists_ok_iff.mpr ⟨fun _ => noKey, fun _ => ⟨noDigest, noKey⟩,
      fun left right first second => (only left first).trans (only right second).symm⟩
  refine ⟨fun claim => ?_, fun claim => ?_, fun claim => ?_⟩
  · have annex := @annexDigest_uniformAnnex 'b' rfl
    have apart : uniformDigest 'a' ≠ uniformDigest 'b' := by
      intro same
      have digits := congrArg String.toList same
      rw [uniformDigest, uniformDigest, String.toList_ofList, String.toList_ofList,
        List.replicate_inj] at digits
      exact absurd digits.2 (by decide)
    obtain ⟨error, raised, conflict⟩ := claim (some "not-a-digest") (some (uniformDigest 'a'))
      (some (uniformAnnex 'b')) _ _ (.inr (.inl digest)) (.inr (.inr annex)) apart
    obtain ⟨other, invalid, refused⟩ := invalid_of_malformedCatalog bad (.inr annex)
    obtain rfl := Except.error.inj (raised.symm.trans invalid)
    exact absurd (conflict.symm.trans refused) nofun
  · obtain ⟨_, raised, _⟩ := claim (some (uniformDigest 'a')) (some "not-a-digest") none _ bad digest
    rw [accepted] at raised
    cases raised
  · have satisfied := (claim (some (uniformDigest 'a')) (some "not-a-digest") none
      (fun text same => Option.some.inj same ▸ strip_of_hex hex)).mpr ⟨⟨_, own⟩, _, accepted⟩
    obtain ⟨resolved, found, same⟩ := contentSatisfies_eq_true.mp satisfied
    obtain rfl := Option.some.inj (Except.ok.inj (own.symm.trans found))
    have present : truthy (some (uniformDigest 'a')) = true := by
      rw [truthy, Option.any_some, bne_iff_ne]
      intro empty
      have long := length_uniformDigest 'a'
      rw [empty] at long
      cases long
    rw [if_pos present] at same
    obtain ⟨text, approved, lowered⟩ := same
    obtain rfl := Option.some.inj approved
    rw [asciiUnicode_lowersHex _ hex] at lowered
    have long := congrArg String.length lowered
    rw [length_uniformDigest] at long
    revert long
    decide +kernel

end Ascii

end Modelark.Archive
