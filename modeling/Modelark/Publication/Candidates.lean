import Modelark.Library.Sha256
import Modelark.Publication.MapPolicy

/-!
# Accepted candidates

What a candidate that is accepted has done to the location logs, and that it has left everything else alone.
-/

namespace Modelark.Publication

open Library Revision Conversion

/-- Records that are read do not contradict each other. -/
theorem parseLocationLog_coherent {data : Bytes} {read : LocationRecords}
    (parsed : parseLocationLog data = .ok read) : locationRecords read = .ok () := by
  simp only [parseLocationLog, bind_eq_ok] at parsed
  obtain ⟨_, _, parsed⟩ := parsed
  split at parsed
  · cases parsed
  · rename_i chars _
    have step (state : LocationRecords) (line : List Char) (next : LocationRecords)
        (added : addRecord state line = .ok next) (coherent : locationRecords state = .ok ()) :
        locationRecords next = .ok () := by
      unfold addRecord at added
      split at added
      · cases added
      · rename_i record _
        simp only [bind_eq_ok, require_eq_ok, decide_eq_true_iff, pure_eq_ok] at added
        obtain ⟨_, agrees, rfl⟩ := added
        rw [locationRecords, require_eq_ok, decide_eq_true_iff] at coherent ⊢
        intro one first other second same clock
        rcases Finset.mem_insert.mp first with rfl | old
        · rcases Finset.mem_insert.mp second with rfl | listed
          · rfl
          · exact (agrees other listed same.symm clock.symm).symm
        · rcases Finset.mem_insert.mp second with rfl | listed
          · exact agrees one old same clock
          · exact coherent one old other listed same clock
    have none' : locationRecords ∅ = .ok () := by
      rw [locationRecords, require_eq_ok, decide_eq_true_iff]
      intro record member
      cases member
    exact thread_invariant (fun state => locationRecords state = .ok ())
      (fun state line next _ added coherent => step state line next added coherent) parsed none'

theorem records_coherent {blob : Option Bytes} {read : LocationRecords} (parsed : records blob = .ok read) :
    locationRecords read = .ok () := by
  cases blob with
  | none =>
      cases parsed
      rw [locationRecords, require_eq_ok, decide_eq_true_iff]
      intro record member
      cases member
  | some data => exact parseLocationLog_coherent parsed

theorem effective_of_coherent {read : LocationRecords} (coherent : locationRecords read = .ok ()) :
    ∃ locations, effectiveLocations read = .ok locations := by
  rw [effectiveLocations, coherent]
  exact ⟨_, rfl⟩

theorem isSuffix_of_dropEnding {ending chars rest : List Char} (dropped : dropEnding ending chars = some rest) :
    ending <:+ chars := by
  unfold dropEnding at dropped
  split at dropped
  · rename_i isSuffix
    exact List.isSuffixOf_iff_suffix.mp isSuffix
  · cases dropped

/-- The path of a location log is not that of annotations. -/
theorem withoutMet_log {path key : String} (isLog : recognized path = .ok (some (key, false))) :
    withoutMet path = path := by
  have named : logName path = some (key, false) := by
    unfold recognized at isLog
    split at isLog
    · cases isLog
    · rename_i info found
      simp only [bind_eq_ok, pure_eq_ok] at isLog
      obtain ⟨_, _, same⟩ := isLog
      rw [found, same]
  have ends : ".log".toList <:+ path.toList := by
    unfold logName at named
    dsimp only at named
    split at named
    · split at named
      · rename_i dropped
        exact (isSuffix_of_dropEnding dropped).trans (List.drop_suffix _ _)
      · split_ifs at named
        cases named
      · cases named
    · cases named
  have other : dropEnding ".met".toList path.toList = none := by
    unfold dropEnding
    rw [if_neg]
    intro isSuffix
    have both := List.suffix_of_suffix_length_le ends (List.isSuffixOf_iff_suffix.mp isSuffix) (by decide)
    exact absurd (both.eq_of_length (by decide)) (by decide)
  rw [withoutMet, other, Option.getD_none, String.ofList_toList]

/-- Every path of a key is where the key has been placed. -/
theorem placeKey_places {paths : List String} {start final : Dict String String}
    (placed : thread placeKey start paths = .ok final) :
    (∀ (key place : String), start[key]? = some place → final[key]? = some place) ∧
      ∀ path ∈ paths, ∀ key met, recognized path = .ok (some (key, met)) →
        final[key]? = some (withoutMet path) := by
  induction paths generalizing start with
  | nil =>
      cases placed
      exact ⟨fun _ _ found => found, fun _ member => nomatch member⟩
  | cons path paths ih =>
      obtain ⟨next, stepped, rest⟩ := bind_eq_ok.mp placed
      obtain ⟨later, each⟩ := ih rest
      simp only [placeKey, bind_eq_ok] at stepped
      obtain ⟨info, named, stepped⟩ := stepped
      cases info with
      | none =>
          cases stepped
          refine ⟨later, fun other member key met isNamed => ?_⟩
          rcases List.mem_cons.mp member with rfl | member
          · rw [named] at isNamed
            cases isNamed
          · exact each other member key met isNamed
      | some info =>
          obtain ⟨key, met⟩ := info
          simp only [bind_eq_ok, require_eq_ok, pure_eq_ok] at stepped
          obtain ⟨_, agrees, rfl⟩ := stepped
          constructor
          · intro other place found
            apply later
            rw [Dict.lookup_insert]
            split_ifs with same
            · subst same
              rw [found, Option.all_some, beq_iff_eq] at agrees
              rw [agrees]
            · exact found
          · intro other member wanted met' isNamed
            rcases List.mem_cons.mp member with rfl | member
            · rw [named] at isNamed
              cases isNamed
              exact later _ _ (Dict.lookup_insert_self _ _ _)
            · exact each other member wanted met' isNamed

/-- A key has one location log. -/
theorem checkPaths_unique {paths : List String} {result : Unit} (checked : checkPaths paths = .ok result)
    {path other key : String} (first : path ∈ paths) (second : other ∈ paths)
    (isLog : recognized path = .ok (some (key, false))) (isLog' : recognized other = .ok (some (key, false))) :
    path = other := by
  simp only [checkPaths, bind_eq_ok] at checked
  obtain ⟨final, placed, _⟩ := checked
  have each := (placeKey_places placed).2
  have here := each path first key false isLog
  rw [each other second key false isLog', withoutMet_log isLog, withoutMet_log isLog'] at here
  exact (Option.some.inj here).symm

/-- A location log and what has become of it: the records are those before and those of the source, and all
    that has come into effect has been admitted. -/
structure LogMerged (input : MapInput) (candidate : MetadataTree) (path key : String) : Prop where
  merged : ∃ before source after old new,
    records input.baseline[path]? = .ok before ∧ records input.incoming[path]? = .ok source ∧
      records candidate[path]? = .ok after ∧ after = before ∪ source ∧
      effectiveLocations before = .ok old ∧ effectiveLocations after = .ok new ∧
      (∀ record ∈ after \ before, Admitted before (allowedFor input.allowedKeyUuids key) input.mapUuid
        input.clockCeiling record) ∧
      ∀ identity, identity ∈ new ↔ identity ∈ old ∨ ∃ record ∈ after \ before, record.identity = identity

/-- A location log that cannot be read stays as it was. -/
structure LogUnread (input : MapInput) (candidate : MetadataTree) (path : String) : Prop where
  unread : ∀ before, records input.baseline[path]? ≠ .ok before
  source : input.incoming[path]? = none ∨ input.incoming[path]? = input.baseline[path]?
  same : candidate[path]? = input.baseline[path]?

def pathsOf (input : MapInput) (candidate : MetadataTree) : List String :=
  input.baseline.keys ++ (input.incoming.keys ++ candidate.keys)

/-- The law of accepted candidates. -/
structure Lawful (input : MapInput) (candidate : MetadataTree) (requiredKeyUuids : AllowedUuids) : Prop where
  logs : ∀ path key, recognized path = .ok (some (key, false)) →
    LogMerged input candidate path key ∨ LogUnread input candidate path
  /-- A key has one location log. -/
  unique : ∀ path ∈ pathsOf input candidate, ∀ other ∈ pathsOf input candidate, ∀ key,
    recognized path = .ok (some (key, false)) → recognized other = .ok (some (key, false)) → path = other
  required : ∀ (key : String) (identities : Finset String), requiredKeyUuids[key]? = some identities →
    ∀ identity ∈ identities, ∃ path after locations, recognized path = .ok (some (key, false)) ∧
      records candidate[path]? = .ok after ∧ effectiveLocations after = .ok locations ∧ identity ∈ locations
  elsewhere : ∀ path, path ∉ input.annotationWrites → (∀ key, recognized path ≠ .ok (some (key, false))) →
    candidate[path]? = input.baseline[path]?

section Accepted

variable {sha256 : Sha256} {input : MapInput} {candidate : MetadataTree} {path key : String}

theorem mem_keys {β : Type} {dict : Dict String β} : path ∈ dict.keys ↔ path ∈ dict :=
  Std.ExtTreeMap.mem_keys

theorem absent_of_not_mem (absent : path ∉ pathsOf input candidate) :
    input.baseline[path]? = none ∧ input.incoming[path]? = none ∧ candidate[path]? = none := by
  simp only [pathsOf, List.mem_append, not_or, mem_keys, Dict.not_mem_iff_lookup] at absent
  exact absent

/-- A path without blobs has nothing to be merged. -/
theorem LogMerged.of_absent (absent : path ∉ pathsOf input candidate) : LogMerged input candidate path key := by
  obtain ⟨baseline, incoming, merged⟩ := absent_of_not_mem absent
  have none' : records none = .ok ∅ := rfl
  obtain ⟨locations, effective⟩ := effective_of_coherent (records_coherent none')
  refine ⟨∅, ∅, ∅, locations, locations, ?_, ?_, ?_, rfl, effective, effective, ?_, ?_⟩
  · rw [baseline]
    rfl
  · rw [incoming]
    rfl
  · rw [merged]
    rfl
  · intro record member
    cases member
  · simp

/-- What the source may bring to a log of a key that is not selected is there already. -/
theorem admitBlob_unselected {seals : Dict String String} {additions next : Dict String LocationRecords}
    {blob : Bytes} (isLog : recognized path = .ok (some (key, false))) (free : path ∉ seals)
    (unselected : key ∉ input.allowedKeyUuids) (admitted : admitBlob input seals additions (path, blob) = .ok next) :
    input.baseline[path]? = some blob ∨ ∃ before source, records input.baseline[path]? = .ok before ∧
      records (some blob) = .ok source ∧ source ⊆ before := by
  unfold admitBlob at admitted
  dsimp only at admitted
  split at admitted
  · rename_i skipped
    exact .inl (skipped.resolve_left free)
  · simp only [isLog, ok_bind, bind_eq_ok] at admitted
    obtain ⟨before, read, source, readSource, delta, checked, _⟩ := admitted
    obtain ⟨rfl, _, each⟩ := checkLocationDelta_ok checked
    refine .inr ⟨before, source, read, readSource, ?_⟩
    intro record member
    by_contra fresh
    have allowed := (each record (Finset.mem_sdiff.mpr ⟨member, fresh⟩)).allowed
    rw [allowedFor, Dict.not_mem_iff_lookup.mp unselected] at allowed
    cases allowed

/-- A log of a key that is not selected stays, and the source has nothing new for it. -/
theorem unselected_log
    (source : input.incoming[path]? = none ∨ input.incoming[path]? = input.baseline[path]? ∨
      ∃ before source, records input.baseline[path]? = .ok before ∧ records input.incoming[path]? = .ok source ∧
        source ⊆ before)
    (same : candidate[path]? = input.baseline[path]?) :
    LogMerged input candidate path key ∨ LogUnread input candidate path := by
  cases read : records input.baseline[path]? with
  | error reason =>
      refine .inr ⟨fun before found => ?_, ?_, same⟩
      · rw [read] at found
        cases found
      · rcases source with none' | equal | ⟨before, _, found, _⟩
        · exact .inl none'
        · exact .inr equal
        · rw [read] at found
          cases found
  | ok before =>
      have brought : ∃ source, records input.incoming[path]? = .ok source ∧ source ⊆ before := by
        rcases source with none' | equal | ⟨other, source, found, readSource, subset⟩
        · exact ⟨∅, by rw [none']; rfl, Finset.empty_subset _⟩
        · exact ⟨before, by rw [equal, read], Finset.Subset.refl _⟩
        · rw [read] at found
          cases found
          exact ⟨source, readSource, subset⟩
      obtain ⟨brought, readSource, subset⟩ := brought
      obtain ⟨locations, effective⟩ := effective_of_coherent (records_coherent read)
      refine .inl ⟨before, brought, before, locations, locations, read, readSource, ?_, ?_, effective, effective,
        ?_, ?_⟩
      · rw [same, read]
      · rw [Finset.union_eq_left.mpr subset]
      · simp
      · simp

/-- What one path of an accepted candidate shows. -/
theorem validatePath_log {found next : Findings} (isLog : recognized path = .ok (some (key, false)))
    (unwritten : path ∉ input.annotationWrites) (checked : validatePath input candidate found path = .ok next) :
    key ∈ input.allowedKeyUuids ∧ LogMerged input candidate path key ∨
      key ∉ input.allowedKeyUuids ∧ candidate[path]? = input.baseline[path]? := by
  unfold validatePath at checked
  rw [if_neg unwritten] at checked
  simp only [isLog, ok_bind] at checked
  by_cases selected : key ∈ input.allowedKeyUuids
  · rw [if_pos selected] at checked
    left
    refine ⟨selected, ?_⟩
    split at checked
    · cases checked
    · rename_i blob here
      simp only [bind_eq_ok, require_eq_ok, decide_eq_true_iff] at checked
      obtain ⟨before, read, after, readAfter, _, delta, source, readSource, _, union, new, effective, _⟩ := checked
      obtain ⟨rfl, history, each⟩ := checkLocationDelta_ok delta
      obtain ⟨old, effectiveBefore⟩ := effective_of_coherent (records_coherent read)
      refine ⟨before, source, after, old, new, read, readSource, ?_, union, effectiveBefore, effective, each, ?_⟩
      · rw [here, readAfter]
      · exact effective_additions (history rfl) each effectiveBefore effective
  · rw [if_neg selected] at checked
    simp only [bind_eq_ok, require_eq_ok, beq_iff_eq] at checked
    obtain ⟨_, same, _⟩ := checked
    exact .inr ⟨selected, same⟩

theorem validatePath_elsewhere {found next : Findings} (unwritten : path ∉ input.annotationWrites)
    (other : ∀ key, recognized path ≠ .ok (some (key, false)))
    (checked : validatePath input candidate found path = .ok next) :
    candidate[path]? = input.baseline[path]? := by
  unfold validatePath at checked
  rw [if_neg unwritten] at checked
  simp only [bind_eq_ok] at checked
  obtain ⟨info, named, checked⟩ := checked
  split at checked
  · exact absurd named (other _)
  · simp only [bind_eq_ok, require_eq_ok, beq_iff_eq] at checked
    obtain ⟨_, same, _⟩ := checked
    exact same

/-- The locations that have been found are in effect in some log of the candidate. -/
theorem validatePath_found {found next : Findings}
    (checked : validatePath input candidate found path = .ok next)
    (sound : ∀ (key : String) (locations : List String), found.locations[key]? = some locations →
      ∃ path after, recognized path = .ok (some (key, false)) ∧ records candidate[path]? = .ok after ∧
        effectiveLocations after = .ok locations) :
    ∀ (key : String) (locations : List String), next.locations[key]? = some locations →
      ∃ path after, recognized path = .ok (some (key, false)) ∧ records candidate[path]? = .ok after ∧
        effectiveLocations after = .ok locations := by
  unfold validatePath at checked
  split at checked
  · split at checked
    · simp only [bind_eq_ok, pure_eq_ok] at checked
      obtain ⟨_, _, _, _, rfl⟩ := checked
      exact sound
    · cases checked
    · cases checked
  · simp only [bind_eq_ok] at checked
    obtain ⟨info, named, checked⟩ := checked
    split at checked
    · rename_i selected
      split at checked
      · split at checked
        · cases checked
        · rename_i blob here
          simp only [bind_eq_ok, pure_eq_ok] at checked
          obtain ⟨_, _, after, readAfter, _, _, _, _, _, _, new, effective, rfl⟩ := checked
          intro key locations listed
          rw [Dict.lookup_insert] at listed
          split_ifs at listed with same
          · cases listed
            subst same
            exact ⟨path, after, named, by rw [here, readAfter], effective⟩
          · exact sound key locations listed
      · simp only [bind_eq_ok, pure_eq_ok] at checked
        obtain ⟨_, _, rfl⟩ := checked
        exact sound
    · simp only [bind_eq_ok, pure_eq_ok] at checked
      obtain ⟨_, _, rfl⟩ := checked
      exact sound

/-- Annotation writes are of paths of annotations. -/
theorem checkAnnotations_paths {seals : Dict String String}
    (checked : checkAnnotations sha256 input = .ok seals) :
    (∀ path ∈ input.annotationWrites, ∃ key, recognized path = .ok (some (key, true))) ∧
      ∀ path ∈ seals, path ∈ input.annotationWrites := by
  simp only [checkAnnotations, bind_eq_ok] at checked
  obtain ⟨_, _, threaded⟩ := checked
  constructor
  · intro path member
    obtain ⟨write, found⟩ := Dict.exists_lookup_of_mem member
    obtain ⟨state, next, stepped⟩ := thread_steps threaded (path, write) (Dict.mem_toList.mpr found)
    simp only [checkWrite, AnnotationWrite.sealText, bind_eq_ok, require_eq_ok, beq_iff_eq] at stepped
    obtain ⟨_, rfl, _, ⟨info, named, _, isMet, _⟩, _⟩ := stepped
    cases info with
    | none => cases isMet
    | some info =>
        obtain ⟨key, met⟩ := info
        simp only [Option.any_some] at isMet
        subst isMet
        exact ⟨key, named⟩
  · have kept (state : Dict String String) (entry : String × AnnotationWrite) (next : Dict String String)
        (member : entry ∈ input.annotationWrites.toList) (stepped : checkWrite sha256 input state entry = .ok next)
        (holds : ∀ path ∈ state, path ∈ input.annotationWrites) :
        ∀ path ∈ next, path ∈ input.annotationWrites := by
      simp only [checkWrite, bind_eq_ok, pure_eq_ok] at stepped
      obtain ⟨_, _, _, _, _, _, _, _, _, _, _, _, _, _, _, _, _, _, _, _, rfl⟩ := stepped
      intro path listed
      rw [Dict.mem_iff_isSome, Dict.lookup_insert] at listed
      split_ifs at listed with same
      · subst same
        exact Dict.mem_of_lookup (Dict.mem_toList.mp member)
      · exact holds path (Dict.mem_iff_isSome.mpr listed)
    exact thread_invariant (fun state => ∀ path ∈ state, path ∈ input.annotationWrites) kept threaded
      fun path absent => absurd absent Std.ExtTreeMap.not_mem_empty

/-- Every accepted candidate is lawful. -/
theorem validateCandidate_lawful {requiredKeyUuids : AllowedUuids} {summary : ValidatedCandidate}
    (accepted : validateCandidate sha256 input candidate requiredKeyUuids = .ok summary) :
    Lawful input candidate requiredKeyUuids := by
  simp only [validateCandidate, bind_eq_ok] at accepted
  obtain ⟨_, _, _, _, _, _, _, placed, admitted, admits, _, _, _, _, found, validated, _, present, _⟩ := accepted
  simp only [admitInput, bind_eq_ok] at admits
  obtain ⟨_, _, _, _, _, _, _, _, seals, annotated, additions, blobs, _⟩ := admits
  obtain ⟨writes, sealed'⟩ := checkAnnotations_paths annotated
  have visited (path : String) (listed : path ∈ pathsOf input candidate) :
      ∃ found next, validatePath input candidate found path = .ok next :=
    thread_steps validated path (mem_sortedSet.mpr listed)
  have unwritten {path key : String} (isLog : recognized path = .ok (some (key, false))) :
      path ∉ input.annotationWrites := by
    intro written
    obtain ⟨other, isMet⟩ := writes path written
    rw [isLog] at isMet
    cases isMet
  constructor
  · intro path key isLog
    by_cases listed : path ∈ pathsOf input candidate
    · obtain ⟨found, next, checked⟩ := visited path listed
      rcases validatePath_log isLog (unwritten isLog) checked with ⟨_, merged⟩ | ⟨unselected, same⟩
      · exact .inl merged
      · refine unselected_log ?_ same
        cases brought : input.incoming[path]? with
        | none => exact .inl rfl
        | some blob =>
            obtain ⟨state, next, admitted⟩ := thread_steps blobs (path, blob) (Dict.mem_toList.mpr brought)
            have free : path ∉ seals := fun member => unwritten isLog (sealed' path member)
            rcases admitBlob_unselected isLog free unselected admitted with equal | subset
            · exact .inr (.inl equal.symm)
            · exact .inr (.inr subset)
    · exact .inl (LogMerged.of_absent listed)
  · intro path first other second key isLog isLog'
    exact checkPaths_unique placed first second isLog isLog'
  · intro key identities wanted identity member
    have sound : ∀ (key : String) (locations : List String), found.locations[key]? = some locations →
        ∃ path after, recognized path = .ok (some (key, false)) ∧ records candidate[path]? = .ok after ∧
          effectiveLocations after = .ok locations := by
      refine thread_invariant (fun found => ∀ (key : String) (locations : List String),
        found.locations[key]? = some locations → ∃ path after, recognized path = .ok (some (key, false)) ∧
          records candidate[path]? = .ok after ∧ effectiveLocations after = .ok locations) ?_ validated ?_
      · intro state path next _ checked holds
        exact validatePath_found checked holds
      · intro key locations listed
        rw [Dict.lookup_empty] at listed
        cases listed
    have held := of_thread_checks present (key, identities) (Dict.mem_toList.mpr wanted)
    rw [require_eq_ok, decide_eq_true_iff] at held
    have listed := held identity member
    cases here : found.locations[key]? with
    | none =>
        rw [here] at listed
        cases listed
    | some locations =>
        rw [here] at listed
        obtain ⟨path, after, isLog, read, effective⟩ := sound key locations here
        exact ⟨path, after, locations, isLog, read, effective, listed⟩
  · intro path free other
    by_cases listed : path ∈ pathsOf input candidate
    · obtain ⟨found, next, checked⟩ := visited path listed
      exact validatePath_elsewhere free other checked
    · obtain ⟨baseline, _, merged⟩ := absent_of_not_mem listed
      rw [baseline, merged]

end Accepted

def asciiBytes (text : String) : Bytes :=
  text.toList.map fun c => UInt8.ofNat c.toNat

def sampleDrive : String := "00000000-0000-4000-8000-000000000001"

def sampleKey : String := "SHA256-s7--aaaaaaaaaaaaaaaaaaaaaaaaaaaaaaaaaaaaaaaaaaaaaaaaaaaaaaaaaaaaaaaa"

def samplePath : String := "abc/def/" ++ sampleKey ++ ".log"

/-- The record of an earlier copy, on another drive. -/
def earlierLog : String := "1.5s 1 00000000-0000-4000-8000-000000000002\n"

def sampleLog : Bytes := asciiBytes (earlierLog ++ "2.5s 1 " ++ sampleDrive ++ "\n")

def sampleInput : MapInput where
  baseline := Dict.ofPairs [("trust.log", asciiBytes "trusted\n"), (samplePath, asciiBytes earlierLog)]
  incoming := Dict.ofPairs [(samplePath, sampleLog)]
  allowedKeyUuids := Dict.ofPairs [(sampleKey, {sampleDrive})]
  mapUuid := "00000000-0000-4000-8000-000000000003"
  clockCeiling := 5
  annotationWrites := ∅
  expectedAnnotationSeals := ∅

def sampleCandidate : MetadataTree :=
  Dict.ofPairs [("trust.log", asciiBytes "trusted\n"), (samplePath, sampleLog)]

theorem sample_lawful : Lawful sampleInput sampleCandidate sampleInput.allowedKeyUuids := by
  have isOk : (validateCandidate Library.sha256 sampleInput sampleCandidate sampleInput.allowedKeyUuids).isOk =
      true := by
    decide +kernel
  cases accepted : validateCandidate Library.sha256 sampleInput sampleCandidate sampleInput.allowedKeyUuids with
  | error reason =>
      rw [accepted] at isOk
      cases isOk
  | ok summary => exact validateCandidate_lawful accepted

end Modelark.Publication
