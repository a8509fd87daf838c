import Modelark.Verification.Unindexed

/-!
# Shards of a repository

The structural check of a repository with an index of its shards: every tensor is looked up in the headers of all
shards, and the index must name the one shard it is in.
-/

namespace Modelark.Verification

open Library

/-- What is served for the index. -/
inductive IndexResponse where
  | unauthorized
  /-- Another status than one of success. -/
  | failed
  | content (bytes : Bytes)

/-- A safetensors file of the catalog. -/
structure Shard where
  rfilename : Points
  size : Option Int64
  deriving Repr, DecidableEq

/-- A field of an index that names the shard of a tensor. -/
def readPlace : Points × Decoded → Option (Points × Points)
  | (tensor, .str shard) => if tensor.isEmpty || shard.isEmpty then none else some (tensor, shard)
  | _ => none

/-- `weight_map`, or nothing for one that is not a non-empty map of texts. -/
def readWeightMap : Decoded → Option (List (Points × Points))
  | .obj payload =>
      match Decoded.get payload "weight_map" with
      | some (.obj fields) => if fields.isEmpty then none else fields.mapM readPlace
      | _ => none
  | _ => none

/-- The index; an invalid one maps nothing. -/
def readIndex (limits : LoadLimits) : IndexResponse → Except Raised (List (Points × Points))
  | .unauthorized => .error .unauthorized
  | .failed => .ok []
  | .content bytes =>
      match jsonLoads limits bytes with
      | .error .tooDeep => .error .tooDeep
      | .error _ => .ok []
      | .ok payload => .ok ((readWeightMap payload).getD [])

/-- `seen_locations` and `duplicate_tensors`. -/
structure Seen where
  locations : List (Points × Points)
  duplicates : List Points
  deriving Repr, DecidableEq

def Seen.note (seen : Seen) (location : Points × Points) : Seen :=
  if seen.locations.any fun other => other.1 == location.1 then
    { seen with duplicates := location.1 :: seen.duplicates }
  else { seen with locations := seen.locations ++ [location] }

/-- The tensors of one header, each with its shard. -/
def locationsOf (checked : Points × Verdict) : List (Points × Points) :=
  checked.2.tensors.map fun tensor => (tensor, checked.1)

/-- What the catalog says of a repository: the names of its files, and its weights. -/
structure Repository where
  names : List Points
  safetensors : List Shard
  gguf : List Shard

def indexName : Points := Points.ofString "model.safetensors.index.json"

section Structural

variable (limits : LoadLimits) (decimal : Nat → Option Nat) (serve : Points → Nat → Nat → Bytes)

/-- The check of one shard. -/
def checkShard (shard : Shard) : Except Raised (Points × Verdict) := do
  let verdict ← checkSafetensors limits (serve shard.rfilename) shard.size
  return (shard.rfilename, verdict)

/-- The index places exactly the tensors that were seen, each once and where it was seen. -/
def mappingComplete (expected : List (Points × Points)) (seen : Seen) : Bool :=
  let wrong := expected.any fun place =>
    (seen.locations.find? fun other => other.1 == place.1).any fun other => other.2 != place.2
  let sameTensors := (expected.all fun place => seen.locations.any fun other => other.1 == place.1) &&
    seen.locations.all fun other => expected.any fun place => place.1 == other.1
  !expected.isEmpty && sameTensors && !wrong && seen.duplicates.isEmpty

/-- `_structural`: whether the weights of a repository are sound and its shards complete, or nothing where that
    cannot be told. -/
def structural (index : IndexResponse) (repository : Repository) : Except Raised (Option Bool × Option Bool) :=
  let filenames := repository.safetensors.map Shard.rfilename
  if !repository.safetensors.isEmpty then do
    let expected ← if repository.names.contains indexName then some <$> readIndex limits index else pure none
    let checked ← repository.safetensors.mapM (checkShard limits serve)
    let seen := (checked.flatMap locationsOf).foldl Seen.note ⟨[], []⟩
    let structuralOk := checked.all (fun entry => entry.2.ok) && seen.duplicates.isEmpty
    return (some structuralOk, match expected with
      | some expected =>
          let missing := expected.any fun place => !filenames.contains place.2
          some (!missing && mappingComplete expected seen)
      | none => splitSequenceComplete decimal filenames)
  -- Without safetensors files the index is not read.
  else if !repository.gguf.isEmpty then
    .ok (some (repository.gguf.all fun file => (checkGguf (serve file.rfilename) file.size).1),
      splitSequenceComplete decimal (repository.gguf.map Shard.rfilename))
  else .ok (none, none)

/-- `tier_a_passed`. -/
def tierA (index : IndexResponse) (repository : Repository) : Except Raised Bool := do
  let (structuralOk, shardsComplete) ← structural limits decimal serve index repository
  return structuralOk == some true && shardsComplete == some true

/-- The tensors that the header of a shard names. -/
def headerTensors (shard : Shard) : List Points :=
  match checkSafetensors limits (serve shard.rfilename) shard.size with
  | .ok verdict => verdict.tensors
  | .error _ => []

/-- Every tensor of an index is in the one shard it names, and no other tensor is in a shard. -/
structure Indexed (expected : List (Points × Points)) (shards : List Shard) : Prop where
  placed : ∀ place ∈ expected, ∃ before shard after, shards = before ++ shard :: after ∧ shard.rfilename = place.2 ∧
    place.1 ∈ headerTensors limits serve shard ∧
    ∀ other ∈ before ++ after, place.1 ∉ headerTensors limits serve other
  only : ∀ shard ∈ shards, ∀ tensor ∈ headerTensors limits serve shard, tensor ∈ expected.map Prod.fst

end Structural

section Notes

variable {locations : List (Points × Points)}

theorem Seen.note_of_duplicates {seen : Seen} {location : Points × Points} (none' : (seen.note location).duplicates = []) :
    seen.duplicates = [] ∧ (∀ other ∈ seen.locations, other.1 ≠ location.1) ∧
      (seen.note location).locations = seen.locations ++ [location] := by
  unfold Seen.note at none' ⊢
  split at none'
  · cases none'
  · rename_i fresh
    rw [if_neg fresh]
    refine ⟨none', fun other member same => fresh ?_, rfl⟩
    exact List.any_eq_true.mpr ⟨other, member, by simpa using same⟩

/-- Without duplicates, all locations have been noted and no tensor has two of them. -/
theorem note_all (none' : (locations.foldl Seen.note ⟨[], []⟩).duplicates = []) :
    (locations.foldl Seen.note ⟨[], []⟩).locations = locations ∧ (locations.map Prod.fst).Nodup := by
  induction locations using List.reverseRecOn with
  | nil => simp
  | append_singleton locations location ih =>
      rw [List.foldl_append, List.foldl_cons, List.foldl_nil] at none' ⊢
      obtain ⟨before, apart, noted⟩ := Seen.note_of_duplicates none'
      obtain ⟨same, distinct⟩ := ih before
      rw [same] at apart noted
      refine ⟨noted, ?_⟩
      rw [List.map_append, List.nodup_append]
      refine ⟨distinct, List.nodup_singleton _, fun tensor member other single equal => ?_⟩
      obtain ⟨known, listed, rfl⟩ := List.mem_map.mp member
      exact apart known listed (equal.trans (List.mem_singleton.mp single))

end Notes

section Passed

variable {limits : LoadLimits} {decimal : Nat → Option Nat} {serve : Points → Nat → Nat → Bytes}
  {index : IndexResponse} {shards : List Shard}

theorem checkShards_eq_ok {checked : List (Points × Verdict)} (read : shards.mapM (checkShard limits serve) = .ok checked) :
    checked.flatMap locationsOf =
        shards.flatMap (fun shard => (headerTensors limits serve shard).map fun tensor => (tensor, shard.rfilename)) ∧
      (checked.all (fun entry => entry.2.ok) = true → ∀ shard ∈ shards, ∃ verdict,
        checkSafetensors limits (serve shard.rfilename) shard.size = .ok verdict ∧ verdict.ok = true) := by
  induction shards generalizing checked with
  | nil =>
      cases read
      exact ⟨rfl, fun _ _ member => absurd member List.not_mem_nil⟩
  | cons shard shards ih =>
      rw [List.mapM_cons] at read
      obtain ⟨first, one, read⟩ := bind_eq_ok.mp read
      obtain ⟨rest, others, same⟩ := bind_eq_ok.mp read
      cases same
      obtain ⟨locations, sound⟩ := ih others
      obtain ⟨verdict, checks, rfl⟩ : ∃ verdict, checkSafetensors limits (serve shard.rfilename) shard.size = .ok verdict ∧
          (shard.rfilename, verdict) = first := by simpa [checkShard] using one
      constructor
      · rw [List.flatMap_cons, List.flatMap_cons, locations]
        simp [locationsOf, headerTensors, checks]
      · intro all
        rw [List.all_cons, Bool.and_eq_true] at all
        exact List.forall_mem_cons.mpr ⟨⟨verdict, checks, all.1⟩, sound all.2⟩

/-- A repository of shards with an index that passes has every tensor of its index in the one shard it names, and its
    headers are accepted. -/
theorem indexed_of_tierA {repository : Repository} (sharded : repository.safetensors ≠ [])
    (listed : indexName ∈ repository.names) (passed : tierA limits decimal serve index repository = .ok true) :
    ∃ expected, readIndex limits index = .ok expected ∧ expected ≠ [] ∧
      Indexed limits serve expected repository.safetensors ∧
      ∀ shard ∈ repository.safetensors, ∃ verdict,
        checkSafetensors limits (serve shard.rfilename) shard.size = .ok verdict ∧ verdict.ok = true := by
  obtain ⟨⟨structuralOk, complete⟩, checked, both⟩ := bind_eq_ok.mp passed
  have both := Except.ok.inj both
  have sharded' : repository.safetensors.isEmpty = false := by simpa using sharded
  simp only [structural, sharded', Bool.not_false, if_true, List.contains_iff_mem.mpr listed, bind_eq_ok, map_eq_ok,
    pure_eq_ok, Prod.mk.injEq] at checked
  obtain ⟨_, ⟨expected, read, rfl⟩, verdicts, checks, rfl, rfl⟩ := checked
  simp only [mappingComplete, Bool.and_eq_true, Bool.not_eq_true', List.isEmpty_eq_false_iff, beq_iff_eq,
    Option.some.injEq] at both
  obtain ⟨⟨sound, unduplicated⟩, _, ⟨⟨some', same, covered⟩, unmisplaced⟩, _⟩ := both
  obtain ⟨locations, headers⟩ := checkShards_eq_ok checks
  obtain ⟨noted, distinct⟩ := note_all (List.isEmpty_iff.mp unduplicated)
  rw [noted, locations] at same covered unmisplaced
  rw [locations] at distinct
  rw [List.map_flatMap] at distinct
  simp only [List.map_map, Function.comp_def, List.map_id'] at distinct
  refine ⟨expected, read, some', ⟨fun place member => ?_, fun shard member tensor named => ?_⟩, headers sound⟩
  · -- The first shard in which the tensor was seen is the one that the index names.
    have first := List.find?_isSome.mpr (List.any_eq_true.mp (List.all_eq_true.mp same place member))
    obtain ⟨seen, found⟩ := Option.isSome_iff_exists.mp first
    have right : seen.2 = place.2 := by
      have kept := List.any_eq_false.mp unmisplaced place member
      simpa [found] using kept
    have tensor : seen.1 = place.1 := by simpa using List.find?_some found
    obtain ⟨shard, listed, among⟩ := List.mem_flatMap.mp (List.mem_of_find?_eq_some found)
    obtain ⟨tensor', named, rfl⟩ := List.mem_map.mp among
    obtain ⟨before, after, split⟩ := List.append_of_mem listed
    rw [← tensor]
    refine ⟨before, shard, after, split, right, named, fun other elsewhere also => ?_⟩
    rw [split, List.flatMap_append, List.flatMap_cons] at distinct
    obtain ⟨_, rest, apart⟩ := List.nodup_append.mp distinct
    obtain ⟨_, _, apart'⟩ := List.nodup_append.mp rest
    rcases List.mem_append.mp elsewhere with early | late
    · exact apart _ (List.mem_flatMap.mpr ⟨other, early, also⟩) _ (List.mem_append_left _ named) rfl
    · exact apart' _ named _ (List.mem_flatMap.mpr ⟨other, late, also⟩) rfl
  · have listed : (tensor, shard.rfilename) ∈ repository.safetensors.flatMap fun shard =>
        (headerTensors limits serve shard).map fun tensor => (tensor, shard.rfilename) :=
      List.mem_flatMap.mpr ⟨shard, member, List.mem_map_of_mem named⟩
    obtain ⟨place, known, equal⟩ := List.any_eq_true.mp (List.all_eq_true.mp covered _ listed)
    exact List.mem_map.mpr ⟨place, known, by simpa using equal⟩

end Passed

/-- A header always has a verdict, but for the limits of the interpreter and for types that are lists or objects;
    exactly those that describe a partition are accepted; of a repository of shards with an index, only those pass
    whose index names for each tensor the one shard it is in. -/
theorem verdicts_exact (limits : LoadLimits) (decimal : Nat → Option Nat) :
    (∀ serve fileSize, (∃ verdict, checkSafetensors limits serve fileSize = .ok verdict) ∨
      Unjudged limits serve fileSize) ∧
    (∀ serve fileSize names, (∃ detail, checkSafetensors limits serve fileSize = .ok ⟨true, names, detail⟩) ↔
      Accepted limits serve fileSize names) ∧
    ∀ serve index (repository : Repository), repository.safetensors ≠ [] → indexName ∈ repository.names →
      tierA limits decimal serve index repository = .ok true →
      ∃ expected, readIndex limits index = .ok expected ∧ expected ≠ [] ∧
        Indexed limits serve expected repository.safetensors := by
  refine ⟨fun serve fileSize => ?_, fun serve fileSize names => check_iff_accepted, ?_⟩
  · cases checked : checkSafetensors limits serve fileSize with
    | ok verdict => exact .inl ⟨verdict, rfl⟩
    | error raised => exact .inr (unjudged_of_raised checked)
  · intro serve index repository sharded listed passed
    obtain ⟨expected, read, some', indexed, _⟩ := indexed_of_tierA sharded listed passed
    exact ⟨expected, read, some', indexed⟩

end Modelark.Verification
