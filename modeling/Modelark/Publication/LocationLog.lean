import Modelark.Conversion.Archive
import Modelark.Library.LastWins

/-!
# Location logs

The timestamped location records of an annex key: their grammar, the locations in effect, and the additions
that a publication may make to them.
-/

namespace Modelark.Publication

open Library Revision Conversion

/-- `_UUID`. -/
def isUuid (text : String) : Bool :=
  let parts := text.toList.splitOn '-'
  parts.map List.length == [8, 4, 4, 4, 12] && parts.all (·.all Modelark.Archive.isHex)

/-- `LocationRecord`; clocks are decimals. -/
structure LocationRecord where
  identity : String
  clock : ℚ
  present : Bool
  isUuid : isUuid identity = true
  nonneg : 0 ≤ clock

namespace LocationRecord

/-- What records are ordered by. -/
def rank (record : LocationRecord) : String ×ₗ ℚ ×ₗ Bool :=
  toLex (record.identity, toLex (record.clock, record.present))

theorem rank_injective : Function.Injective rank := by
  intro record other same
  cases record
  cases other
  simp only [rank, EmbeddingLike.apply_eq_iff_eq, Prod.mk.injEq] at same
  obtain ⟨rfl, rfl, rfl⟩ := same
  rfl

instance : LinearOrder LocationRecord :=
  LinearOrder.lift' rank rank_injective

/-- A later record of an identity is at most as early. -/
theorem clock_le {record other : LocationRecord} (le : record ≤ other) (same : record.identity = other.identity) :
    record.clock ≤ other.clock := by
  have below : rank record ≤ rank other := le
  rw [rank, rank, Prod.Lex.toLex_le_toLex] at below
  rcases below with less | ⟨_, less⟩
  · exact absurd same less.ne
  · rw [Prod.Lex.toLex_le_toLex] at less
    rcases less with clock | ⟨clock, _⟩
    · exact clock.le
    · exact clock.le

/-- Records as the last of which wins. -/
def stamps : Stamps LocationRecord String ℚ where
  id := identity
  clock := clock
  present := present

end LocationRecord

open LocationRecord (stamps)

abbrev LocationRecords := Finset LocationRecord

def digitsValue (digits : List Char) : Nat :=
  digits.foldl (fun value c => 10 * value + (c.toNat - 48)) 0

def isDecimal (digits : List Char) : Bool :=
  !digits.isEmpty && digits.all fun c => '0' ≤ c && c ≤ '9'

/-- `[0-9]+(?:\.[0-9]+)?`. -/
def parseClock (chars : List Char) : Option ℚ :=
  match chars.splitOn '.' with
  | [whole] => if isDecimal whole then some (digitsValue whole) else none
  | [whole, fraction] =>
      if isDecimal whole && isDecimal fraction then
        some (digitsValue whole + digitsValue fraction / 10 ^ fraction.length)
      else none
  | _ => none

/-- `_LOCATION`. -/
def parseLocation (line : List Char) : Option LocationRecord :=
  match line.splitOn ' ' with
  | [clock, present, identity] =>
      match parseClock clock.dropLast with
      | none => none
      | some value =>
          if valid : isUuid (String.ofList identity) = true ∧ 0 ≤ value then
            if clock.getLast? = some 's' ∧ (present = ['0'] ∨ present = ['1']) then
              some ⟨String.ofList identity, value, present == ['1'], valid.1, valid.2⟩
            else none
          else none
  | _ => none

/-- `data.decode("ascii")`. -/
def decodeAscii (data : Bytes) : Option (List Char) :=
  if data.all (· < 128) then some (data.map fun byte => Char.ofNat byte.toNat) else none

/-- A record that is read agrees with those of its identity and clock. -/
def addRecord (records : LocationRecords) (line : List Char) : Except Failure LocationRecords :=
  match parseLocation line with
  | none => .error (refused "PUBLICATION_LOCATION_LOG_INVALID")
  | some record => do
      require (decide (∀ other ∈ records, other.identity = record.identity → other.clock = record.clock →
        other.present = record.present)) (refused "PUBLICATION_LOCATION_CLOCK_CONFLICT")
      return insert record records

/-- `parse_location_log`. -/
def parseLocationLog (data : Bytes) : Except Failure LocationRecords := do
  require (data.getLast? == some 10) (refused "PUBLICATION_LOCATION_LOG_INVALID")
  match decodeAscii data with
  | none => .error (refused "PUBLICATION_LOCATION_LOG_INVALID")
  | some chars => thread addRecord ∅ (chars.splitOn '\n').dropLast

/-- `_location_records`. -/
def locationRecords (records : LocationRecords) : Except Failure Unit :=
  require (decide (∀ record ∈ records, ∀ other ∈ records, record.identity = other.identity →
    record.clock = other.clock → record.present = other.present))
    (refused "PUBLICATION_LOCATION_CLOCK_CONFLICT")

/-- `effective_locations`, in order. -/
def effectiveLocations (records : LocationRecords) : Except Failure (List String) := do
  locationRecords records
  return (stamps.latest (sortedMembers records)).toList.filterMap fun entry =>
    if entry.2.present then some entry.1 else none

/-- `check_location_delta`. -/
def checkLocationDelta (before after : LocationRecords) (allowedUuids : Finset String) (mapUuid : String)
    (observedClockCeiling : ℚ) (preserveHistory : Bool) : Except Failure LocationRecords := do
  locationRecords before
  locationRecords after
  require (decide (0 ≤ observedClockCeiling)) (refused "PUBLICATION_CLOCK_BOUND_INVALID")
  require (!preserveHistory || decide (before ⊆ after)) (refused "PUBLICATION_LOCATION_HISTORY_CHANGED")
  let additions := after \ before
  thread (fun () record => do
    require (record.identity != mapUuid) (refused "PUBLICATION_MAP_CONTENT_CLAIM")
    require (decide (record.identity ∈ allowedUuids)) (refused "PUBLICATION_UUID_UNPROVEN")
    require record.present (refused "PUBLICATION_DROP_CLAIM")
    require (decide (record.clock ≤ observedClockCeiling)) (refused "PUBLICATION_FUTURE_CLOCK")
    require (decide (∀ old ∈ before, old.identity = record.identity → old.clock < record.clock))
      (refused "PUBLICATION_LOCATION_CLOCK_CONFLICT")) () (sortedMembers additions)
  return additions

theorem locationRecords_ok {records : LocationRecords} {result : Unit}
    (passed : locationRecords records = .ok result) : stamps.Coherent records := by
  rw [locationRecords, require_eq_ok, decide_eq_true_iff] at passed
  exact passed

theorem mem_effectiveLocations {records : LocationRecords} {locations : List String}
    (read : effectiveLocations records = .ok locations) (identity : String) :
    identity ∈ locations ↔ stamps.Alive records identity := by
  simp only [effectiveLocations, bind_eq_ok, pure_eq_ok] at read
  obtain ⟨_, coherent, rfl⟩ := read
  obtain ⟨members, sorted⟩ := sortedMembers_spec records
  have ordered : (sortedMembers records).Pairwise fun record other =>
      stamps.id record = stamps.id other → stamps.clock record ≤ stamps.clock other := by
    apply sorted.imp
    intro record other le same
    exact LocationRecord.clock_le le same
  rw [Stamps.alive_iff_latest (locationRecords_ok coherent) members ordered]
  simp only [List.mem_filterMap, Prod.exists, Dict.mem_toList]
  constructor
  · rintro ⟨key, record, found, kept⟩
    split at kept
    · rename_i present
      cases kept
      exact ⟨record, found, present⟩
    · cases kept
  · rintro ⟨record, found, present⟩
    have listed : record.present = true := present
    exact ⟨identity, record, found, by rw [if_pos listed]⟩

/-- An addition that a publication may make. -/
structure Admitted (before : LocationRecords) (allowedUuids : Finset String) (mapUuid : String) (ceiling : ℚ)
    (record : LocationRecord) : Prop where
  notMap : record.identity ≠ mapUuid
  allowed : record.identity ∈ allowedUuids
  present : record.present = true
  clock : record.clock ≤ ceiling
  later : ∀ old ∈ before, old.identity = record.identity → old.clock < record.clock

theorem checkLocationDelta_ok {before after additions : LocationRecords} {allowedUuids : Finset String}
    {mapUuid : String} {ceiling : ℚ} {preserveHistory : Bool}
    (passed : checkLocationDelta before after allowedUuids mapUuid ceiling preserveHistory = .ok additions) :
    additions = after \ before ∧ (preserveHistory = true → before ⊆ after) ∧
      ∀ record ∈ additions, Admitted before allowedUuids mapUuid ceiling record := by
  simp only [checkLocationDelta, bind_eq_ok, pure_eq_ok, require_eq_ok] at passed
  obtain ⟨_, _, _, _, _, _, _, history, _, each, rfl⟩ := passed
  refine ⟨rfl, ?_, ?_⟩
  · rintro rfl
    simpa using history
  · intro record member
    have checked := of_thread_checks each record (((sortedMembers_spec _).1 record).mpr member)
    simp only [bind_eq_ok, require_eq_ok, bne_iff_ne, decide_eq_true_iff] at checked
    obtain ⟨_, notMap, _, allowed, _, present, _, clock, later⟩ := checked
    exact ⟨notMap, allowed, present, clock, later⟩

/-- Admitted additions leave in effect what was in effect, and put themselves into it. -/
theorem effective_additions {before after : LocationRecords} {allowedUuids : Finset String} {mapUuid : String}
    {ceiling : ℚ} {old new : List String} (history : before ⊆ after)
    (admitted : ∀ record ∈ after \ before, Admitted before allowedUuids mapUuid ceiling record)
    (readBefore : effectiveLocations before = .ok old) (readAfter : effectiveLocations after = .ok new)
    (identity : String) :
    identity ∈ new ↔ identity ∈ old ∨ ∃ record ∈ after \ before, record.identity = identity := by
  have advances : stamps.Advances before (after \ before) :=
    fun record member => ⟨(admitted record member).present, (admitted record member).later⟩
  rw [mem_effectiveLocations readBefore, mem_effectiveLocations readAfter]
  have union := Stamps.alive_union (i := identity) advances
  rwa [Finset.union_sdiff_of_subset history] at union

end Modelark.Publication
