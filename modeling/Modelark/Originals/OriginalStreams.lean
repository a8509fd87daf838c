import Modelark.Library.ChunkReaders
import Modelark.Originals.Zstd

/-!
# Original streams

`original_stream` decodes the stored bytes of an artifact, and hands the original bytes on in reads of
bounded size. An empty read is its end, and the end comes only behind the whole of a container.
-/

namespace Modelark.Originals

open Library Reading StreamZnn

/-- `_CheckedInput`: no read asks for more than the bound on reads, nor for more than a mebibyte. -/
def checkedInput (limits : DecodeLimits) (stream : Stream UInt8) : Stream UInt8 :=
  { stream with grants := fun reads => min (stream.grants reads) (min limits.readBytes (2 ^ 20)) }

/-- The chunks of stored bytes that are the original ones. -/
def rawChunks (size : Nat) (stream : Stream UInt8) : List Bytes :=
  if _ended : (stream.read size).1 = [] then []
  else (stream.read size).1 :: rawChunks size (stream.read size).2
termination_by stream.items.length
decreasing_by
  have some := List.length_pos_of_ne_nil _ended
  have whole := congrArg List.length (stream.read_append size)
  rw [List.length_append] at whole
  omega

/-- How `_chunks` translates exceptions. -/
def translate : Failure → Thrown
  | .decodeLimitExceeded message => .decodeError .limit message
  | .unsupportedFrame message => .decodeError .unsupported message
  | .streamZnnError message | .outputCapExceeded message => .decodeError .invalid message
  | .workerRefusal kind detail => .decodeError kind detail
  | .resourceRefusal detail => .decodeError .resource detail
  | failure => .other failure

/-- The magic number of a zstd frame. -/
def zstdMagic : Bytes := [0x28, 0xB5, 0x2F, 0xFD]

section Decoding

variable (native : Bytes → Except Failure Bytes) (zstd : Zstd) (limits : DecodeLimits)
  (execution : Execution) (compressed : Bool) (expected : Nat)

/-- The StreamZNN branch of `_decoded_chunks`. -/
def streamedChunks (stream : Stream UInt8) : Chunks :=
  let run := iterate (frameSource native limits execution)
    ⟨limits.storedFrameBytes, some limits.decodedFrameBytes, some expected,
      min limits.readBytes (2 ^ 20)⟩ magic stream
  ⟨chunksOf run, run.ended.mapError translate⟩

/-- The end of the whole-ZipNN branch. -/
def wholeEnd (ended : Except Failure Unit) (rest : Stream UInt8) : Except Thrown Unit :=
  match ended with
  | .error failure => .error (translate failure)
  | .ok () =>
      if (rest.read 1).1 ≠ [] then refuse .invalid "trailing whole-ZipNN data" else .ok ()

/-- The whole-ZipNN branch of `_decoded_chunks`. -/
def wholeChunks (ahead : Bytes) (stream : Stream UInt8) : Chunks :=
  match frame native limits execution none (some expected) ahead stream with
  | (.error failure, _) => ⟨[], .error (translate failure)⟩
  | (.ok handed, rest) => ⟨handed.pieces, wholeEnd handed.ended rest⟩

/-- The branches for the compressed containers, by their first bytes. -/
def containerChunks (ahead : Bytes) (stream : Stream UInt8) : Chunks :=
  if ahead = magic then streamedChunks native limits execution expected stream
  else if ahead.take 2 = [0x5A, 0x4E] then wholeChunks native limits execution expected ahead stream
  else if ahead.take 4 = zstdMagic then
    zstdChunks zstd limits expected execution.qualified ahead stream
  else ⟨[], refuse .unsupported "unknown compressed container"⟩

/-- `_chunks` and `_decoded_chunks`. -/
def decodedChunks (stream : Stream UInt8) : Chunks :=
  if compressed then
    containerChunks native zstd limits execution expected (prefixBytes 5 [] stream).1
      (prefixBytes 5 [] stream).2
  else ⟨rawChunks (min limits.readBytes (2 ^ 20)) stream, .ok ()⟩

/-- The errors of `_OriginalStream`. -/
def readErrors : ReaderErrors Thrown where
  unbounded := .decodeError .limit "explicit bounded read size required"
  beyond := .decodeError .limit "decoded total exceeds sealed original size"
  short := .decodeError .invalid "decoded size differs from sealed original size"

/-- `original_stream`. -/
def originalStream (stream : Stream UInt8) : ChunkReader UInt8 Thrown :=
  let chunks := decodedChunks native zstd limits execution compressed expected
    (checkedInput limits stream)
  ⟨chunks.chunks, chunks.ended, [], 0, false⟩

/-- The reads of a caller, up to the first that is empty or fails. -/
def originalReads (stream : Stream UInt8) (sizes : List Nat) :
    List Bytes × ChunkReader.Outcome Thrown :=
  ChunkReader.reads readErrors limits.readBytes expected sizes
    (originalStream native zstd limits execution compressed expected stream)

end Decoding

/-- The original bytes of a whole stored string: those of a raw one, of a StreamZNN container, of one
    ZipNN frame, or of one zstd frame. -/
inductive Decodes (native : Bytes → Except Failure Bytes) (content : Bytes → Option Bytes) :
    Bool → Bytes → Bytes → Prop where
  | raw (stored : Bytes) : Decodes native content false stored stored
  | streamed {body decoded : Bytes} (frames : Frames native body decoded) :
      Decodes native content true (magic ++ body) decoded
  | whole {blob decoded : Bytes} (frame : ZipnnFrame native blob decoded) :
      Decodes native content true blob decoded
  | zstd {stored decoded : Bytes} (head : stored.take 4 = zstdMagic)
      (frame : ZstdFrame content stored decoded) : Decodes native content true stored decoded

section Decodes

variable {native : Bytes → Except Failure Bytes} {content : Bytes → Option Bytes}

theorem head_of_take {bytes : Bytes} {first : UInt8} {others : Bytes} {n : Nat}
    (begins : bytes.take n = first :: others) : bytes.head? = some first := by
  cases bytes with
  | nil => simp at begins
  | cons byte rest =>
      cases n with
      | zero => simp at begins
      | succ n =>
          rw [List.take_succ_cons] at begins
          rw [List.head?_cons, (List.cons.inj begins).1]

/-- A container with the same size is no proper beginning of another one. -/
theorem Decodes.eq_of_append {compressed : Bool} {one other d e x : Bytes}
    (decodes : Decodes native content compressed one d)
    (decodes' : Decodes native content compressed other e) (more : one ++ x = other)
    (length : d.length = e.length) : x = [] := by
  have heads : ∀ first, one.head? = some first → other.head? = some first := by
    intro first head
    rw [← more, List.head?_append, head]
    rfl
  cases decodes with
  | raw =>
      cases decodes'
      rw [← more, List.length_append] at length
      exact List.length_eq_zero_iff.mp (by omega)
  | streamed frames =>
      have head := heads 0x53 rfl
      cases decodes' with
      | streamed frames' =>
          rw [List.append_assoc] at more
          exact frames.eq_of_append frames' (List.append_cancel_left more) length
      | whole frame =>
          rw [head_of_take frame.head] at head
          cases head
      | zstd begins =>
          rw [head_of_take begins] at head
          cases head
  | whole frame =>
      have head := heads _ (head_of_take frame.head)
      cases decodes' with
      | streamed => cases head
      | whole frame' => exact frame.eq_of_append frame' more
      | zstd begins =>
          rw [head_of_take begins] at head
          cases head
  | zstd begins frame =>
      have head := heads _ (head_of_take begins)
      cases decodes' with
      | streamed => cases head
      | whole frame' =>
          rw [head_of_take frame'.head] at head
          cases head
      | zstd _ frame' =>
          by_contra some
          have shorter := frame'.first one ⟨x, more⟩ fun same => some (by simpa [same] using more)
          rw [frame.decodes] at shorter
          cases shorter

end Decodes

section Chunks

variable {native : Bytes → Except Failure Bytes} {zstd : Zstd} {limits : DecodeLimits}
  {execution : Execution} {compressed : Bool} {expected : Nat} {ahead : Bytes} {stream : Stream UInt8}

/-- What holds of the chunks of stored bytes. -/
structure Chunks.Sound (native : Bytes → Except Failure Bytes) (zstd : Zstd) (compressed : Bool)
    (stored : Bytes) (chunks : Chunks) : Prop where
  nonempty : ∀ chunk ∈ chunks.chunks, chunk ≠ []
  complete : chunks.ended = .ok () →
    Decodes native zstd.content compressed stored chunks.chunks.flatten
  refuses : ∀ thrown, chunks.ended = .error thrown → ∃ kind detail, thrown = .decodeError kind detail

theorem Refuses.translate_eq {failure : Failure} (refuses : Refuses failure) :
    ∃ kind detail, translate failure = .decodeError kind detail := by
  rcases refuses with own | ⟨kind, detail, rfl⟩ | ⟨detail, rfl⟩
  · cases failure <;> first | exact ⟨_, _, rfl⟩ | cases own
  · exact ⟨kind, detail, rfl⟩
  · exact ⟨.resource, detail, rfl⟩

theorem rawChunks_nonempty {size : Nat} : ∀ chunk ∈ rawChunks size stream, chunk ≠ [] := by
  fun_induction rawChunks size stream with
  | case1 => exact nofun
  | case2 stream some ih =>
      intro chunk member
      rcases List.mem_cons.mp member with rfl | later
      · exact some
      · exact ih chunk later

theorem rawChunks_flatten {size : Nat} (asks : 0 < size) :
    (rawChunks size stream).flatten = stream.items := by
  fun_induction rawChunks size stream with
  | case1 stream ended => rw [(stream.read_eq_nil asks).mp ended, List.flatten_nil]
  | case2 stream some ih => rw [List.flatten_cons, ih, stream.read_append]

theorem streamedChunks_sound :
    (streamedChunks native limits execution expected stream).Sound native zstd true
      (magic ++ stream.items) := by
  obtain ⟨stored, _, reads, _⟩ := limits.positive
  have spec : RunSpec native stream.items (iterate (frameSource native limits execution)
      ⟨limits.storedFrameBytes, some limits.decodedFrameBytes, some expected,
        min limits.readBytes (2 ^ 20)⟩ magic stream) :=
    iterate_spec rfl stored (Nat.lt_min.mpr ⟨reads, Nat.two_pow_pos 20⟩) stream
  unfold streamedChunks
  generalize iterate (frameSource native limits execution) _ magic stream = run at spec ⊢
  refine ⟨spec.nonempty, fun ends => ?_, fun thrown fails => ?_⟩
  · exact .streamed (spec.complete (mapError_eq_ok.mp ends))
  · cases ended : run.ended with
    | ok => simp [ended, Except.mapError] at fails
    | error failure =>
        simp only [ended, Except.mapError, Except.error.injEq] at fails
        exact fails ▸ (spec.refuses failure ended).translate_eq

theorem wholeChunks_sound (short : ahead.length ≤ 32) :
    (wholeChunks native limits execution expected ahead stream).Sound native zstd true
      (ahead ++ stream.items) := by
  unfold wholeChunks
  generalize read : frame native limits execution none (some expected) ahead stream = outcome
  obtain ⟨result, rest⟩ := outcome
  cases result with
  | error failure =>
      refine ⟨nofun, nofun, fun thrown fails => ?_⟩
      rw [← Except.error.inj fails]
      exact (frame_error rfl short rfl (congrArg Prod.fst read)).translate_eq
  | ok handed =>
      obtain ⟨blob, items, sound, _⟩ := frame_eq_ok (congrArg Prod.fst read)
      rw [read] at items
      dsimp only at items ⊢
      refine ⟨sound.nonempty, fun ends => ?_, fun thrown fails => ?_⟩
      · cases ended : handed.ended with
        | error failure => simp [wholeEnd, ended] at ends
        | ok =>
            simp only [wholeEnd, ended] at ends
            split at ends
            case isTrue => cases ends
            case isFalse none =>
              rw [(rest.read_eq_nil Nat.one_pos).mp (not_not.mp none), List.append_nil] at items
              exact items ▸ .whole (sound.complete ended)
      · cases ended : handed.ended with
        | error failure =>
            simp only [wholeEnd, ended, Except.error.injEq] at fails
            exact fails ▸ (sound.refuses failure ended).translate_eq
        | ok =>
            simp only [wholeEnd, ended] at fails
            split at fails
            case isTrue => exact ⟨_, _, refuse_eq_error fails⟩
            case isFalse => cases fails

theorem containerChunks_sound (short : ahead.length ≤ 5) :
    (containerChunks native zstd limits execution expected ahead stream).Sound native zstd true
      (ahead ++ stream.items) := by
  unfold containerChunks
  split
  case isTrue begins => exact begins ▸ streamedChunks_sound
  case isFalse =>
    split
    case isTrue => exact wholeChunks_sound (by omega)
    case isFalse =>
      split
      case isTrue begins =>
        refine ⟨zstdChunks_nonempty, fun ends => .zstd ?_ (zstdChunks_eq_ok ends),
          fun thrown fails => zstdChunks_error fails⟩
        have four := congrArg List.length begins
        rw [List.length_take] at four
        have enough : 4 ≤ ahead.length := by
          simp only [zstdMagic, List.length_cons, List.length_nil] at four
          omega
        rw [List.take_append_of_le_length enough, begins]
      case isFalse =>
        exact ⟨nofun, nofun, fun thrown fails => ⟨_, _, refuse_eq_error fails⟩⟩

theorem decodedChunks_sound :
    (decodedChunks native zstd limits execution compressed expected stream).Sound native zstd
      compressed stream.items := by
  unfold decodedChunks
  cases compressed with
  | true =>
      obtain ⟨taken, left⟩ := prefixBytes_items 5 stream
      have short : (prefixBytes 5 [] stream).1.length ≤ 5 := by
        rw [taken, List.length_take]
        omega
      have whole : (prefixBytes 5 [] stream).1 ++ (prefixBytes 5 [] stream).2.items = stream.items := by
        rw [taken, left, List.take_append_drop]
      rw [if_pos rfl, ← whole]
      exact containerChunks_sound short
  | false =>
      rw [if_neg Bool.false_ne_true]
      have asks : 0 < min limits.readBytes (2 ^ 20) :=
        Nat.lt_min.mpr ⟨limits.positive.2.2.1, Nat.two_pow_pos 20⟩
      refine ⟨rawChunks_nonempty, fun _ => ?_, by simp⟩
      rw [rawChunks_flatten asks]
      exact .raw stream.items

end Chunks

section Reads

variable (native : Bytes → Except Failure Bytes) (zstd : Zstd) (limits : DecodeLimits)
  (execution : Execution) (compressed : Bool) (expected : Nat)

/-- Some reads of bounded sizes meet the end of the stored bytes without an error. -/
def Accepts (stored : Bytes) (grants : Nat → Nat) : Prop :=
  ∃ sizes : List Nat, (∀ size ∈ sizes, size ≤ limits.readBytes) ∧
    (originalReads native zstd limits execution compressed expected ⟨stored, grants, 0⟩ sizes).2 = .ended

variable {native zstd limits execution compressed expected} {stream : Stream UInt8} {sizes : List Nat}

theorem originalStream_ready :
    (originalStream native zstd limits execution compressed expected stream).Ready :=
  ⟨rfl, decodedChunks_sound.nonempty⟩

/-- All that there is to read. -/
def originalWhole (native : Bytes → Except Failure Bytes) (zstd : Zstd) (limits : DecodeLimits)
    (execution : Execution) (compressed : Bool) (expected : Nat) (stream : Stream UInt8) :
    Bytes × Except Thrown Unit :=
  (originalStream native zstd limits execution compressed expected stream).rest readErrors expected

theorem originalReads_gives (bounded : ∀ size ∈ sizes, size ≤ limits.readBytes) :
    ChunkReader.Gives
      (originalWhole native zstd limits execution compressed expected stream).1
      (originalWhole native zstd limits execution compressed expected stream).2
      (originalReads native zstd limits execution compressed expected stream sizes).1.flatten
      (originalReads native zstd limits execution compressed expected stream sizes).2 :=
  ChunkReader.reads_gives originalStream_ready bounded

theorem originalWhole_eq :
    originalWhole native zstd limits execution compressed expected stream =
      ChunkReader.whole readErrors expected
        (decodedChunks native zstd limits execution compressed expected (checkedInput limits stream)).ended
        0
        (decodedChunks native zstd limits execution compressed expected
          (checkedInput limits stream)).chunks := rfl

theorem originalWhole_length :
    (originalWhole native zstd limits execution compressed expected stream).1.length ≤ expected := by
  rw [originalWhole_eq, ← Nat.zero_add (List.length _)]
  exact ChunkReader.whole_length (Nat.zero_le expected)

theorem originalWhole_eq_ok
    (ends : (originalWhole native zstd limits execution compressed expected stream).2 = .ok ()) :
    Decodes native zstd.content compressed stream.items
        (originalWhole native zstd limits execution compressed expected stream).1 ∧
      (originalWhole native zstd limits execution compressed expected stream).1.length = expected := by
  rw [originalWhole_eq] at ends ⊢
  obtain ⟨source, items, length⟩ := ChunkReader.whole_eq_ok ends
  rw [Nat.zero_add] at length
  rw [items]
  exact ⟨decodedChunks_sound.complete source, length⟩

theorem originalWhole_error {thrown : Thrown}
    (fails : (originalWhole native zstd limits execution compressed expected stream).2 =
      .error thrown) : ∃ kind detail, thrown = .decodeError kind detail := by
  rw [originalWhole_eq] at fails
  rcases ChunkReader.whole_eq_error fails with source | rfl | rfl
  · exact decodedChunks_sound.refuses thrown source
  · exact ⟨_, _, rfl⟩
  · exact ⟨_, _, rfl⟩

/-- Reads that meet the end have given the decoding of all that was stored. -/
theorem ended_decodes (bounded : ∀ size ∈ sizes, size ≤ limits.readBytes)
    (ended : (originalReads native zstd limits execution compressed expected stream sizes).2 = .ended) :
    Decodes native zstd.content compressed stream.items
        (originalReads native zstd limits execution compressed expected stream sizes).1.flatten ∧
      (originalReads native zstd limits execution compressed expected stream sizes).1.flatten.length =
        expected := by
  have gives : ChunkReader.Gives _ _ _ _ :=
    @originalReads_gives native zstd limits execution compressed expected stream sizes bounded
  rw [ended] at gives
  cases gives with
  | ended all well =>
      rw [all]
      exact originalWhole_eq_ok well

theorem further_reads (bounded : ∀ size ∈ sizes, size ≤ limits.readBytes)
    (further : (originalReads native zstd limits execution compressed expected stream sizes).2 =
      .further) :
    (sizes.filter (0 < ·)).length ≤
      (originalReads native zstd limits execution compressed expected stream sizes).1.flatten.length :=
  ChunkReader.further_length originalStream_ready bounded further

/-- What is accepted is no proper beginning of anything that is accepted for the same size, whatever
    executes the codec and however the source cuts its reads. -/
theorem not_accepts_append {stored more : Bytes} {grants grants' : Nat → Nat} {execution' : Execution}
    (accepts : Accepts native zstd limits execution compressed expected stored grants)
    (accepts' : Accepts native zstd limits execution' compressed expected (stored ++ more) grants') :
    more = [] := by
  obtain ⟨sizes, bounded, ended⟩ := accepts
  obtain ⟨sizes', bounded', ended'⟩ := accepts'
  obtain ⟨decodes, length⟩ := ended_decodes bounded ended
  obtain ⟨decodes', length'⟩ := ended_decodes bounded' ended'
  exact decodes.eq_of_append decodes' rfl (length.trans length'.symm)

end Reads

/-- The reads of `original_stream`, up to the first that is empty although something was asked for: they
    never give more than the sealed size, they end, with the decoding of the whole stored string and the
    sealed size or with a `DecodeError`, and they give the same for all sizes that are read. No extension
    and no proper beginning of an accepted container is accepted for the same size. -/
theorem original_stream_reads (native : Bytes → Except Failure Bytes) (zstd : Zstd)
    (limits : DecodeLimits) (execution : Execution) (compressed : Bool) (expected : Nat) (stored : Bytes)
    (grants : Nat → Nat) :
    let reads := originalReads native zstd limits execution compressed expected ⟨stored, grants, 0⟩
    let bounded := fun sizes : List Nat => ∀ size ∈ sizes, size ≤ limits.readBytes
    (∀ sizes, bounded sizes → (reads sizes).1.flatten.length ≤ expected ∧
      match (reads sizes).2 with
      | .further => (sizes.filter (0 < ·)).length ≤ expected
      | .ended => Decodes native zstd.content compressed stored (reads sizes).1.flatten ∧
          (reads sizes).1.flatten.length = expected
      | .failed thrown => ∃ kind detail, thrown = .decodeError kind detail) ∧
    (∀ one other, bounded one → bounded other → (reads other).2 ≠ .further →
      (reads one).1.flatten <+: (reads other).1.flatten ∧
      ((reads one).2 ≠ .further →
        (reads one).1.flatten = (reads other).1.flatten ∧ (reads one).2 = (reads other).2)) ∧
    (Accepts native zstd limits execution compressed expected stored grants →
      ∀ execution' grants' other, other ≠ stored → stored <+: other ∨ other <+: stored →
        ¬Accepts native zstd limits execution' compressed expected other grants') := by
  intro reads bounded
  have gives : ∀ sizes, bounded sizes → ChunkReader.Gives
      (originalWhole native zstd limits execution compressed expected ⟨stored, grants, 0⟩).1
      (originalWhole native zstd limits execution compressed expected ⟨stored, grants, 0⟩).2
      (reads sizes).1.flatten (reads sizes).2 :=
    fun sizes within => originalReads_gives within
  have most : (originalWhole native zstd limits execution compressed expected
      ⟨stored, grants, 0⟩).1.length ≤ expected := originalWhole_length
  refine ⟨fun sizes within => ⟨?_, ?_⟩, fun one other within within' done => ⟨?_, fun also => ?_⟩, ?_⟩
  · exact Nat.le_trans (gives sizes within).begins.length_le most
  · cases outcome : (reads sizes).2 with
    | further =>
        have given := Nat.le_trans (gives sizes within).begins.length_le most
        exact Nat.le_trans (further_reads within outcome) given
    | ended => exact ended_decodes within outcome
    | failed thrown =>
        have last := ((gives sizes within).all (by simp [outcome])).2
        rw [outcome] at last
        exact originalWhole_error (ChunkReader.eq_error_of_last last.symm)
  · rw [((gives other within').all done).1]
    exact (gives one within).begins
  · obtain ⟨all, last⟩ := (gives one within).all also
    obtain ⟨all', last'⟩ := (gives other within').all done
    exact ⟨all.trans all'.symm, last.trans last'.symm⟩
  · intro accepts execution' grants' other apart nested accepts'
    rcases nested with ⟨more, rfl⟩ | ⟨more, rfl⟩
    · exact apart (by rw [not_accepts_append accepts accepts', List.append_nil])
    · exact apart (by rw [not_accepts_append accepts' accepts, List.append_nil])

/-- The frame that the library of the sample knows, with two bytes in one raw block. -/
def hello : Bytes := [0x28, 0xB5, 0x2F, 0xFD, 0x20, 0x02, 0x11, 0x00, 0x00, 0x68, 0x69]

/-- What the object was fed, and what of it is behind its frame. -/
abbrev HelloState := Bytes × Option Bytes

def helloObject : Decompressor where
  State := HelloState
  start := ([], none)
  decompress state piece :=
    if hello <+: state.1 ++ piece then
      some ([0x68, 0x69], (state.1 ++ piece, some ((state.1 ++ piece).drop hello.length)))
    else some ([], (state.1 ++ piece, none))
  eof state := state.2.isSome
  unused state := state.2.getD []
  fresh := rfl

/-- What the object has been fed and has given. -/
def HelloFed (fed out : Bytes) (state : HelloState) : Prop :=
  state.1 = fed ∧ match state.2 with
    | none => out = []
    | some unused => out = [0x68, 0x69] ∧ fed = hello ++ unused

theorem helloObject_fed {fed out : Bytes} {state : helloObject.State}
    (begun : helloObject.Fed fed out state) : HelloFed fed out state := by
  induction begun with
  | start => exact ⟨rfl, rfl⟩
  | @feed fed out piece data state next before further gives ih =>
      obtain ⟨buffer, unused⟩ : HelloState := state
      obtain ⟨rfl, given⟩ := ih
      obtain rfl : unused = none := by simpa [helloObject] using further
      obtain rfl : out = [] := given
      dsimp only [helloObject] at gives
      split at gives
      case isTrue begins =>
        obtain ⟨rfl, rfl⟩ := Prod.mk.inj (Option.some.inj gives)
        obtain ⟨behind, whole⟩ := begins
        refine ⟨rfl, rfl, ?_⟩
        rw [← whole, List.drop_left]
      case isFalse =>
        obtain ⟨rfl, rfl⟩ := Prod.mk.inj (Option.some.inj gives)
        exact ⟨rfl, rfl⟩

def helloContent (frame : Bytes) : Option Bytes :=
  if frame = hello then some [0x68, 0x69] else none

def helloZstd : Zstd where
  installed := true
  version := ("0.25.0", "cext")
  frameParameters header := if 6 ≤ header.length then some (2, some 2) else none
  decompressor _ := helloObject
  content := helloContent
  stops := by
    intro _ fed out state begun ended
    obtain ⟨buffer, unused⟩ : HelloState := state
    obtain ⟨_, given⟩ := helloObject_fed begun
    obtain ⟨unused, rfl⟩ := Option.isSome_iff_exists.mp ended
    obtain ⟨rfl, rfl⟩ := given
    exact ⟨hello, rfl, if_pos rfl, fun short _ apart => if_neg apart⟩

def helloLimits : DecodeLimits := ⟨2 ^ 20, 2 ^ 20, 2 ^ 10, 2 ^ 20, by decide⟩

/-- A codec that refuses every frame. -/
def noCodec (_blob : Bytes) : Except Failure Bytes :=
  .error .codec

def helloStream (items : Bytes) (reads : Nat) : Stream UInt8 :=
  ⟨items, fun _ => 3, reads⟩

theorem hello_ahead : prefixBytes 5 [] (helloStream hello 0) =
    ([0x28, 0xB5, 0x2F, 0xFD, 0x20], helloStream [0x02, 0x11, 0x00, 0x00, 0x68, 0x69] 2) := by
  simp [prefixBytes, Stream.read, Stream.size, Stream.next, hello, helloStream]

theorem hello_parameters :
    zstdParameters helloZstd [0x28, 0xB5, 0x2F, 0xFD, 0x20]
        (helloStream [0x02, 0x11, 0x00, 0x00, 0x68, 0x69] 2) =
      (.ok ((2, some 2), [0x28, 0xB5, 0x2F, 0xFD, 0x20, 0x02]),
        helloStream [0x11, 0x00, 0x00, 0x68, 0x69] 3) := by
  have one : exactBytes 1 (helloStream [0x02, 0x11, 0x00, 0x00, 0x68, 0x69] 2) =
      (.ok [0x02], helloStream [0x11, 0x00, 0x00, 0x68, 0x69] 3) := by
    simp [exactBytes, prefixBytes, Stream.read, Stream.size, Stream.next, helloStream]
  rw [zstdParameters_next rfl (by decide) one]
  exact zstdParameters_some rfl

theorem hello_header :
    zstdHeader helloZstd helloLimits 2 false [0x28, 0xB5, 0x2F, 0xFD, 0x20]
        (helloStream [0x02, 0x11, 0x00, 0x00, 0x68, 0x69] 2) =
      (.ok [0x28, 0xB5, 0x2F, 0xFD, 0x20, 0x02], helloStream [0x11, 0x00, 0x00, 0x68, 0x69] 3) := by
  have installed : helloZstd.installed = true := rfl
  simp [zstdHeader, bind, check, given, hello_parameters, installed, helloLimits]
  rfl

theorem hello_loop :
    zstdLoop helloObject (2 ^ 20) ([], none) [0x28, 0xB5, 0x2F, 0xFD, 0x20, 0x02]
        (helloStream [0x11, 0x00, 0x00, 0x68, 0x69] 3) = ⟨[[0x68, 0x69]], .ok ()⟩ := by
  simp [zstdLoop, helloObject, hello, Stream.read, Stream.size, Stream.next, helloStream, yielded]

theorem hello_chunks :
    decodedChunks noCodec helloZstd helloLimits .unguarded true 2
      (checkedInput helloLimits (helloStream hello 0)) = ⟨[[0x68, 0x69]], .ok ()⟩ := by
  have same : checkedInput helloLimits (helloStream hello 0) = helloStream hello 0 := rfl
  rw [same, decodedChunks, if_pos rfl, hello_ahead]
  change zstdChunks helloZstd helloLimits 2 false _ _ = _
  rw [zstdChunks, hello_header]
  exact hello_loop

theorem hello_accepted :
    Accepts noCodec helloZstd helloLimits .unguarded true 2 hello fun _ => 3 := by
  refine ⟨[1, 2, 1], by simp [helloLimits], ?_⟩
  have opened : originalStream noCodec helloZstd helloLimits .unguarded true 2 ⟨hello, fun _ => 3, 0⟩ =
      ⟨[[0x68, 0x69]], .ok (), [], 0, false⟩ :=
    congrArg (fun chunks : Chunks => (⟨chunks.chunks, chunks.ended, [], 0, false⟩ :
      ChunkReader UInt8 Thrown)) hello_chunks
  rw [originalReads, opened]
  rfl

/-- The frame is accepted, and nothing else of which it is a beginning. -/
theorem original_stream_reads_hello :
    ∀ more ≠ [], ¬Accepts noCodec helloZstd helloLimits .unguarded true 2 (hello ++ more) fun _ => 1 := by
  intro more some
  refine (original_stream_reads noCodec helloZstd helloLimits .unguarded true 2 hello
    fun _ => 3).2.2 hello_accepted .unguarded (fun _ => 1) (hello ++ more) ?_
    (.inl (List.prefix_append hello more))
  simpa using some

end Modelark.Originals
