import Modelark.StreamZnn.Container

/-!
# Round trips

What the compressor writes, the reader restores, however the stream is cut into reads. A container that
is cut inside a frame is refused; one that is cut between two frames is a container of its own.
-/

namespace Modelark.StreamZnn

open Library

section Reads

variable {readSize wanted : Nat} {stream : Stream UInt8}

theorem readLoop_enough {buf : Bytes} (asks : 0 < readSize)
    (enough : wanted - buf.length ≤ stream.items.length) :
    ∃ result, readLoop readSize wanted buf stream = .ok result := by
  fun_induction readLoop readSize wanted buf stream with
  | case1 buf stream more next piece =>
      have pos : 0 < min readSize (wanted - buf.length) := by omega
      have empty := (stream.read_eq_nil pos).mp (by rw [piece])
      simp only [empty, List.length_nil] at enough
      omega
  | case2 buf stream more first others next piece long =>
      have bound := stream.read_length_le (min readSize (wanted - buf.length))
      rw [piece] at bound
      exact absurd bound (Nat.not_le.mpr long)
  | case3 buf stream more first others next piece short ih =>
      have whole := congrArg List.length
        (stream.read_append (min readSize (wanted - buf.length)))
      rw [piece] at whole
      simp only [List.length_append] at whole ih
      exact ih (by omega)
  | case4 buf stream full => exact ⟨_, rfl⟩

theorem readLoop_short {buf : Bytes}
    (short : stream.items.length < wanted - buf.length) :
    ∃ message, readLoop readSize wanted buf stream = .error (.streamZnnError message) := by
  fun_induction readLoop readSize wanted buf stream with
  | case1 | case2 => exact ⟨_, rfl⟩
  | case3 buf stream more first others next piece bound ih =>
      have whole := congrArg List.length
        (stream.read_append (min readSize (wanted - buf.length)))
      rw [piece] at whole
      simp only [List.length_append] at whole ih
      exact ih (by omega)
  | case4 buf stream full => omega

/-- An exact read of what the stream has. -/
theorem readExact_append {bytes tail : Bytes} (asks : 0 < readSize)
    (holds : stream.items = bytes ++ tail) :
    ∃ rest, readExact readSize bytes.length stream = .ok (bytes, rest) ∧ rest.items = tail := by
  have enough : bytes.length - ([] : Bytes).length ≤ stream.items.length := by simp [holds]
  obtain ⟨⟨read, rest⟩, exact⟩ := readLoop_enough asks enough
  obtain ⟨items, length⟩ := readExact_items exact
  rw [holds] at items
  obtain ⟨rfl, rfl⟩ := List.append_inj items length.symm
  exact ⟨rest, exact, rfl⟩

/-- An exact read of more than the stream has. -/
theorem readExact_short (readSize : Nat) (short : stream.items.length < wanted) :
    ∃ message, readExact readSize wanted stream = .error (.streamZnnError message) :=
  readLoop_short (by simpa using short)

end Reads

section Written

variable (codec : Codec)

/-- A slice in its frame. -/
def frame (slice : Bytes) : Bytes :=
  packed (codec.compress slice).length ++ codec.compress slice

/-- The container of some slices. -/
def container (slices : List Bytes) : Bytes :=
  magic ++ (slices.map (frame codec)).flatten

theorem container_take (slices : List Bytes) (k : Nat) :
    (container codec slices).take (container codec (slices.take k)).length =
      container codec (slices.take k) := by
  have whole : container codec slices = container codec (slices.take k) ++
      ((slices.drop k).map (frame codec)).flatten := by
    simp only [container]
    rw [List.append_assoc, ← List.flatten_append, ← List.map_append, List.take_append_drop]
  rw [whole, List.take_left]

/-- The slice is not empty, and the length of its blob fits the field. -/
structure Framed (slice : Bytes) : Prop where
  some : slice ≠ []
  fits : (codec.compress slice).length < 2 ^ 32

variable {codec} {chunkBytes : Nat} {maxOutputBytes : Option Nat}

theorem slices_nonempty {bytes slice : Bytes} (member : slice ∈ slices chunkBytes bytes) : slice ≠ [] := by
  fun_induction slices chunkBytes bytes with
  | case1 bytes more ih =>
      rcases List.mem_cons.mp member with rfl | later
      · simpa using more
      · exact ih later
  | case2 => cases member

theorem slices_flatten (bytes : Bytes) (cuts : 0 < chunkBytes) : (slices chunkBytes bytes).flatten = bytes := by
  fun_induction slices chunkBytes bytes with
  | case1 bytes more ih => rw [List.flatten_cons, ih, List.take_append_drop]
  | case2 bytes last =>
      have empty : bytes = [] := by
        by_contra some
        exact last ⟨Nat.pos_iff_ne_zero.mp cuts, some⟩
      rw [empty, List.flatten_nil]

theorem writeFrame_eq_ok {written : Nat} {slice out : Bytes}
    (wrote : writeFrame codec maxOutputBytes written slice = .ok out) :
    (codec.compress slice).length < 2 ^ 32 ∧ out = frame codec slice := by
  simp only [writeFrame, bind_eq_ok] at wrote
  obtain ⟨_, _, _, _, _, _, head, packs, made⟩ := wrote
  cases made
  unfold pack at packs
  split_ifs at packs with small
  cases packs
  exact ⟨small, rfl⟩

theorem thread_frames {out result : Bytes} {chunks : List Bytes}
    (wrote : thread (fun out chunk => do
      let frame ← writeFrame codec maxOutputBytes out.length chunk
      return out ++ frame) out chunks = .ok result) :
    (∀ slice ∈ chunks, (codec.compress slice).length < 2 ^ 32) ∧
      result = out ++ (chunks.map (frame codec)).flatten := by
  induction chunks generalizing out with
  | nil =>
      cases wrote
      simp
  | cons slice chunks ih =>
      simp only [thread_cons, bind_eq_ok] at wrote
      obtain ⟨next, ⟨written, frames, made⟩, rest⟩ := wrote
      cases made
      obtain ⟨fits, rfl⟩ := writeFrame_eq_ok frames
      obtain ⟨others, rfl⟩ := ih rest
      exact ⟨List.forall_mem_cons.mpr ⟨fits, others⟩, by simp⟩

/-- The compressor writes the container of the slices of its input. -/
theorem compress_eq_ok {bytes written : Bytes}
    (wrote : compress codec chunkBytes maxOutputBytes bytes = .ok written) :
    0 < chunkBytes ∧ (∀ slice ∈ slices chunkBytes bytes, Framed codec slice) ∧
      written = container codec (slices chunkBytes bytes) := by
  simp only [compress, bind_eq_ok, require_eq_ok, decide_eq_true_eq] at wrote
  obtain ⟨_, cuts, _, _, frames⟩ := wrote
  obtain ⟨fits, made⟩ := thread_frames frames
  exact ⟨cuts, fun slice member => ⟨slices_nonempty member, fits slice member⟩, made⟩

end Written

section Restored

variable {codec : Codec} {readSize : Nat} {cap : Option Nat} {stream : Stream UInt8}

/-- The bounds of a reader with an output cap. -/
def capped (readSize : Nat) (cap : Option Nat) : Limits :=
  { maxTotalBytes := cap, readSize := readSize }

theorem read_one : (stream.read 1).1 = stream.items.take 1 ∧
    (stream.read 1).2.items = stream.items.drop 1 := by
  simp [Stream.read, Stream.next, Stream.size_one]

theorem nextLength_end (limits : Limits) (ended : stream.items = []) :
    ∃ rest, nextLength limits stream = .ok (none, rest) ∧ rest.items = [] := by
  refine ⟨(stream.read 1).2, ?_, by simp [read_one, ended]⟩
  rw [nextLength, if_pos (by simp [read_one, ended])]
  rfl

theorem nextLength_packed (cap : Option Nat) {n : Nat} {tail : Bytes} (asks : 0 < readSize) (pos : 0 < n)
    (fits : n < 2 ^ 32) (holds : stream.items = packed n ++ tail) :
    ∃ rest, nextLength (capped readSize cap) stream = .ok (some n, rest) ∧ rest.items = tail := by
  obtain ⟨first, others, split⟩ : ∃ first others, packed n = [first] ++ others ∧ others.length = 3 :=
    ⟨_, _, rfl, rfl⟩
  have head : (stream.read 1).1 = [first] := by
    simp [read_one, holds, split.1]
  have behind : (stream.read 1).2.items = others ++ tail := by
    simp [read_one, holds, split.1]
  obtain ⟨rest, exact, left⟩ := readExact_append asks behind
  rw [split.2] at exact
  have unpacked : unpack (first :: others) = n := by
    rw [← List.singleton_append, ← split.1, unpack_packed fits]
  have below : n ≤ maxBlob := by
    unfold maxBlob
    omega
  refine ⟨rest, ?_, left⟩
  simp only [nextLength, head, capped, exact, require]
  simp [unpacked, below, Nat.pos_iff_ne_zero.mp pos]

theorem nextLength_cut (limits : Limits) (some : stream.items ≠ []) (short : stream.items.length < 4) :
    ∃ message, nextLength limits stream = .error (.streamZnnError message) := by
  have pos := List.length_pos_of_ne_nil some
  have head : (stream.read 1).1.length = 1 := by
    rw [read_one.1, List.length_take]
    omega
  have behind : (stream.read 1).2.items.length < 3 := by
    rw [read_one.2, List.length_drop]
    omega
  obtain ⟨message, exact⟩ := readExact_short limits.readSize behind
  refine ⟨message, ?_⟩
  rw [nextLength, if_neg (List.ne_nil_of_length_pos (by omega))]
  simp [require, head, exact]

theorem readFrame_compressed (cap : Option Nat) (total : Nat) {slice tail : Bytes} (asks : 0 < readSize)
    (framed : Framed codec slice) (holds : stream.items = codec.compress slice ++ tail) :
    ∃ rest, rest.items = tail ∧
      readFrame codec (capped readSize cap) total (codec.compress slice).length stream =
        if cap.all (total + slice.length ≤ ·) then .ok (slice, rest)
        else .error (.decodeLimitExceeded "decoded total exceeds bound") := by
  obtain ⟨rest, exact, left⟩ := readExact_append asks holds
  refine ⟨rest, left, ?_⟩
  simp only [readFrame, capped, exact, ok_bind, codec.inverse slice framed.some, require]
  by_cases fits : cap.all (total + slice.length ≤ ·) = true
  · simp [fits]
  · simp only [Bool.not_eq_true] at fits
    simp [fits]

/-- A whole frame gives its slice, unless the total exceeds the cap. -/
theorem frames_cons (cap : Option Nat) (total : Nat) {slice tail : Bytes} (asks : 0 < readSize)
    (framed : Framed codec slice) (holds : stream.items = frame codec slice ++ tail) :
    ∃ rest, rest.items = tail ∧ frames codec (capped readSize cap) total stream =
      if cap.all (total + slice.length ≤ ·) then
        let later := frames codec (capped readSize cap) (total + slice.length) rest
        ⟨slice :: later.chunks, later.ended⟩
      else ⟨[], .error (.decodeLimitExceeded "decoded total exceeds bound")⟩ := by
  rw [frame, List.append_assoc] at holds
  have pos := List.length_pos_of_ne_nil (codec.nonempty slice framed.some)
  obtain ⟨body, next, behind⟩ := nextLength_packed cap asks pos framed.fits holds
  obtain ⟨rest, left, read⟩ := readFrame_compressed cap total asks framed behind
  refine ⟨rest, left, ?_⟩
  by_cases fits : cap.all (total + slice.length ≤ ·) = true
  · rw [if_pos fits] at read ⊢
    rw [frames, next]
    dsimp only
    rw [read]
  · rw [if_neg fits] at read ⊢
    rw [frames, next]
    dsimp only
    rw [read]

theorem frames_end {limits : Limits} {total : Nat} (ended : stream.items = []) :
    ∃ rest, frames codec limits total stream = ⟨[], .ok rest⟩ ∧ rest.items = [] := by
  obtain ⟨rest, next, left⟩ := nextLength_end limits ended
  refine ⟨rest, ?_, left⟩
  rw [frames, next]

/-- A frame that was cut off is refused. -/
theorem frames_cut (cap : Option Nat) (total : Nat) {slice : Bytes} {cut : Nat} (asks : 0 < readSize)
    (framed : Framed codec slice) (some : 0 < cut) (short : cut < (frame codec slice).length)
    (holds : stream.items = (frame codec slice).take cut) :
    ∃ message, frames codec (capped readSize cap) total stream = ⟨[], .error (.streamZnnError message)⟩ := by
  have length : stream.items.length = cut := by
    rw [holds, List.length_take]
    omega
  by_cases inside : cut < 4
  · obtain ⟨message, next⟩ := nextLength_cut (capped readSize cap)
      (List.ne_nil_of_length_pos (length ▸ some)) (length ▸ inside)
    refine ⟨message, ?_⟩
    rw [frames, next]
  · have pos := List.length_pos_of_ne_nil (codec.nonempty slice framed.some)
    have split : stream.items = packed (codec.compress slice).length ++
        (codec.compress slice).take (cut - 4) := by
      rw [holds, frame, List.take_append, List.take_of_length_le (by simp; omega), packed_length]
    obtain ⟨body, next, behind⟩ := nextLength_packed cap asks pos framed.fits split
    have cutOff : body.items.length < (codec.compress slice).length := by
      rw [frame, List.length_append, packed_length] at short
      rw [behind, List.length_take]
      omega
    obtain ⟨message, exact⟩ := readExact_short readSize cutOff
    have read : readFrame codec (capped readSize cap) total (codec.compress slice).length body =
        .error (.streamZnnError message) := by
      simp only [readFrame, capped, exact, error_bind]
    refine ⟨message, ?_⟩
    rw [frames, next]
    dsimp only
    rw [read]

/-- The frames of a container that fits the cap. -/
theorem frames_fit (total : Nat) {slices : List Bytes} (asks : 0 < readSize)
    (framed : ∀ slice ∈ slices, Framed codec slice)
    (fits : ∀ limit ∈ cap, total + slices.flatten.length ≤ limit)
    (holds : stream.items = (slices.map (frame codec)).flatten) :
    ∃ rest, frames codec (capped readSize cap) total stream = ⟨slices, .ok rest⟩ ∧ rest.items = [] := by
  induction slices generalizing total stream with
  | nil => exact frames_end (by simpa using holds)
  | cons slice slices ih =>
      simp only [List.flatten_cons, List.length_append] at fits
      obtain ⟨tail, left, step⟩ := frames_cons cap total asks
        (framed slice List.mem_cons_self) (by simpa using holds)
      have within : cap.all (total + slice.length ≤ ·) = true := by
        rw [Option.all_eq_true]
        intro limit given
        have bound := fits limit given
        simp only [decide_eq_true_eq]
        omega
      have bound : ∀ limit ∈ cap, total + slice.length + slices.flatten.length ≤ limit := by
        intro limit given
        have bound := fits limit given
        omega
      obtain ⟨rest, later, ended⟩ :=
        ih _ (fun slice member => framed slice (List.mem_cons_of_mem _ member)) bound left
      refine ⟨rest, ?_, ended⟩
      rw [step, if_pos within, later]

/-- The frames of a container that does not fit. -/
theorem frames_exceed {limit total : Nat} {slices : List Bytes} (asks : 0 < readSize)
    (framed : ∀ slice ∈ slices, Framed codec slice) (starts : total ≤ limit)
    (exceeds : limit < total + slices.flatten.length)
    (holds : stream.items = (slices.map (frame codec)).flatten) :
    (frames codec (capped readSize (some limit)) total stream).ended =
      .error (.decodeLimitExceeded "decoded total exceeds bound") := by
  induction slices generalizing total stream with
  | nil =>
      simp only [List.flatten_nil, List.length_nil] at exceeds
      omega
  | cons slice slices ih =>
      simp only [List.flatten_cons, List.length_append] at exceeds
      obtain ⟨tail, left, step⟩ := frames_cons (some limit) total asks
        (framed slice List.mem_cons_self) (by simpa using holds)
      rw [step]
      by_cases within : total + slice.length ≤ limit
      · rw [if_pos (by simpa using within)]
        exact ih (fun slice member => framed slice (List.mem_cons_of_mem _ member)) within
          (by omega) left
      · rw [if_neg (by simpa using within)]

/-- The frames of a container that was cut inside one of them. -/
theorem frames_truncated {total cut : Nat} {slices : List Bytes} (asks : 0 < readSize)
    (framed : ∀ slice ∈ slices, Framed codec slice)
    (short : cut < ((slices.map (frame codec)).flatten).length)
    (inside : ∀ k < slices.length, cut ≠ (((slices.take k).map (frame codec)).flatten).length)
    (holds : stream.items = ((slices.map (frame codec)).flatten).take cut) :
    ∃ message, (frames codec (capped readSize none) total stream).ended =
      .error (.streamZnnError message) := by
  induction slices generalizing total cut stream with
  | nil => simp at short
  | cons slice slices ih =>
      have first := framed slice List.mem_cons_self
      have others : ∀ slice ∈ slices, Framed codec slice :=
        fun slice member => framed slice (List.mem_cons_of_mem _ member)
      have started : 0 < cut := Nat.pos_of_ne_zero (by simpa using inside 0 (by simp))
      simp only [List.map_cons, List.flatten_cons, List.length_append] at short holds
      by_cases here : cut < (frame codec slice).length
      · rw [List.take_append_of_le_length (by omega)] at holds
        obtain ⟨message, step⟩ := frames_cut none total asks first started here holds
        exact ⟨message, by rw [step]⟩
      · rw [List.take_append, List.take_of_length_le (by omega)] at holds
        obtain ⟨tail, left, step⟩ := frames_cons none total asks first holds
        have inner : ∀ k < slices.length, cut - (frame codec slice).length ≠
            (((slices.take k).map (frame codec)).flatten).length := by
          intro k below
          have apart := inside (k + 1) (by simpa using below)
          simp only [List.take_succ_cons, List.map_cons, List.flatten_cons, List.length_append] at apart
          omega
        have within : cut - (frame codec slice).length < ((slices.map (frame codec)).flatten).length := by
          omega
        rw [step, if_pos (by simp)]
        exact ih others within inner left

/-- A reader that has taken the head goes on with the frames. -/
theorem iterDecompress_magic (codec : Codec) (cap : Option Nat) (stream : Stream UInt8) {body : Bytes}
    (asks : 0 < readSize)
    (holds : stream.items = magic ++ body) :
    ∃ rest, rest.items = body ∧ iterDecompress codec (capped readSize cap) stream =
      frames codec (capped readSize cap) 0 rest := by
  obtain ⟨rest, exact, left⟩ := readExact_append asks holds
  refine ⟨rest, left, ?_⟩
  simp [iterDecompress, readMagic, capped, exact, require, asks, maxBlob]

theorem iterDecompress_short (codec : Codec) (cap : Option Nat) (stream : Stream UInt8) (asks : 0 < readSize)
    (short : stream.items.length < magic.length) : ∃ message,
      iterDecompress codec (capped readSize cap) stream = ⟨[], .error (.streamZnnError message)⟩ := by
  obtain ⟨message, exact⟩ := readExact_short readSize short
  refine ⟨message, ?_⟩
  simp [iterDecompress, readMagic, capped, exact, require, asks, maxBlob]

end Restored

section Containers

variable {codec : Codec} {readSize chunkBytes : Nat} {maxOutputBytes : Option Nat} {bytes written : Bytes}
  (wrote : compress codec chunkBytes maxOutputBytes bytes = .ok written) (asks : 0 < readSize)
include wrote asks

/-- A container that fits the cap is restored and consumed to its end. -/
theorem restored_of_fits (cap : Option Nat) (fits : ∀ limit ∈ cap, bytes.length ≤ limit)
    (grants : Nat → Nat) :
    ∃ rest, iterDecompress codec (capped readSize cap) ⟨written, grants, 0⟩ =
        ⟨slices chunkBytes bytes, .ok rest⟩ ∧
      (slices chunkBytes bytes).flatten = bytes ∧ rest.items = [] := by
  obtain ⟨cuts, framed, rfl⟩ := compress_eq_ok wrote
  have whole := slices_flatten bytes cuts
  obtain ⟨body, left, opened⟩ := iterDecompress_magic codec cap
    ⟨container codec (slices chunkBytes bytes), grants, 0⟩ asks rfl
  obtain ⟨rest, restored, ended⟩ := frames_fit 0 asks framed
    (by simpa [whole] using fits) left
  exact ⟨rest, opened.trans restored, whole, ended⟩

/-- A container that exceeds the cap is refused. -/
theorem refused_of_exceeds {limit : Nat} (exceeds : limit < bytes.length) (grants : Nat → Nat) :
    (iterDecompress codec (capped readSize (some limit)) ⟨written, grants, 0⟩).ended =
      .error (.decodeLimitExceeded "decoded total exceeds bound") := by
  obtain ⟨cuts, framed, rfl⟩ := compress_eq_ok wrote
  obtain ⟨body, left, opened⟩ := iterDecompress_magic codec (some limit)
    ⟨container codec (slices chunkBytes bytes), grants, 0⟩ asks rfl
  rw [opened]
  exact frames_exceed asks framed (Nat.zero_le _) (by simpa [slices_flatten bytes cuts] using exceeds) left

/-- A container is restored, in any reads, exactly when it fits the cap; otherwise no file changes. -/
theorem round_trip (cap : Option Nat) (grants : Nat → Nat) {files : Files} {tmp src : String}
    (dst : String) (free : files tmp = none) (stored : files src = some written) :
    let decoded := iterDecompress codec (capped readSize cap) ⟨written, grants, 0⟩
    ((∃ rest, decoded.ended = .ok rest) ↔ cap.all (bytes.length ≤ ·) = true) ∧
      (∀ rest, decoded.ended = .ok rest → decoded.chunks.flatten = bytes ∧ rest.items = []) ∧
      decompressFile codec (capped readSize cap) grants files tmp src dst =
        if cap.all (bytes.length ≤ ·) = true then (.ok (), Function.update files dst (some bytes))
        else (.error (.decodeLimitExceeded "decoded total exceeds bound"), files) := by
  intro decoded
  have removed : Function.update files tmp none = files := by
    rw [← free, Function.update_eq_self]
  by_cases fits : cap.all (bytes.length ≤ ·) = true
  · have within : ∀ limit ∈ cap, bytes.length ≤ limit := by simpa [Option.all_eq_true] using fits
    obtain ⟨rest, restored, whole, ended⟩ := restored_of_fits wrote asks cap within grants
    have made : decoded = ⟨slices chunkBytes bytes, .ok rest⟩ := restored
    refine ⟨⟨fun _ => fits, fun _ => ⟨rest, by rw [made]⟩⟩, ?_, ?_⟩
    · rw [made]
      rintro _ ⟨⟩
      exact ⟨whole, ended⟩
    · simp [decompressFile, stored, restored, Decoded.result, publish, removed, whole, fits, Except.map]
  · obtain ⟨limit, rfl, exceeds⟩ : ∃ limit, cap = some limit ∧ limit < bytes.length := by
      cases cap with
      | none => exact absurd rfl fits
      | some limit => exact ⟨limit, rfl, by simpa using fits⟩
    have refused := refused_of_exceeds wrote asks exceeds grants
    have raised : decoded.ended = .error (.decodeLimitExceeded "decoded total exceeds bound") := refused
    refine ⟨⟨?_, fun within => absurd within fits⟩, ?_, ?_⟩
    · rw [raised]
      nofun
    · rw [raised]
      nofun
    · rw [if_neg fits]
      simp [decompressFile, stored, refused, Decoded.result, publish, removed, Except.map]

/-- A container that is cut is refused exactly when the cut is not where a frame ends. -/
theorem truncated_iff (grants : Nat → Nat) {cut : Nat} (short : cut < written.length) :
    (∃ message, (iterDecompress codec (capped readSize none) ⟨written.take cut, grants, 0⟩).ended =
        .error (.streamZnnError message)) ↔
      ¬∃ k < (slices chunkBytes bytes).length,
        cut = (container codec ((slices chunkBytes bytes).take k)).length := by
  obtain ⟨cuts, framed, rfl⟩ := compress_eq_ok wrote
  constructor
  · rintro ⟨message, refused⟩ ⟨k, below, rfl⟩
    rw [container_take] at refused
    obtain ⟨body, left, opened⟩ := iterDecompress_magic codec none
      ⟨container codec ((slices chunkBytes bytes).take k), grants, 0⟩ asks rfl
    have restored : ∃ rest, frames codec (capped readSize none) 0 body =
        ⟨(slices chunkBytes bytes).take k, .ok rest⟩ ∧ rest.items = [] :=
      frames_fit 0 asks (fun slice member => framed slice (List.mem_of_mem_take member)) (by simp) left
    obtain ⟨rest, restored, _⟩ := restored
    rw [opened, restored] at refused
    cases refused
  · intro inside
    by_cases head : cut < magic.length
    · have below : ((container codec (slices chunkBytes bytes)).take cut).length < magic.length := by
        rw [List.length_take]
        omega
      obtain ⟨message, refused⟩ := iterDecompress_short codec none
        ⟨(container codec (slices chunkBytes bytes)).take cut, grants, 0⟩ asks below
      exact ⟨message, by rw [refused]⟩
    · have split : (container codec (slices chunkBytes bytes)).take cut = magic ++
          (((slices chunkBytes bytes).map (frame codec)).flatten).take (cut - magic.length) := by
        rw [container, List.take_append, List.take_of_length_le (by omega)]
      obtain ⟨body, left, opened⟩ := iterDecompress_magic codec none
        ⟨(container codec (slices chunkBytes bytes)).take cut, grants, 0⟩ asks split
      rw [opened]
      rw [container, List.length_append] at short
      apply frames_truncated asks framed (by omega) _ left
      intro k below same
      apply inside
      refine ⟨k, below, ?_⟩
      rw [container, List.length_append]
      omega

end Containers

section Sample

/-- A length in eight bytes. -/
def packed64 (n : Nat) : Bytes :=
  packed n ++ packed (n / 2 ^ 32)

/-- The header of a blob that stores its slice as it is. -/
def rawHeader (length : Nat) : Bytes :=
  [0x5A, 0x4E, 0, 5, 0, 10, 0, 0, 1, 0, 0, 0, 0, 0, 0, 2] ++ packed64 length ++ packed64 (length + 32)

def rawCodec : Codec where
  compress slice := rawHeader slice.length ++ slice
  decompress blob :=
    if blob.take 2 = [0x5A, 0x4E] then .ok (blob.drop 32) else .error .codec
  inverse slice _ := by simp [rawHeader, packed64, packed]
  nonempty slice _ := by simp [rawHeader]

theorem slices_two : slices 1 [1, 2] = [[1], [2]] := by
  simp [slices]

def twoFrames : Bytes := container rawCodec [[1], [2]]

theorem compress_two : compress rawCodec 1 none [1, 2] = .ok twoFrames := by
  rw [compress, slices_two]
  rfl

theorem round_trip_two :
    let decoded := iterDecompress rawCodec (capped 7 (some 2)) ⟨twoFrames, fun _ => 3, 0⟩
    ((∃ rest, decoded.ended = .ok rest) ↔ (some 2).all (([1, 2] : Bytes).length ≤ ·) = true) ∧
      (∀ rest, decoded.ended = .ok rest → decoded.chunks.flatten = [1, 2] ∧ rest.items = []) ∧
      decompressFile rawCodec (capped 7 (some 2)) (fun _ => 3)
          (Function.update (fun _ => none) "a" (some twoFrames)) "tmp" "a" "b" =
        if (some 2).all (([1, 2] : Bytes).length ≤ ·) = true then
          (.ok (), Function.update (Function.update (fun _ => none) "a" (some twoFrames)) "b" (some [1, 2]))
        else (.error (.decodeLimitExceeded "decoded total exceeds bound"),
          Function.update (fun _ => none) "a" (some twoFrames)) :=
  round_trip compress_two (by decide) (some 2) (fun _ => 3) "b" rfl rfl

theorem truncated_iff_two :
    (∃ message, (iterDecompress rawCodec (capped 7 none) ⟨twoFrames.take 6, fun _ => 3, 0⟩).ended =
        .error (.streamZnnError message)) ↔
      ¬∃ k < (slices 1 [1, 2]).length,
        6 = (container rawCodec ((slices 1 [1, 2]).take k)).length :=
  truncated_iff compress_two (by decide) (fun _ => 3) (by decide)

/-- A container of two slices, cut between its frames, is restored without the second one. -/
theorem truncated_silently : compress rawCodec 1 none [1, 2] = .ok twoFrames ∧
    42 < twoFrames.length ∧
    ∃ rest, iterDecompress rawCodec (capped hashRead none) ⟨twoFrames.take 42, fun _ => 1, 0⟩ =
      ⟨[[1]], .ok rest⟩ := by
  refine ⟨compress_two, by decide, ?_⟩
  have single : slices 1 [1] = [[1]] := by simp [slices]
  have alone : compress rawCodec 1 none [1] = .ok (twoFrames.take 42) := by
    rw [compress, single]
    rfl
  obtain ⟨rest, restored, _⟩ := restored_of_fits alone (by decide : 0 < hashRead) none (by simp) fun _ => 1
  exact ⟨rest, by rw [restored, single]⟩

end Sample

end Modelark.StreamZnn
