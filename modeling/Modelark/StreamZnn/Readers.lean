import Modelark.Library.Reading
import Modelark.StreamZnn.Container

/-!
# Reading frames

Exact reads, and `read_zipnn_frame`, which checks the header of a frame before it reads the payload. The
stream that a reader leaves is kept in any case, failures included.
-/

namespace Modelark.StreamZnn

open Library Reading

abbrev Reader (α : Type) := Reading Failure UInt8 α

/-- The loop of `_read_exact`. -/
def exactLoop (readSize wanted : Nat) (buf : Bytes) (stream : Stream UInt8) :
    Except Failure Bytes × Stream UInt8 :=
  if buf.length < wanted then
    match stream.read (min readSize (wanted - buf.length)) with
    | ([], rest) =>
        (.error (.streamZnnError s!"truncated container: wanted {wanted} bytes, got {buf.length}"), rest)
    | (first :: others, rest) =>
        if (first :: others).length > min readSize (wanted - buf.length) then
          (.error (.streamZnnError "source returned more bytes than requested"), rest)
        else exactLoop readSize wanted (buf ++ first :: others) rest
  else (.ok buf, stream)
termination_by wanted - buf.length
decreasing_by
  simp only [List.length_append, List.length_cons]
  omega

/-- `_read_exact`. -/
def readExactly (readSize wanted : Nat) : Reader Bytes :=
  exactLoop readSize wanted []

def truncated (wanted got : Nat) : Failure :=
  .streamZnnError s!"truncated container: wanted {wanted} bytes, got {got}"

section Exact

variable {readSize wanted : Nat} {stream : Stream UInt8}

theorem exactLoop_spec (asks : 0 < readSize) (buf : Bytes) :
    (exactLoop readSize wanted buf stream).1 =
        (if wanted ≤ buf.length + stream.items.length then
          .ok (buf ++ stream.items.take (wanted - buf.length))
        else .error (truncated wanted (buf.length + stream.items.length))) ∧
      (exactLoop readSize wanted buf stream).2.items = stream.items.drop (wanted - buf.length) := by
  fun_induction exactLoop readSize wanted buf stream with
  | case1 buf stream more rest piece =>
      have pos : 0 < min readSize (wanted - buf.length) := by omega
      have empty := (stream.read_eq_nil pos).mp (by rw [piece])
      have whole := stream.read_append (min readSize (wanted - buf.length))
      rw [piece, empty, List.nil_append] at whole
      rw [empty, List.length_nil, Nat.add_zero, if_neg (by omega), whole, List.drop_nil]
      exact ⟨rfl, rfl⟩
  | case2 buf stream more first others rest piece long =>
      have bound := stream.read_length_le (min readSize (wanted - buf.length))
      rw [piece] at bound
      exact absurd bound (Nat.not_le.mpr long)
  | case3 buf stream more first others rest piece bound ih =>
      have whole := stream.read_append (min readSize (wanted - buf.length))
      rw [piece] at whole
      dsimp only at whole
      obtain ⟨result, left⟩ := ih
      have short : (first :: others).length ≤ wanted - buf.length := by omega
      have behind : wanted - (buf ++ first :: others).length =
          wanted - buf.length - (first :: others).length := by
        rw [List.length_append]
        omega
      rw [result, left, ← whole, behind, List.drop_append, List.drop_eq_nil_of_le short,
        List.nil_append, List.length_append, List.length_append, Nat.add_assoc,
        List.take_append, List.take_of_length_le short, List.append_assoc]
      exact ⟨rfl, rfl⟩
  | case4 buf stream full =>
      rw [if_pos (by omega), Nat.sub_eq_zero_of_le (by omega), List.take_zero, List.append_nil,
        List.drop_zero]
      exact ⟨rfl, rfl⟩

/-- Without a read size nothing is read. -/
theorem readExactly_zero :
    (readExactly 0 wanted stream).1 =
        (if wanted = 0 then .ok [] else .error (truncated wanted 0)) ∧
      (readExactly 0 wanted stream).2.items = stream.items := by
  rw [readExactly, exactLoop]
  by_cases more : wanted = 0
  · simp [more]
  · have pos : 0 < wanted := Nat.pos_of_ne_zero more
    simp [more, pos, Stream.read, Stream.next, Stream.size, truncated]

theorem readExactly_determined (readSize wanted : Nat) : Determined (readExactly readSize wanted) := by
  intro one other same
  rcases Nat.eq_zero_or_pos readSize with rfl | asks
  · rw [readExactly_zero.1, readExactly_zero.1, readExactly_zero.2, readExactly_zero.2, same]
    exact ⟨rfl, rfl⟩
  · obtain ⟨result, left⟩ := @exactLoop_spec readSize wanted one asks []
    obtain ⟨result', left'⟩ := @exactLoop_spec readSize wanted other asks []
    rw [readExactly, result, result', left, left', same]
    exact ⟨rfl, rfl⟩

theorem readExactly_takes (readSize wanted : Nat) : Takes wanted (readExactly readSize wanted) := by
  rcases Nat.eq_zero_or_pos readSize with rfl | asks
  · refine ⟨fun stream => ?_, fun stream => ?_, fun stream value succeeds => ?_⟩
    · rw [readExactly_zero.2]
      exact List.drop_suffix _ _
    · simp only [readExactly_zero.2, List.suffix_rfl]
    · rw [readExactly_zero.1] at succeeds
      split at succeeds
      case isTrue none =>
        rw [readExactly_zero.2, none]
        exact ⟨Nat.zero_le _, rfl⟩
      case isFalse => cases succeeds
  · have spec := fun stream : Stream UInt8 =>
      @exactLoop_spec readSize wanted stream asks []
    refine ⟨fun stream => ?_, fun stream => ?_, fun stream value succeeds => ?_⟩
    · rw [readExactly, (spec stream).2]
      exact List.suffix_rfl
    · rw [readExactly, (spec stream).2]
      exact List.drop_suffix _ _
    · rw [readExactly, (spec stream).1] at succeeds
      split at succeeds
      case isTrue enough =>
        rw [readExactly, (spec stream).2]
        exact ⟨by simpa using enough, rfl⟩
      case isFalse => cases succeeds

/-- What an exact read gives are the next items. -/
theorem readExactly_eq_ok {value : Bytes} (succeeds : (readExactly readSize wanted stream).1 = .ok value) :
    value = stream.items.take wanted := by
  rcases Nat.eq_zero_or_pos readSize with rfl | asks
  · rw [readExactly_zero.1] at succeeds
    split at succeeds
    case isTrue none =>
      rw [none, List.take_zero]
      exact (Except.ok.inj succeeds).symm
    case isFalse => cases succeeds
  · rw [readExactly, (exactLoop_spec asks []).1] at succeeds
    split at succeeds
    case isTrue enough =>
      rw [← Except.ok.inj succeeds, List.nil_append, List.length_nil, Nat.sub_zero]
    case isFalse => cases succeeds

end Exact

/-- The bounds of a frame. -/
structure FrameBounds where
  maxStoredBytes : Nat
  maxDecodedBytes : Nat
  readSize : Nat := hashRead

def headerByte (header : Bytes) (index : Nat) : Nat :=
  (header.getD index 0).toNat

/-- The size of the decoded frame, at offset 16. -/
def originalSize (header : Bytes) : Nat :=
  unpack ((header.drop 16).take 8)

/-- The size of the stored frame, at offset 24. -/
def storedSize (header : Bytes) : Nat :=
  unpack ((header.drop 24).take 8)

/-- The header is one of a lossless byte frame. -/
def supportedHeader (header : Bytes) : Bool :=
  header.take 4 == [0x5A, 0x4E, 0x00, 0x05] && headerByte header 8 == 1 &&
    ((header.drop 9).take 5).all (· == 0) && [1, 2, 4, 5, 6].contains (headerByte header 15) &&
    [0, 1].contains (headerByte header 7) && [0, 1].contains (headerByte header 6) &&
    [10, 220].contains (headerByte header 5)

/-- The arguments of `read_zipnn_header`, with the bytes that were read ahead. -/
def checkArguments (bounds : FrameBounds) (remainingBytes storedLength : Option Nat) (ahead : Bytes) :
    Except Failure Unit := do
  require (0 < bounds.maxStoredBytes) (.valueError "invalid stored bound")
  require (0 < bounds.maxDecodedBytes) (.valueError "invalid decoded bound")
  require (0 < bounds.readSize) (.valueError "invalid read size")
  require remainingBytes.isSome (.valueError "invalid remaining bytes")
  require (ahead.length ≤ 32) (.valueError "invalid frame prefix")
  require (storedLength.all (0 < ·)) (.valueError "invalid stored length")
  require (storedLength.all (· ≤ bounds.maxStoredBytes))
    (.decodeLimitExceeded "stored ZipNN frame exceeds bound")
  require (storedLength.all (32 ≤ ·)) (.streamZnnError "short ZipNN frame")

/-- The header that was read. -/
def checkHeader (bounds : FrameBounds) (remainingBytes storedLength : Option Nat) (header : Bytes) :
    Except Failure Unit := do
  require (originalSize header ≤ bounds.maxDecodedBytes && storedSize header ≤ bounds.maxStoredBytes &&
      remainingBytes.all (originalSize header ≤ ·))
    (.decodeLimitExceeded "ZipNN frame exceeds configured or artifact bound")
  require (supportedHeader header) (.unsupportedFrame "unsupported ZipNN header")
  require (32 ≤ storedSize header && originalSize header != 0 &&
      storedLength.all (storedSize header == ·) && headerByte header 14 ≤ 26)
    (.streamZnnError "inconsistent ZipNN frame header")

/-- `read_zipnn_header`. -/
def readZipnnHeader (bounds : FrameBounds) (remainingBytes storedLength : Option Nat) (ahead : Bytes) :
    Reader Bytes := do
  given (checkArguments bounds remainingBytes storedLength ahead)
  let rest ← readExactly bounds.readSize (32 - ahead.length)
  given (checkHeader bounds remainingBytes storedLength (ahead ++ rest))
  return ahead ++ rest

/-- The decoding of a blob: that of the caller, or ZipNN's with its exceptions translated. -/
def decodeFrame (native : Bytes → Except Failure Bytes) (decode : Option (Bytes → Except Failure Bytes))
    (blob : Bytes) : Except Failure Bytes :=
  match decode with
  | some decode => decode blob
  | none =>
      match native blob with
      | .ok decoded => .ok decoded
      | .error _ => .error (.streamZnnError "ZipNN decoder refused frame")

/-- `read_zipnn_frame`. -/
def readZipnnFrame (native : Bytes → Except Failure Bytes)
    (decode : Option (Bytes → Except Failure Bytes)) (bounds : FrameBounds)
    (remainingBytes storedLength : Option Nat) (ahead : Bytes) : Reader Bytes := do
  let header ← readZipnnHeader bounds remainingBytes storedLength ahead
  let payload ← readExactly bounds.readSize (storedSize header - 32)
  let decoded ← given (decodeFrame native decode (header ++ payload))
  check (decoded.length == originalSize header)
    (.streamZnnError "ZipNN decoded size differs from header")
  return decoded

section Validated

variable {native : Bytes → Except Failure Bytes} {decode : Option (Bytes → Except Failure Bytes)}
  {bounds : FrameBounds} {remainingBytes storedLength : Option Nat} {ahead header decoded : Bytes}
  {stream : Stream UInt8}

theorem readZipnnHeader_determined :
    Determined (readZipnnHeader bounds remainingBytes storedLength ahead) := by
  refine (determined_given _).bind fun _ => ?_
  refine (readExactly_determined _ _).bind fun _ => ?_
  exact (determined_given _).bind fun _ => determined_pure _

theorem readZipnnFrame_determined :
    Determined (readZipnnFrame native decode bounds remainingBytes storedLength ahead) := by
  refine readZipnnHeader_determined.bind fun _ => ?_
  refine (readExactly_determined _ _).bind fun _ => ?_
  refine (determined_given _).bind fun _ => ?_
  exact (determined_given _).bind fun _ => determined_pure _

/-- A header that is accepted, with accepted arguments. -/
theorem of_readZipnnHeader
    (succeeds : (readZipnnHeader bounds remainingBytes storedLength ahead stream).1 = .ok header) :
    checkArguments bounds remainingBytes storedLength ahead = .ok () ∧
      checkHeader bounds remainingBytes storedLength header = .ok () := by
  obtain ⟨_, arguments, later⟩ := bind_eq_ok succeeds
  obtain ⟨rest, _, later⟩ := bind_eq_ok later
  obtain ⟨_, valid, same⟩ := bind_eq_ok later
  obtain rfl := Except.ok.inj same
  exact ⟨arguments, valid⟩

theorem readZipnnHeader_takes :
    Takes (32 - ahead.length) (readZipnnHeader bounds remainingBytes storedLength ahead) := by
  have after : ∀ rest, Takes 0 (do
      given (checkHeader bounds remainingBytes storedLength (ahead ++ rest))
      return ahead ++ rest : Reader Bytes) :=
    fun _ => (takes_given _).bind fun _ _ _ => takes_pure _
  have read := (readExactly_takes bounds.readSize (32 - ahead.length)).bind fun _ rest _ => after rest
  have whole := (takes_given (checkArguments bounds remainingBytes storedLength ahead)).bind
    fun (_ : Stream UInt8) _ _ => read
  rwa [Nat.zero_add, Nat.add_zero] at whole

/-- What follows the header of a frame of a stored length takes the rest of the frame, so that the frame is
    taken whole, or a part of it. -/
theorem takes_behind_header {β : Type} {after : Bytes → Reader β} (len : Nat)
    (follows : ∀ header, storedSize header = len → Takes (len - 32) (after header)) :
    Takes len (readZipnnHeader bounds remainingBytes (some len) [] >>= after) := by
  have fits : ∀ {stream header},
      (readZipnnHeader bounds remainingBytes (some len) [] stream).1 = .ok header →
        32 ≤ len ∧ storedSize header = len := by
    intro stream header succeeds
    obtain ⟨arguments, valid⟩ := of_readZipnnHeader succeeds
    simp only [checkArguments, checkHeader, Library.bind_eq_ok, require_eq_ok, Option.all_some,
      Bool.and_eq_true, decide_eq_true_eq, beq_iff_eq] at arguments valid
    obtain ⟨_, _, _, _, _, _, _, _, _, _, _, _, _, _, long⟩ := arguments
    obtain ⟨_, _, _, _, ⟨_, same⟩, _⟩ := valid
    exact ⟨long, same⟩
  rcases Nat.lt_or_ge len 32 with short | long
  · -- The arguments are refused, and nothing is read.
    have refused : ∀ {value}, checkArguments bounds remainingBytes (some len) [] ≠ .ok value := by
      intro _ arguments
      simp only [checkArguments, Library.bind_eq_ok, require_eq_ok, Option.all_some,
        decide_eq_true_eq] at arguments
      obtain ⟨_, _, _, _, _, _, _, _, _, _, _, _, _, _, long⟩ := arguments
      omega
    have header : Takes (0 + 0) (readZipnnHeader bounds remainingBytes (some len) []) :=
      (takes_given _).bind fun _ _ succeeds => absurd succeeds refused
    have frame : Takes (0 + 0 + 0) (readZipnnHeader bounds remainingBytes (some len) [] >>= after) :=
      header.bind fun _ _ succeeds => absurd (fits succeeds).1 (by omega)
    refine frame.mono_of_fails (Nat.zero_le len) fun stream value succeeds => ?_
    obtain ⟨_, read, _⟩ := bind_eq_ok succeeds
    exact absurd (fits read).1 (by omega)
  · have header : Takes (32 - ([] : Bytes).length)
        (readZipnnHeader bounds remainingBytes (some len) []) := readZipnnHeader_takes
    rw [List.length_nil, Nat.sub_zero] at header
    have whole : Takes (32 + (len - 32))
        (readZipnnHeader bounds remainingBytes (some len) [] >>= after) :=
      header.bind fun _ header succeeds => follows header (fits succeeds).2
    rwa [Nat.add_sub_cancel' long] at whole

theorem readZipnnFrame_takes (len : Nat) :
    Takes len (readZipnnFrame native decode bounds remainingBytes (some len) []) := by
  have after : ∀ header payload : Bytes, Takes 0 (do
      let decoded ← given (decodeFrame native decode (header ++ payload))
      check (decoded.length == originalSize header)
        (.streamZnnError "ZipNN decoded size differs from header")
      return decoded : Reader Bytes) :=
    fun _ _ => (takes_given _).bind fun _ _ _ => (takes_given _).bind fun _ _ _ => takes_pure _
  refine takes_behind_header len fun header stored => ?_
  rw [← stored]
  exact (readExactly_takes bounds.readSize (storedSize header - 32)).bind
    fun _ payload _ => after header payload

/-- What a validated frame gives is as long as its header says, and within the bounds. -/
theorem length_of_readZipnnFrame
    (succeeds : (readZipnnFrame native decode bounds remainingBytes storedLength ahead stream).1 =
      .ok decoded) :
    decoded.length ≤ bounds.maxDecodedBytes ∧ ∃ remaining, remainingBytes = some remaining ∧
      decoded.length ≤ remaining := by
  obtain ⟨header, read, later⟩ := bind_eq_ok succeeds
  obtain ⟨arguments, valid⟩ := of_readZipnnHeader read
  obtain ⟨_, _, later⟩ := bind_eq_ok later
  obtain ⟨result, _, later⟩ := bind_eq_ok later
  obtain ⟨_, whole, same⟩ := bind_eq_ok later
  obtain rfl := Except.ok.inj same
  have length := beq_iff_eq.mp (check_eq_ok whole)
  simp only [checkArguments, checkHeader, Library.bind_eq_ok, require_eq_ok, Bool.and_eq_true,
    decide_eq_true_eq] at arguments valid
  obtain ⟨_, _, _, _, _, _, _, known, _⟩ := arguments
  obtain ⟨_, ⟨⟨decodes, _⟩, remains⟩, _⟩ := valid
  obtain ⟨remaining, rfl⟩ := Option.isSome_iff_exists.mp known
  rw [Option.all_some, decide_eq_true_eq] at remains
  exact ⟨by omega, remaining, rfl, by omega⟩

/-- A payload is only read behind a header within the bounds. -/
theorem header_of_payload (behind : ¬stream.items.drop (32 - ahead.length) <:+
      (readZipnnFrame native decode bounds remainingBytes storedLength ahead stream).2.items) :
    storedSize (ahead ++ stream.items.take (32 - ahead.length)) ≤ bounds.maxStoredBytes ∧
      originalSize (ahead ++ stream.items.take (32 - ahead.length)) ≤ bounds.maxDecodedBytes ∧
      ∃ remaining, remainingBytes = some remaining ∧
        originalSize (ahead ++ stream.items.take (32 - ahead.length)) ≤ remaining := by
  cases read : (readZipnnHeader bounds remainingBytes storedLength ahead stream).1 with
  | error failure =>
      rw [readZipnnFrame, bind_error read] at behind
      exact absurd (readZipnnHeader_takes.within stream) behind
  | ok header =>
      obtain ⟨arguments, valid⟩ := of_readZipnnHeader read
      obtain ⟨_, _, later⟩ := bind_eq_ok read
      obtain ⟨rest, exact, later⟩ := bind_eq_ok later
      obtain ⟨_, _, same⟩ := bind_eq_ok later
      obtain rfl := Except.ok.inj same
      have items : rest = stream.items.take (32 - ahead.length) := readExactly_eq_ok exact
      rw [items] at valid
      simp only [checkArguments, checkHeader, Library.bind_eq_ok, require_eq_ok, Bool.and_eq_true,
        decide_eq_true_eq] at arguments valid
      obtain ⟨_, _, _, _, _, _, _, known, _⟩ := arguments
      obtain ⟨_, ⟨⟨decodes, stored⟩, remains⟩, _⟩ := valid
      obtain ⟨remaining, rfl⟩ := Option.isSome_iff_exists.mp known
      rw [Option.all_some, decide_eq_true_eq] at remains
      exact ⟨stored, decodes, remaining, rfl, remains⟩

end Validated

end Modelark.StreamZnn
