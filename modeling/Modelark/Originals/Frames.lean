import Modelark.StreamZnn.Iterating
import Modelark.StreamZnn.RoundTrip

/-!
# Validated frames

What a complete ZipNN frame is, and that the readers of frames take exactly one and refuse everything else
with an exception of their own.
-/

namespace Modelark.Originals

open Library Reading StreamZnn

/-- A complete frame and what the native codec makes of it: as long as its header says, before the
    decoding and after it. -/
structure ZipnnFrame (native : Bytes → Except Failure Bytes) (blob decoded : Bytes) : Prop where
  head : blob.take 2 = [0x5A, 0x4E]
  long : 32 ≤ blob.length
  stored : storedSize blob = blob.length
  nonempty : decoded ≠ []
  decodes : native blob = .ok decoded

theorem storedSize_append {header payload : Bytes} (long : 32 ≤ header.length) :
    storedSize (header ++ payload) = storedSize header := by
  have whole : ((header ++ payload).drop 24).take 8 = (header.drop 24).take 8 := by
    rw [List.drop_append_of_le_length (by omega), List.take_append_of_le_length]
    rw [List.length_drop]
    omega
  rw [storedSize, storedSize, whole]

/-- Of two complete frames, none is a proper beginning of the other. -/
theorem ZipnnFrame.eq_of_append {native : Bytes → Except Failure Bytes} {one other d e x : Bytes}
    (frame : ZipnnFrame native one d) (frame' : ZipnnFrame native other e) (more : one ++ x = other) :
    x = [] := by
  have sizes := frame'.stored
  rw [← more, storedSize_append frame.long, frame.stored, List.length_append] at sizes
  exact List.length_eq_zero_iff.mp (by omega)

section Exact

variable {readSize wanted : Nat} {stream : Stream UInt8}

theorem readExactly_items {value : Bytes} (read : (readExactly readSize wanted stream).1 = .ok value) :
    value ++ (readExactly readSize wanted stream).2.items = stream.items ∧ value.length = wanted := by
  obtain ⟨enough, left⟩ := (readExactly_takes readSize wanted).exactly stream value read
  rw [readExactly_eq_ok read, left]
  exact ⟨List.take_append_drop _ _, List.length_take_of_le enough⟩

theorem readExactly_error {failure : Failure}
    (fails : (readExactly readSize wanted stream).1 = .error failure) :
    failure.isStreamZnnError = true := by
  rcases Nat.eq_zero_or_pos readSize with rfl | asks
  · rw [readExactly_zero.1] at fails
    split at fails <;> cases fails
    rfl
  · rw [readExactly, (exactLoop_spec asks []).1] at fails
    split at fails <;> cases fails
    rfl

end Exact

section Headers

variable {bounds : FrameBounds} {remaining storedLength : Option Nat} {ahead : Bytes}
  {stream : Stream UInt8}

/-- The arguments with which `_decoded_chunks` reads a frame. -/
structure Asked (bounds : FrameBounds) (remaining storedLength : Option Nat) (ahead : Bytes) : Prop where
  stored : 0 < bounds.maxStoredBytes
  decoded : 0 < bounds.maxDecodedBytes
  reads : 0 < bounds.readSize
  remains : remaining.isSome
  short : ahead.length ≤ 32
  length : storedLength.all (0 < ·)

theorem checkArguments_error {failure : Failure} (asked : Asked bounds remaining storedLength ahead)
    (fails : checkArguments bounds remaining storedLength ahead = .error failure) :
    failure.isStreamZnnError = true := by
  simp only [checkArguments, Library.bind_eq_error, require_eq_error, asked.stored, asked.decoded,
    asked.reads, asked.remains, asked.short, asked.length, decide_true, Bool.true_eq_false, false_and,
    false_or] at fails
  obtain ⟨_, _, _, _, _, _, _, _, _, _, _, _, ⟨_, rfl⟩ | ⟨_, _, _, rfl⟩⟩ := fails <;> rfl

theorem checkHeader_error {failure : Failure} {header : Bytes}
    (fails : checkHeader bounds remaining storedLength header = .error failure) :
    failure.isStreamZnnError = true := by
  simp only [checkHeader, Library.bind_eq_error, require_eq_error] at fails
  obtain ⟨_, rfl⟩ | ⟨_, _, ⟨_, rfl⟩ | ⟨_, _, _, rfl⟩⟩ := fails <;> rfl

/-- A header that was read: the bytes ahead of it and the next ones of the stream, and what it says. -/
theorem readZipnnHeader_eq_ok {header : Bytes}
    (read : (readZipnnHeader bounds remaining storedLength ahead stream).1 = .ok header) :
    header ++ (readZipnnHeader bounds remaining storedLength ahead stream).2.items =
        ahead ++ stream.items ∧
      header.length = 32 ∧ header.take 2 = [0x5A, 0x4E] ∧ 32 ≤ storedSize header ∧
      originalSize header ≠ 0 ∧ storedLength.all (storedSize header == ·) := by
  obtain ⟨_, arguments, later⟩ := bind_eq_ok read
  obtain ⟨rest, exact, later⟩ := bind_eq_ok later
  obtain ⟨_, valid, same⟩ := bind_eq_ok later
  obtain rfl := Except.ok.inj same
  have begun : (readExactly bounds.readSize (32 - ahead.length) stream).1 = .ok rest := exact
  have left : (readZipnnHeader bounds remaining storedLength ahead stream).2 =
      (readExactly bounds.readSize (32 - ahead.length) stream).2 := by
    rw [readZipnnHeader, bind_ok arguments, bind_ok exact, bind_ok valid]
    rfl
  obtain ⟨items, length⟩ := readExactly_items begun
  change checkArguments _ _ _ _ = _ at arguments
  change checkHeader _ _ _ _ = _ at valid
  simp only [checkArguments, checkHeader, Library.bind_eq_ok, require_eq_ok, Bool.and_eq_true,
    decide_eq_true_eq, bne_iff_ne] at arguments valid
  obtain ⟨_, _, _, _, _, _, _, _, _, short, _⟩ := arguments
  obtain ⟨_, _, _, supported, ⟨⟨long, some⟩, stored⟩, _⟩ := valid
  simp only [supportedHeader, Bool.and_eq_true, beq_iff_eq] at supported
  obtain ⟨⟨⟨⟨⟨⟨head, _⟩, _⟩, _⟩, _⟩, _⟩, _⟩ := supported
  rw [left, List.append_assoc, items]
  refine ⟨rfl, ?_, ?_, long, some, stored⟩
  · rw [List.length_append]
    omega
  · have shorter := congrArg (List.take 2) head
    rwa [List.take_take] at shorter

theorem readZipnnHeader_error {failure : Failure} (asked : Asked bounds remaining storedLength ahead)
    (fails : (readZipnnHeader bounds remaining storedLength ahead stream).1 = .error failure) :
    failure.isStreamZnnError = true := by
  rcases bind_eq_error fails with arguments | ⟨_, _, later⟩
  · exact checkArguments_error asked arguments
  · rcases bind_eq_error later with exact | ⟨rest, _, later⟩
    · exact readExactly_error exact
    · rcases bind_eq_error later with header | ⟨_, _, later⟩
      · exact checkHeader_error header
      · cases later

end Headers

section Whole

variable {native : Bytes → Except Failure Bytes} {bounds : FrameBounds}
  {remaining storedLength : Option Nat} {ahead : Bytes} {stream : Stream UInt8}

/-- A header and the payload that it announces make a complete frame, when the codec gives as much as the
    header says. -/
theorem zipnnFrame_of_header {header payload decoded : Bytes} (whole : header.length = 32)
    (head : header.take 2 = [0x5A, 0x4E]) (long : 32 ≤ storedSize header)
    (some : originalSize header ≠ 0) (length : payload.length = storedSize header - 32)
    (decodes : native (header ++ payload) = .ok decoded)
    (original : decoded.length = originalSize header) : ZipnnFrame native (header ++ payload) decoded where
  head := by rw [List.take_append_of_le_length (by omega), head]
  long := by
    rw [List.length_append]
    omega
  stored := by
    rw [storedSize_append (by omega), List.length_append]
    omega
  nonempty := by
    rintro rfl
    exact some original.symm
  decodes := decodes

theorem decodeFrame_none_eq_ok {blob decoded : Bytes}
    (decodes : decodeFrame native none blob = .ok decoded) : native blob = .ok decoded := by
  cases made : native blob with
  | ok result =>
      simp only [decodeFrame, made, Except.ok.injEq] at decodes
      rw [decodes]
  | error failure => simp [decodeFrame, made] at decodes

theorem readZipnnFrame_eq_ok {decoded : Bytes} {decode : Option (Bytes → Except Failure Bytes)}
    (plain : ∀ blob decoded, decodeFrame native decode blob = .ok decoded → native blob = .ok decoded)
    (read : (readZipnnFrame native decode bounds remaining storedLength ahead stream).1 = .ok decoded) :
    ∃ blob, blob ++ (readZipnnFrame native decode bounds remaining storedLength ahead stream).2.items =
        ahead ++ stream.items ∧
      ZipnnFrame native blob decoded ∧ storedLength.all (blob.length == ·) := by
  obtain ⟨header, first, later⟩ := bind_eq_ok read
  obtain ⟨payload, exact, later⟩ := bind_eq_ok later
  obtain ⟨result, decodes, later⟩ := bind_eq_ok later
  obtain ⟨_, whole, same⟩ := bind_eq_ok later
  obtain rfl := Except.ok.inj same
  have left : (readZipnnFrame native decode bounds remaining storedLength ahead stream).2 =
      (readExactly bounds.readSize (storedSize header - 32)
        (readZipnnHeader bounds remaining storedLength ahead stream).2).2 := by
    rw [readZipnnFrame, bind_ok first, bind_ok exact, bind_ok decodes, bind_ok whole]
    rfl
  obtain ⟨items, length, head, long, some, stored⟩ := readZipnnHeader_eq_ok first
  obtain ⟨items', length'⟩ := readExactly_items exact
  have frame := zipnnFrame_of_header length head long some length' (plain _ _ decodes)
    (beq_iff_eq.mp (check_eq_ok whole))
  refine ⟨header ++ payload, ?_, frame, ?_⟩
  · rw [left, List.append_assoc, items', items]
  · rw [← frame.stored, storedSize_append (by omega)]
    exact stored

theorem readZipnnFrame_error {failure : Failure} (asked : Asked bounds remaining storedLength ahead)
    (fails : (readZipnnFrame native none bounds remaining storedLength ahead stream).1 =
      .error failure) : failure.isStreamZnnError = true := by
  rcases bind_eq_error fails with header | ⟨header, _, later⟩
  · exact readZipnnHeader_error asked header
  rcases bind_eq_error later with payload | ⟨payload, _, later⟩
  · exact readExactly_error payload
  rcases bind_eq_error later with decodes | ⟨_, _, later⟩
  · change decodeFrame native none _ = _ at decodes
    cases made : native (header ++ payload) with
    | ok decoded => simp [decodeFrame, made] at decodes
    | error other =>
        simp only [decodeFrame, made, Except.error.injEq] at decodes
        rw [← decodes]
        rfl
  rcases bind_eq_error later with length | ⟨_, _, later⟩
  · change (if _ then _ else _) = _ at length
    split at length <;> cases length
    rfl
  · cases later

end Whole

end Modelark.Originals
