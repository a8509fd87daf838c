import Modelark.StreamZnn.Iterating

/-!
# The default decoding

With its own decoding of the frames, the iterator over frames is the reader of whole containers.
-/

namespace Modelark.StreamZnn

open Library Reading

theorem readLoop_eq {readSize wanted : Nat} {buf : Bytes} {stream : Stream UInt8} :
    readLoop readSize wanted buf stream = kept (exactLoop readSize wanted buf stream) := by
  fun_induction exactLoop readSize wanted buf stream with
  | case1 buf stream more rest piece =>
      rw [readLoop, if_pos more, piece]
      rfl
  | case2 buf stream more first others rest piece long =>
      rw [readLoop, if_pos more, piece]
      dsimp only
      rw [if_pos long]
      rfl
  | case3 buf stream more first others rest piece short ih =>
      rw [← ih, readLoop, if_pos more, piece]
      dsimp only
      rw [if_neg short]
  | case4 buf stream full =>
      rw [readLoop, if_neg full]
      rfl

variable {codec : Codec} {limits : Limits} {stream : Stream UInt8}

theorem nextLength_eq : nextLength limits stream =
    kept (nextFrame limits.maxStoredFrameBytes limits.readSize stream) := by
  rw [nextLength, nextFrame]
  dsimp only
  split
  · rfl
  · rw [readLength, kept_check, kept_bind]
    simp only [kept_check, beq_eq_decide, bne, readExact, readLoop_eq, decide_not, readExactly]
    rfl

theorem all_le (limit : Option Nat) (size : Nat) :
    limit.all (size ≤ ·) = !limit.any (· < size) := by
  cases limit with
  | none => rfl
  | some bound =>
      rw [Option.all_some, Option.any_some, ← decide_not]
      exact decide_eq_decide.mpr Nat.not_lt.symm

/-- A frame with the default decoding is one piece, or none. -/
theorem frameOf_native {total blobLen : Nat} :
    match readFrame codec limits total blobLen stream with
    | .ok (restored, rest) =>
        frameOf (nativeSource codec.decompress limits.readSize) limits total blobLen stream =
          (⟨[(restored, rest)], .ok (), rest⟩, total + restored.length)
    | .error failure =>
        (frameOf (nativeSource codec.decompress limits.readSize) limits total blobLen
            stream).1.pieces = [] ∧
          (frameOf (nativeSource codec.decompress limits.readSize) limits total blobLen
            stream).1.ended = .error failure := by
  have exact : readExact limits.readSize blobLen stream =
    kept (readExactly limits.readSize blobLen stream) := readLoop_eq
  have run : (nativeSource codec.decompress limits.readSize).run blobLen
      (limits.maxTotalBytes.map (· - total)) stream =
        Pieces.ofReader (nativeReader codec.decompress limits.readSize blobLen) stream := rfl
  rw [readFrame, exact, frameOf, run, Pieces.ofReader, nativeReader]
  cases read : readExactly limits.readSize blobLen stream with
  | mk result rest =>
    cases result with
    | error failure =>
        rw [bind_error (congrArg Prod.fst read), read]
        exact ⟨rfl, rfl⟩
    | ok blob =>
        rw [bind_ok (congrArg Prod.fst read), read]
        cases restores : codec.decompress blob with
        | error failure =>
            simp only [kept, ok_bind, restores, given]
            exact ⟨rfl, rfl⟩
        | ok restored =>
            simp only [kept, ok_bind, restores, given, yieldPieces, Nat.zero_add, all_le]
            by_cases decoded : limits.maxDecodedFrameBytes.any (· < restored.length) = true
            · rw [if_pos decoded, decoded]
              exact ⟨rfl, rfl⟩
            rw [if_neg decoded, Bool.eq_false_iff.mpr decoded]
            by_cases fits : limits.maxTotalBytes.any (· < total + restored.length) = true
            · rw [if_pos fits, fits]
              exact ⟨rfl, rfl⟩
            rw [if_neg fits, Bool.eq_false_iff.mpr fits]
            rfl

/-- What an iterator has yielded in all, with the stream it leaves when it ends. -/
def Run.decoded (run : Run) : Decoded :=
  ⟨run.frames.flatMap fun frame => frame.pieces.map Prod.fst, run.ended.map fun _ => run.left⟩

/-- The iterator with the default decoding is the reader of whole containers. -/
theorem frames_eq {total : Nat} : frames codec limits total stream =
    (iterFrames (nativeSource codec.decompress limits.readSize) limits total stream).decoded := by
  fun_induction frames codec limits total stream with
  | case1 total stream failure next =>
      rw [nextLength_eq] at next
      rw [iterFrames_error (of_kept_error next)]
      rfl
  | case2 total stream rest next =>
      rw [nextLength_eq] at next
      rw [iterFrames_none (congrArg Prod.fst (eq_of_kept next)), eq_of_kept next]
      rfl
  | case3 total stream blobLen rest next failure frame =>
      rw [nextLength_eq] at next
      have native := @frameOf_native codec limits rest total blobLen
      rw [frame] at native
      obtain ⟨pieces, ended⟩ := native
      rw [iterFrames_some (congrArg Prod.fst (eq_of_kept next)), eq_of_kept next]
      simp only [ended, Run.decoded, pieces]
      rfl
  | case4 total stream blobLen rest next restored left frame later ih =>
      rw [nextLength_eq] at next
      have native := @frameOf_native codec limits rest total blobLen
      rw [frame] at native
      rw [iterFrames_some (congrArg Prod.fst (eq_of_kept next)), eq_of_kept next]
      dsimp only at native ⊢
      rw [native]
      dsimp only
      have behind : later = _ := ih
      rw [behind]
      rfl

theorem iterDecompress_eq : iterDecompress codec limits stream =
    (iterate (nativeSource codec.decompress limits.readSize) limits [] stream).decoded := by
  have opens : (do
      require (0 < limits.maxStoredFrameBytes) (.valueError "invalid stored frame bound")
      require (0 < limits.readSize) (.valueError "invalid read size")
      readMagic limits stream : Except Failure (Stream UInt8)) =
        (kept (opening limits [] stream)).map Prod.snd := by
    rw [opening, kept_check, kept_check, readHead, kept_check, kept_bind, readMagic, readExact,
      readLoop_eq]
    cases require (decide (0 < limits.maxStoredFrameBytes))
      (Failure.valueError "invalid stored frame bound") with
    | error failure => rfl
    | ok =>
      cases require (decide (0 < limits.readSize)) (Failure.valueError "invalid read size") with
      | error failure => rfl
      | ok =>
        have read : readExactly limits.readSize (magic.length - ([] : Bytes).length) stream =
          exactLoop limits.readSize magic.length [] stream := rfl
        rw [read]
        rcases exactLoop limits.readSize magic.length [] stream with ⟨failure | head, rest⟩
        · rfl
        · by_cases same : head = magic
          · simp [kept, check, given, require, same, Except.map]
          · simp [kept, check, given, require, same, Except.map]
  rw [iterDecompress, opens]
  cases opened : opening limits [] stream with
  | mk result rest =>
    cases result with
    | error failure =>
        rw [iterate_error (congrArg Prod.fst opened)]
        rfl
    | ok =>
        rw [iterate_ok (congrArg Prod.fst opened), opened]
        exact frames_eq

end Modelark.StreamZnn
