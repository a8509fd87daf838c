import Modelark.StreamZnn.Readers

/-!
# Iterating over a container

`iter_decompress` with each way to read a frame: its own decoding, a `frame_reader`, or a `frame_stream`
that gives a frame in pieces.
-/

namespace Modelark.StreamZnn

open Library Reading

/-- The pieces of one frame, each with the stream after it, and how the frame ended. -/
structure Pieces where
  pieces : List (Bytes × Stream UInt8)
  ended : Except Failure Unit
  left : Stream UInt8

namespace Pieces

/-- The streams that a frame has left on the way. -/
def streams (run : Pieces) : List (Stream UInt8) :=
  run.pieces.map Prod.snd ++ [run.left]

def view (run : Pieces) : List (Bytes × Bytes) × Except Failure Unit × Bytes :=
  (run.pieces.map fun piece => (piece.1, piece.2.items), run.ended, run.left.items)

/-- A frame that comes in one piece. -/
def ofReader (reader : Reader Bytes) (stream : Stream UInt8) : Pieces :=
  match reader stream with
  | (.ok restored, rest) => ⟨[(restored, rest)], .ok (), rest⟩
  | (.error failure, rest) => ⟨[], .error failure, rest⟩

end Pieces

/-- A way to read frames of a stored length, with what remains of the total: it consumes exactly the
    frame, and does not depend on how the stream is cut into reads. -/
structure FrameSource where
  run : Nat → Option Nat → Stream UInt8 → Pieces
  determined : ∀ storedLength remaining one other, one.items = other.items →
    (run storedLength remaining one).view = (run storedLength remaining other).view
  within : ∀ storedLength remaining stream, ∀ left ∈ (run storedLength remaining stream).streams,
    stream.items.drop storedLength <:+ left.items ∧ left.items <:+ stream.items
  exactly : ∀ storedLength remaining stream, (run storedLength remaining stream).ended = .ok () →
    storedLength ≤ stream.items.length ∧
      (run storedLength remaining stream).left.items = stream.items.drop storedLength

/-- `iter_frame_lengths` up to its loop. -/
def readHead (readSize : Nat) (ahead : Bytes) : Reader Unit := do
  check (ahead.length ≤ magic.length) (.valueError "invalid container prefix")
  let rest ← readExactly readSize (magic.length - ahead.length)
  check (ahead ++ rest == magic) (.streamZnnError s!"bad magic {ahead ++ rest}: not a StreamZNN container")

/-- The rest of a frame's length, after its first byte. -/
def readLength (maxStoredFrameBytes readSize : Nat) (head : Bytes) : Reader (Option Nat) := do
  check (head.length == 1) (.streamZnnError "source returned more bytes than requested")
  let tail ← readExactly readSize 3
  check (unpack (head ++ tail) != 0) (.streamZnnError "implausible frame length 0")
  check (unpack (head ++ tail) ≤ maxStoredFrameBytes)
    (.decodeLimitExceeded "stored StreamZNN frame exceeds bound")
  return some (unpack (head ++ tail))

/-- One round of `iter_frame_lengths`: the next length, or the end of the container. -/
def nextFrame (maxStoredFrameBytes readSize : Nat) : Reader (Option Nat) := fun stream =>
  let head := stream.read 1
  if head.1 = [] then (.ok none, head.2) else readLength maxStoredFrameBytes readSize head.1 head.2

/-- The loop over the pieces of a frame: what is yielded, how it ends, the stream it leaves, and the
    total. -/
def yieldPieces (limits : Limits) (frameTotal total : Nat) (ended : Except Failure Unit)
    (left : Stream UInt8) : List (Bytes × Stream UInt8) → Pieces × Nat
  | [] => (⟨[], ended, left⟩, total)
  | (restored, rest) :: later =>
      if limits.maxDecodedFrameBytes.any (· < frameTotal + restored.length) then
        (⟨[], .error (.decodeLimitExceeded "decoded StreamZNN frame exceeds bound"), rest⟩, total)
      else if limits.maxTotalBytes.any (· < total + restored.length) then
        (⟨[], .error (.decodeLimitExceeded "decoded total exceeds bound"), rest⟩, total)
      else
        let (run, sum) := yieldPieces limits (frameTotal + restored.length) (total + restored.length)
          ended left later
        (⟨(restored, rest) :: run.pieces, run.ended, run.left⟩, sum)

/-- A frame that was begun: the stream at its start, and its pieces that were yielded. -/
structure FrameRun where
  start : Stream UInt8
  pieces : List (Bytes × Stream UInt8)

/-- What an iterator has yielded, frame by frame, how it ended, and the stream it leaves. -/
structure Run where
  frames : List FrameRun
  ended : Except Failure Unit
  left : Stream UInt8

section Iterator

variable (source : FrameSource) (limits : Limits)

theorem yieldPieces_streams {frameTotal total : Nat} {ended : Except Failure Unit} {left : Stream UInt8}
    {pieces : List (Bytes × Stream UInt8)} {stream : Stream UInt8}
    (member : stream ∈ (yieldPieces limits frameTotal total ended left pieces).1.streams) :
    stream ∈ pieces.map Prod.snd ++ [left] := by
  induction pieces generalizing frameTotal total with
  | nil => exact member
  | cons piece later ih =>
      obtain ⟨restored, rest⟩ := piece
      rw [yieldPieces] at member
      rw [List.map_cons, List.cons_append, List.mem_cons]
      split at member
      · exact Or.inl (List.mem_singleton.mp member)
      split at member
      · exact Or.inl (List.mem_singleton.mp member)
      rw [Pieces.streams, List.map_cons, List.cons_append, List.mem_cons] at member
      exact member.imp_right ih

theorem readLength_takes (maxStored readSize : Nat) (head : Bytes) :
    Takes 3 (readLength maxStored readSize head) := by
  have after : ∀ tail : Bytes, Takes 0 (do
      check (unpack (head ++ tail) != 0) (.streamZnnError "implausible frame length 0")
      check (unpack (head ++ tail) ≤ maxStored)
        (.decodeLimitExceeded "stored StreamZNN frame exceeds bound")
      return some (unpack (head ++ tail)) : Reader (Option Nat)) :=
    fun _ => (takes_given _).bind fun _ _ _ => (takes_given _).bind fun _ _ _ => takes_pure _
  have read := (readExactly_takes readSize 3).bind fun _ tail _ => after tail
  have whole : Takes (0 + (3 + 0)) (readLength maxStored readSize head) :=
    (takes_given _).bind fun _ _ _ => read
  exact whole

theorem readLength_determined (maxStored readSize : Nat) (head : Bytes) :
    Determined (readLength maxStored readSize head) := by
  refine (determined_given _).bind fun _ => ?_
  refine (readExactly_determined _ _).bind fun _ => ?_
  exact (determined_given _).bind fun _ => (determined_given _).bind fun _ => determined_pure _

theorem nextFrame_nil {maxStored readSize : Nat} {stream : Stream UInt8} (empty : stream.items = []) :
    nextFrame maxStored readSize stream = (.ok none, stream.next 1) := by
  have none : (stream.read 1).1 = [] := (stream.read_eq_nil Nat.one_pos).mpr empty
  rw [nextFrame, if_pos none]
  rfl

theorem nextFrame_cons {maxStored readSize : Nat} {stream : Stream UInt8} {first : UInt8} {rest : Bytes}
    (items : stream.items = first :: rest) :
    nextFrame maxStored readSize stream = readLength maxStored readSize [first] (stream.next 1) ∧
      (stream.next 1).items = rest := by
  have head : (stream.read 1).1 = [first] := by
    rw [Stream.read, Stream.size_one, items]
    rfl
  rw [nextFrame, head, if_neg (List.cons_ne_nil _ _)]
  refine ⟨rfl, ?_⟩
  rw [Stream.next, Stream.size_one, items]
  rfl

theorem nextFrame_determined (maxStored readSize : Nat) :
    Determined (nextFrame maxStored readSize) := by
  intro one other same
  cases items : other.items with
  | nil =>
      rw [nextFrame_nil (same.trans items), nextFrame_nil items]
      refine ⟨rfl, ?_⟩
      rw [Stream.next, Stream.next, same, items, List.drop_nil, List.drop_nil]
  | cons first rest =>
      obtain ⟨here, left⟩ := nextFrame_cons (same.trans items)
      obtain ⟨there, left'⟩ := nextFrame_cons items
      rw [here, there]
      exact readLength_determined _ _ _ _ _ (left.trans left'.symm)

/-- What a round leaves: nothing behind the length of the frame is read. -/
theorem nextFrame_left {maxStored readSize : Nat} {stream : Stream UInt8} :
    stream.items.drop 4 <:+ (nextFrame maxStored readSize stream).2.items ∧
      (nextFrame maxStored readSize stream).2.items <:+ stream.items := by
  cases items : stream.items with
  | nil =>
      rw [nextFrame_nil items]
      have left : (stream.next 1).items = [] := by rw [Stream.next, items, List.drop_nil]
      rw [left]
      exact ⟨List.suffix_rfl, List.suffix_rfl⟩
  | cons first rest =>
      obtain ⟨here, left⟩ := nextFrame_cons items
      have takes := readLength_takes maxStored readSize [first]
      rw [here]
      constructor
      · have within := takes.within (stream.next 1)
        rwa [left] at within
      · have shrinks := takes.shrinks (stream.next 1)
        rw [left] at shrinks
        exact shrinks.trans (List.suffix_cons first rest)

/-- The length of a frame that is read. -/
theorem nextFrame_some {maxStored readSize blobLen : Nat} {stream : Stream UInt8}
    (next : (nextFrame maxStored readSize stream).1 = .ok (some blobLen)) :
    4 ≤ stream.items.length ∧ blobLen = unpack (stream.items.take 4) ∧ blobLen ≤ maxStored ∧
      (nextFrame maxStored readSize stream).2.items = stream.items.drop 4 := by
  cases items : stream.items with
  | nil =>
      rw [nextFrame_nil items] at next
      cases next
  | cons first rest =>
      obtain ⟨here, left⟩ := nextFrame_cons items
      rw [here] at next
      obtain ⟨enough, whole⟩ := (readLength_takes maxStored readSize [first]).exactly _ _ next
      obtain ⟨_, _, later⟩ := bind_eq_ok next
      obtain ⟨tail, read, later⟩ := bind_eq_ok later
      obtain ⟨_, _, later⟩ := bind_eq_ok later
      obtain ⟨_, fits, same⟩ := bind_eq_ok later
      obtain rfl := Option.some.inj (Except.ok.inj same)
      have bytes : tail = (stream.next 1).items.take 3 := readExactly_eq_ok read
      rw [left] at enough whole
      rw [here, whole]
      refine ⟨by simpa using enough, ?_, of_decide_eq_true (check_eq_ok fits), rfl⟩
      rw [bytes, left]
      rfl

variable {source limits}

/-- Every stream that is left while a frame is read keeps what is behind the frame. -/
theorem within_frame {total blobLen : Nat} {remaining : Option Nat} {rest left : Stream UInt8}
    (member : left ∈ (yieldPieces limits 0 total (source.run blobLen remaining rest).ended
      (source.run blobLen remaining rest).left
      (source.run blobLen remaining rest).pieces).1.streams) :
    rest.items.drop blobLen <:+ left.items ∧ left.items <:+ rest.items :=
  source.within blobLen remaining rest left (yieldPieces_streams limits member)

theorem Pieces.left_mem (run : Pieces) : run.left ∈ run.streams :=
  List.mem_append_right _ (List.mem_singleton.mpr rfl)

variable (source limits)

/-- `iter_decompress` after the head of the container. -/
def iterFrames (total : Nat) (stream : Stream UInt8) : Run :=
  match _next : nextFrame limits.maxStoredFrameBytes limits.readSize stream with
  | (.error failure, rest) => ⟨[], .error failure, rest⟩
  | (.ok none, rest) => ⟨[], .ok (), rest⟩
  | (.ok (some blobLen), rest) =>
      let opened := source.run blobLen (limits.maxTotalBytes.map (· - total)) rest
      let yielded := yieldPieces limits 0 total opened.ended opened.left opened.pieces
      match yielded.1.ended with
      | .error failure => ⟨[⟨stream, yielded.1.pieces⟩], .error failure, yielded.1.left⟩
      | .ok () =>
          let later := iterFrames yielded.2 yielded.1.left
          ⟨⟨stream, yielded.1.pieces⟩ :: later.frames, later.ended, later.left⟩
termination_by stream.items.length
decreasing_by
  have left := (within_frame (Pieces.left_mem yielded.1)).2.length_le
  have read := nextFrame_some (congrArg Prod.fst _next)
  rw [_next] at read
  have taken := congrArg List.length read.2.2.2
  rw [List.length_drop] at taken
  dsimp only at taken
  exact Nat.lt_of_le_of_lt left (by omega)

/-- The head of a container, after the checks of the bounds. -/
def opening (ahead : Bytes) : Reader Unit := do
  check (0 < limits.maxStoredFrameBytes) (.valueError "invalid stored frame bound")
  check (0 < limits.readSize) (.valueError "invalid read size")
  readHead limits.readSize ahead

/-- `iter_decompress`, with the part of the head that was read ahead. -/
def iterate (ahead : Bytes) (stream : Stream UInt8) : Run :=
  match opening limits ahead stream with
  | (.error failure, rest) => ⟨[], .error failure, rest⟩
  | (.ok (), rest) => iterFrames source limits 0 rest

variable {source limits} {total blobLen : Nat} {stream : Stream UInt8}

/-- A frame as it is yielded. -/
def frameOf (source : FrameSource) (limits : Limits) (total blobLen : Nat) (rest : Stream UInt8) :
    Pieces × Nat :=
  let opened := source.run blobLen (limits.maxTotalBytes.map (· - total)) rest
  yieldPieces limits 0 total opened.ended opened.left opened.pieces

theorem iterFrames_error {failure : Failure}
    (next : (nextFrame limits.maxStoredFrameBytes limits.readSize stream).1 = .error failure) :
    iterFrames source limits total stream =
      ⟨[], .error failure, (nextFrame limits.maxStoredFrameBytes limits.readSize stream).2⟩ := by
  rw [iterFrames]
  split
  case h_1 _ _ found =>
    rw [found] at next ⊢
    cases next
    rfl
  case h_2 _ found =>
    rw [found] at next
    cases next
  case h_3 _ _ found =>
    rw [found] at next
    cases next

theorem iterFrames_none
    (next : (nextFrame limits.maxStoredFrameBytes limits.readSize stream).1 = .ok none) :
    iterFrames source limits total stream =
      ⟨[], .ok (), (nextFrame limits.maxStoredFrameBytes limits.readSize stream).2⟩ := by
  rw [iterFrames]
  split
  case h_1 _ _ found =>
    rw [found] at next
    cases next
  case h_2 _ found => rw [found]
  case h_3 _ _ found =>
    rw [found] at next
    cases next

theorem iterFrames_some
    (next : (nextFrame limits.maxStoredFrameBytes limits.readSize stream).1 = .ok (some blobLen)) :
    iterFrames source limits total stream =
      let yielded := frameOf source limits total blobLen
        (nextFrame limits.maxStoredFrameBytes limits.readSize stream).2
      match yielded.1.ended with
      | .error failure => ⟨[⟨stream, yielded.1.pieces⟩], .error failure, yielded.1.left⟩
      | .ok () =>
          let later := iterFrames source limits yielded.2 yielded.1.left
          ⟨⟨stream, yielded.1.pieces⟩ :: later.frames, later.ended, later.left⟩ := by
  rw [iterFrames]
  split
  case h_1 _ _ found =>
    rw [found] at next
    cases next
  case h_2 _ found =>
    rw [found] at next
    cases next
  case h_3 _ rest found =>
    rw [found] at next ⊢
    cases next
    rfl

theorem frameOf_left
    (next : (nextFrame limits.maxStoredFrameBytes limits.readSize stream).1 = .ok (some blobLen)) :
    (frameOf source limits total blobLen
        (nextFrame limits.maxStoredFrameBytes limits.readSize stream).2).1.left.items.length <
      stream.items.length := by
  have left := (within_frame (Pieces.left_mem (frameOf source limits total blobLen
    (nextFrame limits.maxStoredFrameBytes limits.readSize stream).2).1)).2.length_le
  obtain ⟨enough, _, _, items⟩ := nextFrame_some next
  rw [items, List.length_drop] at left
  omega

def FrameRun.view (frame : FrameRun) : Bytes × List (Bytes × Bytes) :=
  (frame.start.items, frame.pieces.map fun piece => (piece.1, piece.2.items))

/-- A run up to the cuts of its streams. -/
def Run.view (run : Run) : List (Bytes × List (Bytes × Bytes)) × Except Failure Unit × Bytes :=
  (run.frames.map FrameRun.view, run.ended, run.left.items)

theorem yieldPieces_view {frameTotal : Nat} {ended : Except Failure Unit} {left left' : Stream UInt8}
    (lefts : left.items = left'.items) {pieces pieces' : List (Bytes × Stream UInt8)}
    (same : pieces.map (fun piece => (piece.1, piece.2.items)) =
      pieces'.map fun piece => (piece.1, piece.2.items)) :
    (yieldPieces limits frameTotal total ended left pieces).1.view =
        (yieldPieces limits frameTotal total ended left' pieces').1.view ∧
      (yieldPieces limits frameTotal total ended left pieces).2 =
        (yieldPieces limits frameTotal total ended left' pieces').2 := by
  induction pieces generalizing pieces' frameTotal total with
  | nil =>
      obtain rfl : pieces' = [] := List.map_eq_nil_iff.mp same.symm
      simp [yieldPieces, Pieces.view, lefts]
  | cons piece later ih =>
      cases pieces' with
      | nil => cases same
      | cons piece' later' =>
          obtain ⟨restored, rest⟩ := piece
          obtain ⟨restored', rest'⟩ := piece'
          simp only [List.map_cons, List.cons.injEq, Prod.mk.injEq] at same
          obtain ⟨⟨rfl, rests⟩, laters⟩ := same
          rw [yieldPieces, yieldPieces]
          split
          · simp [Pieces.view, rests]
          split
          · simp [Pieces.view, rests]
          obtain ⟨views, sums⟩ := @ih (total + restored.length) (frameTotal + restored.length) later' laters
          simp only [Pieces.view, Prod.mk.injEq] at views ⊢
          simp [views, sums, rests]

theorem frameOf_view {one other : Stream UInt8} (same : one.items = other.items) :
    (frameOf source limits total blobLen one).1.view = (frameOf source limits total blobLen other).1.view ∧
      (frameOf source limits total blobLen one).2 = (frameOf source limits total blobLen other).2 := by
  have views := source.determined blobLen (limits.maxTotalBytes.map (· - total)) one other same
  simp only [Pieces.view, Prod.mk.injEq] at views
  obtain ⟨pieces, ended, lefts⟩ := views
  simp only [frameOf, ended]
  exact yieldPieces_view lefts pieces

/-- Neither what is yielded nor how the iterator ends depends on how the stream is cut into reads. -/
theorem iterFrames_view {one other : Stream UInt8} (same : one.items = other.items) :
    (iterFrames source limits total one).view = (iterFrames source limits total other).view := by
  induction size : one.items.length using Nat.strongRecOn generalizing total one other with
  | ind size ih =>
    obtain ⟨results, lefts⟩ :=
      nextFrame_determined limits.maxStoredFrameBytes limits.readSize one other same
    match next : (nextFrame limits.maxStoredFrameBytes limits.readSize one).1 with
    | .error failure =>
        rw [iterFrames_error next, iterFrames_error (results ▸ next), Run.view, Run.view, lefts]
    | .ok none => rw [iterFrames_none next, iterFrames_none (results ▸ next), Run.view, Run.view, lefts]
    | .ok (some blobLen) =>
        rw [iterFrames_some next, iterFrames_some (results ▸ next)]
        obtain ⟨views, sums⟩ := @frameOf_view source limits total blobLen _ _ lefts
        simp only [Pieces.view, Prod.mk.injEq] at views
        obtain ⟨pieces, ended, left⟩ := views
        have shorter := @frameOf_left source limits total blobLen one next
        simp only [← ended, ← sums]
        match done : (frameOf source limits total blobLen
          (nextFrame limits.maxStoredFrameBytes limits.readSize one).2).1.ended with
        | .error failure => simp [Run.view, FrameRun.view, same, pieces, left]
        | .ok () =>
            have later := @ih _ (by omega) (frameOf source limits total blobLen
              (nextFrame limits.maxStoredFrameBytes limits.readSize one).2).2 _ _ left rfl
            simp only [Run.view, Prod.mk.injEq] at later ⊢
            simp [FrameRun.view, same, pieces, later]

/-- A frame with the length before it. -/
def frameLength (items : Bytes) : Nat :=
  4 + unpack (items.take 4)

/-- What is left lies in the frame that starts here. -/
def InFrame (start left : Bytes) : Prop :=
  start.drop (frameLength start) <:+ left ∧ left <:+ start

/-- The frames that were begun, one behind the other, and what is left: it is within the length of the next frame
    when that could not be read, and within the last frame when that failed. -/
inductive InOrder : Bytes → List FrameRun → Except Failure Unit → Bytes → Prop where
  | done : InOrder [] [] (.ok ()) []
  | unread {items left : Bytes} (failure : Failure) (behind : items.drop 4 <:+ left) (within : left <:+ items) :
      InOrder items [] (.error failure) left
  | failed {items left : Bytes} {frame : FrameRun} (failure : Failure) (start : frame.start.items = items)
      (pieces : ∀ piece ∈ frame.pieces, InFrame items piece.2.items) (reads : InFrame items left) :
      InOrder items [frame] (.error failure) left
  | next {items left : Bytes} {frame : FrameRun} {frames : List FrameRun} {ended : Except Failure Unit}
      (start : frame.start.items = items) (pieces : ∀ piece ∈ frame.pieces, InFrame items piece.2.items)
      (whole : frameLength items ≤ items.length)
      (later : InOrder (items.drop (frameLength items)) frames ended left) :
      InOrder items (frame :: frames) ended left

/-- While a frame is read, what is left lies in it. -/
theorem inFrame_of_frameOf {left : Stream UInt8}
    (next : (nextFrame limits.maxStoredFrameBytes limits.readSize stream).1 = .ok (some blobLen))
    (member : left ∈ (frameOf source limits total blobLen
      (nextFrame limits.maxStoredFrameBytes limits.readSize stream).2).1.streams) :
    InFrame stream.items left.items := by
  obtain ⟨within, shrinks⟩ := within_frame member
  obtain ⟨_, length, _, items⟩ := nextFrame_some next
  rw [items] at within shrinks
  rw [List.drop_drop] at within
  rw [InFrame, frameLength, ← length]
  exact ⟨within, shrinks.trans (List.drop_suffix _ _)⟩

theorem yieldPieces_ok {frameTotal : Nat} {ended : Except Failure Unit} {left : Stream UInt8}
    {pieces : List (Bytes × Stream UInt8)}
    (done : (yieldPieces limits frameTotal total ended left pieces).1.ended = .ok ()) :
    ended = .ok () ∧ (yieldPieces limits frameTotal total ended left pieces).1.left = left := by
  induction pieces generalizing frameTotal total with
  | nil => exact ⟨done, rfl⟩
  | cons piece later ih =>
      rw [yieldPieces] at done ⊢
      split at done
      · cases done
      case isFalse decoded =>
        rw [if_neg decoded]
        split at done
        · cases done
        case isFalse fits =>
          rw [if_neg fits]
          exact ih done

/-- A frame that ends is consumed exactly. -/
theorem frameOf_exactly
    (next : (nextFrame limits.maxStoredFrameBytes limits.readSize stream).1 = .ok (some blobLen))
    (ended : (frameOf source limits total blobLen
      (nextFrame limits.maxStoredFrameBytes limits.readSize stream).2).1.ended = .ok ()) :
    frameLength stream.items ≤ stream.items.length ∧
      (frameOf source limits total blobLen
        (nextFrame limits.maxStoredFrameBytes limits.readSize stream).2).1.left.items =
          stream.items.drop (frameLength stream.items) := by
  obtain ⟨done, left⟩ := yieldPieces_ok ended
  obtain ⟨whole, rest⟩ := source.exactly _ _ _ done
  obtain ⟨enough, length, _, items⟩ := nextFrame_some next
  rw [items, List.length_drop] at whole
  rw [items, List.drop_drop] at rest
  rw [frameOf, left, rest, frameLength, ← length]
  exact ⟨by omega, rfl⟩

theorem nextFrame_eq_none
    (next : (nextFrame limits.maxStoredFrameBytes limits.readSize stream).1 = .ok none) :
    stream.items = [] ∧ (nextFrame limits.maxStoredFrameBytes limits.readSize stream).2.items = [] := by
  cases items : stream.items with
  | nil =>
      rw [nextFrame_nil items]
      exact ⟨rfl, by rw [Stream.next, items, List.drop_nil]⟩
  | cons first rest =>
      rw [(nextFrame_cons items).1] at next
      obtain ⟨_, _, later⟩ := bind_eq_ok next
      obtain ⟨_, _, later⟩ := bind_eq_ok later
      obtain ⟨_, _, later⟩ := bind_eq_ok later
      obtain ⟨_, _, last⟩ := bind_eq_ok later
      cases last

/-- Every frame is begun where the one before it ends, and nothing behind the one that is being read is read. -/
theorem iterFrames_inOrder : InOrder stream.items (iterFrames source limits total stream).frames
    (iterFrames source limits total stream).ended (iterFrames source limits total stream).left.items := by
  induction size : stream.items.length using Nat.strongRecOn generalizing total stream with
  | ind size ih =>
    match next : (nextFrame limits.maxStoredFrameBytes limits.readSize stream).1 with
    | .error failure =>
        rw [iterFrames_error next]
        obtain ⟨behind, within⟩ := @nextFrame_left limits.maxStoredFrameBytes limits.readSize stream
        exact .unread failure behind within
    | .ok none =>
        rw [iterFrames_none next]
        obtain ⟨empty, left⟩ := nextFrame_eq_none next
        dsimp only
        rw [empty, left]
        exact .done
    | .ok (some blobLen) =>
        rw [iterFrames_some next]
        have lies := fun left => @inFrame_of_frameOf source limits total blobLen stream left next
        have pieces : ∀ piece ∈ (frameOf source limits total blobLen
            (nextFrame limits.maxStoredFrameBytes limits.readSize stream).2).1.pieces,
            InFrame stream.items piece.2.items := fun piece member =>
          lies piece.2 (List.mem_append_left _ (List.mem_map_of_mem member))
        have shorter := @frameOf_left source limits total blobLen stream next
        dsimp only
        match done : (frameOf source limits total blobLen
          (nextFrame limits.maxStoredFrameBytes limits.readSize stream).2).1.ended with
        | .error failure => exact .failed failure rfl pieces (lies _ (Pieces.left_mem _))
        | .ok () =>
            obtain ⟨whole, rest⟩ := frameOf_exactly next done
            have later := @ih _ (size ▸ shorter) (frameOf source limits total blobLen
              (nextFrame limits.maxStoredFrameBytes limits.readSize stream).2).2 _ rfl
            rw [rest] at later
            exact .next rfl pieces whole later

theorem yieldPieces_sublist {frameTotal : Nat} {ended : Except Failure Unit} {left : Stream UInt8}
    {pieces : List (Bytes × Stream UInt8)} :
    (yieldPieces limits frameTotal total ended left pieces).1.pieces.Sublist pieces := by
  induction pieces generalizing frameTotal total with
  | nil => exact .slnil
  | cons piece later ih =>
      rw [yieldPieces]
      split
      · exact List.nil_sublist _
      split
      · exact List.nil_sublist _
      exact ih.cons_cons piece

/-- What all pieces of a source have, all that is yielded has. -/
theorem iterFrames_pieces {holds : Bytes → Prop}
    (given : ∀ storedLength remaining stream, ∀ piece ∈ (source.run storedLength remaining stream).pieces,
      holds piece.1) :
    ∀ frame ∈ (iterFrames source limits total stream).frames, ∀ piece ∈ frame.pieces, holds piece.1 := by
  induction size : stream.items.length using Nat.strongRecOn generalizing total stream with
  | ind size ih =>
    match next : (nextFrame limits.maxStoredFrameBytes limits.readSize stream).1 with
    | .error failure =>
        rw [iterFrames_error next]
        simp
    | .ok none =>
        rw [iterFrames_none next]
        simp
    | .ok (some blobLen) =>
        rw [iterFrames_some next]
        have pieces : ∀ piece ∈ (frameOf source limits total blobLen
            (nextFrame limits.maxStoredFrameBytes limits.readSize stream).2).1.pieces, holds piece.1 :=
          fun piece member => given _ _ _ piece (yieldPieces_sublist.subset member)
        have shorter := @frameOf_left source limits total blobLen stream next
        dsimp only
        match done : (frameOf source limits total blobLen
          (nextFrame limits.maxStoredFrameBytes limits.readSize stream).2).1.ended with
        | .error failure => simpa using fun piece rest member => pieces (piece, rest) member
        | .ok () => exact List.forall_mem_cons.mpr ⟨pieces, @ih _ (size ▸ shorter) _ _ rfl⟩

/-- What the pieces of a frame have together. -/
def yieldedBytes (pieces : List (Bytes × Stream UInt8)) : Nat :=
  (pieces.map fun piece => piece.1.length).sum

theorem yieldPieces_total {frameTotal : Nat} {ended : Except Failure Unit} {left : Stream UInt8}
    {pieces : List (Bytes × Stream UInt8)} :
    (yieldPieces limits frameTotal total ended left pieces).2 =
      total + yieldedBytes (yieldPieces limits frameTotal total ended left pieces).1.pieces := by
  induction pieces generalizing frameTotal total with
  | nil => rfl
  | cons piece later ih =>
      rw [yieldPieces]
      split
      · rfl
      split
      · rfl
      simp only [ih, yieldedBytes, List.map_cons, List.sum_cons]
      omega

theorem yieldPieces_limits {frameTotal : Nat} {ended : Except Failure Unit} {left : Stream UInt8}
    {pieces : List (Bytes × Stream UInt8)} :
    (∀ bound ∈ limits.maxDecodedFrameBytes, frameTotal ≤ bound → frameTotal +
        yieldedBytes (yieldPieces limits frameTotal total ended left pieces).1.pieces ≤ bound) ∧
      ∀ bound ∈ limits.maxTotalBytes, total ≤ bound → total +
        yieldedBytes (yieldPieces limits frameTotal total ended left pieces).1.pieces ≤ bound := by
  induction pieces generalizing frameTotal total with
  | nil => exact ⟨fun _ _ fits => fits, fun _ _ fits => fits⟩
  | cons piece later ih =>
      rw [yieldPieces]
      split
      · exact ⟨fun _ _ fits => fits, fun _ _ fits => fits⟩
      case isFalse decoded =>
        split
        · exact ⟨fun _ _ fits => fits, fun _ _ fits => fits⟩
        case isFalse fits =>
          obtain ⟨frame, whole⟩ := @ih (total + piece.1.length) (frameTotal + piece.1.length)
          simp only [Option.any_eq_true, decide_eq_true_eq, not_exists, not_and, Nat.not_lt] at decoded fits
          simp only [yieldedBytes, List.map_cons, List.sum_cons] at frame whole ⊢
          constructor
          · intro bound limit _
            have := frame bound limit (decoded bound limit)
            omega
          · intro bound limit _
            have := whole bound limit (fits bound limit)
            omega

theorem frameOf_limits {rest : Stream UInt8} :
    (∀ bound ∈ limits.maxDecodedFrameBytes,
        yieldedBytes (frameOf source limits total blobLen rest).1.pieces ≤ bound) ∧
      ∀ bound ∈ limits.maxTotalBytes, total ≤ bound →
        total + yieldedBytes (frameOf source limits total blobLen rest).1.pieces ≤ bound := by
  obtain ⟨frame, whole⟩ := @yieldPieces_limits limits total 0
    (source.run blobLen (limits.maxTotalBytes.map (· - total)) rest).ended
    (source.run blobLen (limits.maxTotalBytes.map (· - total)) rest).left
    (source.run blobLen (limits.maxTotalBytes.map (· - total)) rest).pieces
  refine ⟨fun bound limit => ?_, whole⟩
  have within := frame bound limit (Nat.zero_le bound)
  rwa [Nat.zero_add] at within

theorem frameOf_total (source : FrameSource) (limits : Limits) (total blobLen : Nat)
    (rest : Stream UInt8) :
    (frameOf source limits total blobLen rest).2 =
      total + yieldedBytes (frameOf source limits total blobLen rest).1.pieces :=
  yieldPieces_total

/-- A frame is only begun when its stored length is within the bound, and what is yielded of it, and in
    all, stays within the bounds. -/
theorem iterFrames_limits :
    (∀ frame ∈ (iterFrames source limits total stream).frames,
        unpack (frame.start.items.take 4) ≤ limits.maxStoredFrameBytes ∧
        ∀ bound ∈ limits.maxDecodedFrameBytes, yieldedBytes frame.pieces ≤ bound) ∧
      ∀ bound ∈ limits.maxTotalBytes, total ≤ bound →
        total + ((iterFrames source limits total stream).frames.map
          fun frame => yieldedBytes frame.pieces).sum ≤ bound := by
  induction size : stream.items.length using Nat.strongRecOn generalizing total stream with
  | ind size ih =>
    match next : (nextFrame limits.maxStoredFrameBytes limits.readSize stream).1 with
    | .error failure =>
        rw [iterFrames_error next]
        exact ⟨nofun, fun _ _ fits => fits⟩
    | .ok none =>
        rw [iterFrames_none next]
        exact ⟨nofun, fun _ _ fits => fits⟩
    | .ok (some blobLen) =>
        rw [iterFrames_some next]
        obtain ⟨_, length, stored, _⟩ := nextFrame_some next
        obtain ⟨decoded, whole⟩ := @frameOf_limits source limits total blobLen
          (nextFrame limits.maxStoredFrameBytes limits.readSize stream).2
        have shorter := @frameOf_left source limits total blobLen stream next
        dsimp only
        match done : (frameOf source limits total blobLen
          (nextFrame limits.maxStoredFrameBytes limits.readSize stream).2).1.ended with
        | .error failure =>
            refine ⟨fun frame member => ?_, fun bound limit fits => ?_⟩
            · rw [List.mem_singleton.mp member]
              exact ⟨length ▸ stored, decoded⟩
            · simpa using whole bound limit fits
        | .ok () =>
            obtain ⟨frames, sums⟩ := @ih _ (size ▸ shorter)
              (frameOf source limits total blobLen
                (nextFrame limits.maxStoredFrameBytes limits.readSize stream).2).2 _ rfl
            refine ⟨fun frame member => ?_, fun bound limit fits => ?_⟩
            · rcases List.mem_cons.mp member with rfl | later
              · exact ⟨length ▸ stored, decoded⟩
              · exact frames frame later
            · have sum := frameOf_total source limits total blobLen
                (nextFrame limits.maxStoredFrameBytes limits.readSize stream).2
              have here := whole bound limit fits
              have behind := sums bound limit (by omega)
              rw [List.map_cons, List.sum_cons]
              dsimp only
              omega

theorem opening_determined (limits : Limits) (ahead : Bytes) : Determined (opening limits ahead) := by
  refine (determined_given _).bind fun _ => (determined_given _).bind fun _ => ?_
  refine (determined_given _).bind fun _ => ?_
  exact (readExactly_determined _ _).bind fun _ => determined_given _

theorem opening_takes (limits : Limits) (ahead : Bytes) :
    Takes (magic.length - ahead.length) (opening limits ahead) := by
  have compared : ∀ rest : Bytes, Takes 0 (check (ahead ++ rest == magic)
      (.streamZnnError s!"bad magic {ahead ++ rest}: not a StreamZNN container") : Reader Unit) :=
    fun _ => takes_given _
  have read := (readExactly_takes limits.readSize (magic.length - ahead.length)).bind
    fun _ rest _ => compared rest
  have whole : Takes (0 + (0 + (0 + (magic.length - ahead.length + 0)))) (opening limits ahead) :=
    (takes_given _).bind fun _ _ _ => (takes_given _).bind fun _ _ _ =>
      (takes_given _).bind fun _ _ _ => read
  rwa [Nat.zero_add, Nat.zero_add, Nat.zero_add, Nat.add_zero] at whole

theorem iterate_error {ahead : Bytes} {failure : Failure}
    (opens : (opening limits ahead stream).1 = .error failure) :
    iterate source limits ahead stream = ⟨[], .error failure, (opening limits ahead stream).2⟩ := by
  rw [iterate]
  generalize opening limits ahead stream = opened at opens
  obtain ⟨_, rest⟩ := opened
  obtain rfl : _ = Except.error failure := opens
  rfl

theorem iterate_ok {ahead : Bytes} (opens : (opening limits ahead stream).1 = .ok ()) :
    iterate source limits ahead stream =
      iterFrames source limits 0 (opening limits ahead stream).2 := by
  rw [iterate]
  generalize opening limits ahead stream = opened at opens
  obtain ⟨_, rest⟩ := opened
  obtain rfl : _ = Except.ok () := opens
  rfl

end Iterator

theorem Pieces.ofReader_ok {reader : Reader Bytes} {stream : Stream UInt8} {restored : Bytes}
    (read : (reader stream).1 = .ok restored) :
    Pieces.ofReader reader stream =
      ⟨[(restored, (reader stream).2)], .ok (), (reader stream).2⟩ := by
  rw [Pieces.ofReader]
  generalize reader stream = outcome at read
  obtain ⟨_, rest⟩ := outcome
  obtain rfl : _ = Except.ok restored := read
  rfl

theorem Pieces.ofReader_error {reader : Reader Bytes} {stream : Stream UInt8} {failure : Failure}
    (read : (reader stream).1 = .error failure) :
    Pieces.ofReader reader stream = ⟨[], .error failure, (reader stream).2⟩ := by
  rw [Pieces.ofReader]
  generalize reader stream = outcome at read
  obtain ⟨_, rest⟩ := outcome
  obtain rfl : _ = Except.error failure := read
  rfl

/-- A `frame_reader` that takes its frame and does not depend on the reads. -/
def FrameSource.ofReader (reader : Nat → Option Nat → Reader Bytes)
    (determined : ∀ storedLength remaining, Determined (reader storedLength remaining))
    (takes : ∀ storedLength remaining, Takes storedLength (reader storedLength remaining)) :
    FrameSource where
  run storedLength remaining := Pieces.ofReader (reader storedLength remaining)
  determined := by
    intro storedLength remaining one other same
    obtain ⟨results, lefts⟩ := determined storedLength remaining one other same
    cases read : (reader storedLength remaining one).1 with
    | ok restored =>
        rw [Pieces.ofReader_ok read, Pieces.ofReader_ok (results ▸ read)]
        simp [Pieces.view, lefts]
    | error failure =>
        rw [Pieces.ofReader_error read, Pieces.ofReader_error (results ▸ read)]
        simp [Pieces.view, lefts]
  within := by
    intro storedLength remaining stream left member
    have only : left = (reader storedLength remaining stream).2 := by
      cases read : (reader storedLength remaining stream).1 with
      | ok restored =>
          rw [Pieces.ofReader_ok read] at member
          simpa [Pieces.streams] using member
      | error failure =>
          rw [Pieces.ofReader_error read] at member
          simpa [Pieces.streams] using member
    rw [only]
    exact ⟨(takes storedLength remaining).within stream, (takes storedLength remaining).shrinks stream⟩
  exactly := by
    intro storedLength remaining stream ended
    cases read : (reader storedLength remaining stream).1 with
    | ok restored =>
        rw [Pieces.ofReader_ok read]
        exact (takes storedLength remaining).exactly stream restored read
    | error failure =>
        rw [Pieces.ofReader_error read] at ended
        cases ended

/-- The default decoding of `iter_decompress`. -/
def nativeReader (decompress : Bytes → Except Failure Bytes) (readSize storedLength : Nat) :
    Reader Bytes := do
  let blob ← readExactly readSize storedLength
  given (decompress blob)

def nativeSource (decompress : Bytes → Except Failure Bytes) (readSize : Nat) : FrameSource :=
  .ofReader (fun storedLength _ => nativeReader decompress readSize storedLength)
    (fun _ _ => (readExactly_determined _ _).bind fun _ => determined_given _)
    fun storedLength _ => (readExactly_takes readSize storedLength).bind fun _ _ _ => takes_given _

/-- `read_zipnn_frame` as the `frame_reader`. -/
def validatedSource (native : Bytes → Except Failure Bytes)
    (decode : Option (Bytes → Except Failure Bytes)) (bounds : FrameBounds) : FrameSource :=
  .ofReader (fun storedLength remaining =>
      readZipnnFrame native decode bounds remaining (some storedLength) [])
    (fun _ _ => readZipnnFrame_determined) fun storedLength _ => readZipnnFrame_takes storedLength

theorem validatedSource_pieces {native : Bytes → Except Failure Bytes}
    {decode : Option (Bytes → Except Failure Bytes)} {bounds : FrameBounds} (storedLength : Nat)
    (remaining : Option Nat) (stream : Stream UInt8) :
    ∀ piece ∈ ((validatedSource native decode bounds).run storedLength remaining stream).pieces,
      piece.1.length ≤ bounds.maxDecodedBytes := by
  intro piece member
  have one : (validatedSource native decode bounds).run storedLength remaining stream =
    Pieces.ofReader (readZipnnFrame native decode bounds remaining (some storedLength) []) stream := rfl
  rw [one] at member
  cases read : (readZipnnFrame native decode bounds remaining (some storedLength) [] stream).1 with
  | ok restored =>
      rw [Pieces.ofReader_ok read] at member
      rw [List.mem_singleton.mp member]
      exact (length_of_readZipnnFrame read).1
  | error failure =>
      rw [Pieces.ofReader_error read] at member
      cases member

/-- `iter_decompress` over any source of frames gives the same for all ways to cut the stream into reads,
    reads nothing behind the frame it is in, only begins frames within the stored bound and yields
    nothing beyond the others; `read_zipnn_frame` reads a payload only behind a header within its bounds,
    and gives as much as the header says. -/
theorem iterate_bounded (source : FrameSource) (limits : Limits) (ahead : Bytes) :
    (∀ one other, one.items = other.items →
      (iterate source limits ahead one).view = (iterate source limits ahead other).view) ∧
    (∀ stream,
      ((iterate source limits ahead stream).frames = [] ∧
        stream.items.drop (magic.length - ahead.length) <:+ (iterate source limits ahead stream).left.items) ∨
      InOrder (stream.items.drop (magic.length - ahead.length)) (iterate source limits ahead stream).frames
        (iterate source limits ahead stream).ended (iterate source limits ahead stream).left.items) ∧
    (∀ stream,
      (∀ frame ∈ (iterate source limits ahead stream).frames,
        unpack (frame.start.items.take 4) ≤ limits.maxStoredFrameBytes ∧
          ∀ bound ∈ limits.maxDecodedFrameBytes, yieldedBytes frame.pieces ≤ bound) ∧
      ∀ bound ∈ limits.maxTotalBytes, ((iterate source limits ahead stream).frames.map
        fun frame => yieldedBytes frame.pieces).sum ≤ bound) ∧
    (∀ native decode bounds stream,
      ∀ frame ∈ (iterate (validatedSource native decode bounds) limits ahead stream).frames,
        ∀ piece ∈ frame.pieces, piece.1.length ≤ bounds.maxDecodedBytes) ∧
    ∀ native decode bounds remaining storedLength read stream,
      (∀ decoded, (readZipnnFrame native decode bounds remaining storedLength read stream).1 =
          .ok decoded → decoded.length ≤ bounds.maxDecodedBytes ∧
            ∃ most, remaining = some most ∧ decoded.length ≤ most) ∧
      (¬stream.items.drop (32 - read.length) <:+
          (readZipnnFrame native decode bounds remaining storedLength read stream).2.items →
        storedSize (read ++ stream.items.take (32 - read.length)) ≤ bounds.maxStoredBytes ∧
          originalSize (read ++ stream.items.take (32 - read.length)) ≤ bounds.maxDecodedBytes ∧
          ∃ most, remaining = some most ∧
            originalSize (read ++ stream.items.take (32 - read.length)) ≤ most) := by
  refine ⟨?_, ?_, ?_, ?_, ?_⟩
  · intro one other same
    obtain ⟨results, lefts⟩ := opening_determined limits ahead one other same
    cases opens : (opening limits ahead one).1 with
    | error failure =>
        rw [iterate_error opens, iterate_error (results ▸ opens), Run.view, Run.view, lefts]
    | ok =>
        rw [iterate_ok opens, iterate_ok (results ▸ opens)]
        exact iterFrames_view lefts
  · intro stream
    cases opens : (opening limits ahead stream).1 with
    | error failure =>
        rw [iterate_error opens]
        exact Or.inl ⟨rfl, (opening_takes limits ahead).within stream⟩
    | ok =>
        rw [iterate_ok opens, ← ((opening_takes limits ahead).exactly stream () opens).2]
        exact Or.inr iterFrames_inOrder
  · intro stream
    cases opens : (opening limits ahead stream).1 with
    | error failure =>
        rw [iterate_error opens]
        exact ⟨nofun, fun bound _ => Nat.zero_le bound⟩
    | ok =>
        rw [iterate_ok opens]
        refine iterFrames_limits.imp_right fun sums bound limit => ?_
        have within := sums bound limit (Nat.zero_le bound)
        rwa [Nat.zero_add] at within
  · intro native decode bounds stream
    cases opens : (opening limits ahead stream).1 with
    | error failure =>
        rw [iterate_error opens]
        simp
    | ok =>
        rw [iterate_ok opens]
        exact @iterFrames_pieces (validatedSource native decode bounds) limits 0 _
          (fun restored => restored.length ≤ bounds.maxDecodedBytes) validatedSource_pieces
  · intro native decode bounds remaining storedLength read stream
    refine ⟨fun decoded succeeds => length_of_readZipnnFrame succeeds, fun behind => ?_⟩
    exact header_of_payload behind

/-- A codec that restores three bytes from any blob. -/
def tripled (_blob : Bytes) : Except Failure Bytes :=
  .ok [1, 2, 3]

def tripledLimits : Limits := { maxDecodedFrameBytes := some 2 }

/-- A container, of which some reads have left the items. -/
def tripledStream (items : Bytes) (reads : Nat) : Stream UInt8 :=
  ⟨items, fun _ => 1, reads⟩

theorem iterate_bounded_tripled :
    (iterate (nativeSource tripled hashRead) tripledLimits []
        ⟨magic ++ packed 1 ++ [7], fun _ => 1, 0⟩).view =
      (iterate (nativeSource tripled hashRead) tripledLimits []
        ⟨magic ++ packed 1 ++ [7], fun reads => 3 + reads, 0⟩).view :=
  (iterate_bounded (nativeSource tripled hashRead) tripledLimits []).1 _ _ rfl

theorem tripled_blob : readExactly hashRead 1 (tripledStream [7] 9) = (.ok [7], tripledStream [] 10) := by
  simp [readExactly, exactLoop, Stream.read, Stream.size, Stream.next, hashRead, tripledStream]

/-- A frame that decodes to more than its bound is decoded before it is refused. -/
theorem tripled_buffered :
    (iterate (nativeSource tripled hashRead) tripledLimits []
        (tripledStream (magic ++ packed 1 ++ [7]) 0)).ended =
      .error (.decodeLimitExceeded "decoded StreamZNN frame exceeds bound") ∧
    ((nativeSource tripled hashRead).run 1 none (tripledStream [7] 9)).pieces =
      [([1, 2, 3], tripledStream [] 10)] ∧
    tripledLimits.maxDecodedFrameBytes = some 2 := by
  have opens : opening tripledLimits [] (tripledStream (magic ++ packed 1 ++ [7]) 0) =
      (.ok (), tripledStream (packed 1 ++ [7]) 5) := by
    simp [opening, readHead, bind, check, given, readExactly, exactLoop, Stream.read, Stream.size,
      Stream.next, tripledStream, tripledLimits, magic, hashRead, maxBlob, packed]
  have next : nextFrame tripledLimits.maxStoredFrameBytes tripledLimits.readSize
      (tripledStream (packed 1 ++ [7]) 5) = (.ok (some 1), tripledStream [7] 9) := by
    simp [nextFrame, readLength, bind, check, given, readExactly, exactLoop, Stream.read, Stream.size,
      Stream.next, tripledStream, tripledLimits, hashRead, maxBlob, packed, unpack]
    rfl
  have native : nativeReader tripled hashRead 1 (tripledStream [7] 9) =
      (.ok [1, 2, 3], tripledStream [] 10) := by
    rw [nativeReader, bind_ok (congrArg Prod.fst tripled_blob), tripled_blob]
    rfl
  have run : (nativeSource tripled hashRead).run 1 none (tripledStream [7] 9) =
      ⟨[([1, 2, 3], tripledStream [] 10)], .ok (), tripledStream [] 10⟩ := by
    have one : (nativeSource tripled hashRead).run 1 none (tripledStream [7] 9) =
        Pieces.ofReader (nativeReader tripled hashRead 1) (tripledStream [7] 9) := rfl
    rw [one, Pieces.ofReader_ok (congrArg Prod.fst native), native]
  refine ⟨?_, congrArg Pieces.pieces run, rfl⟩
  rw [iterate_ok (congrArg Prod.fst opens), opens, iterFrames_some (congrArg Prod.fst next), next]
  simp only [frameOf, tripledLimits, Option.map_none, run]
  rfl

end Modelark.StreamZnn
