import Modelark.Originals.Workers

/-!
# StreamZNN containers

`iter_decompress` over the frames of an execution: what it yields is never empty, ends well only at the end
of a sequence of complete frames, and fails with a refusal.
-/

namespace Modelark.Originals

open Library Reading StreamZnn

/-- The pieces of a frame, when the reader has taken the whole of it before it hands on the first. -/
def handedPieces (reader : Reader Handed) (stream : Stream UInt8) : Pieces :=
  match reader stream with
  | (.ok handed, rest) => ⟨handed.pieces.map (·, rest), handed.ended, rest⟩
  | (.error failure, rest) => ⟨[], .error failure, rest⟩

section Handed

variable {reader : Reader Handed} {stream : Stream UInt8}

theorem handedPieces_ok {handed : Handed} (read : (reader stream).1 = .ok handed) :
    handedPieces reader stream =
      ⟨handed.pieces.map (·, (reader stream).2), handed.ended, (reader stream).2⟩ := by
  rw [handedPieces]
  generalize reader stream = outcome at read
  obtain ⟨_, rest⟩ := outcome
  obtain rfl : _ = Except.ok handed := read
  rfl

theorem handedPieces_error {failure : Failure} (read : (reader stream).1 = .error failure) :
    handedPieces reader stream = ⟨[], .error failure, (reader stream).2⟩ := by
  rw [handedPieces]
  generalize reader stream = outcome at read
  obtain ⟨_, rest⟩ := outcome
  obtain rfl : _ = Except.error failure := read
  rfl

theorem handedPieces_streams {left : Stream UInt8} (member : left ∈ (handedPieces reader stream).streams) :
    left = (reader stream).2 := by
  cases read : (reader stream).1 with
  | ok handed =>
      rw [handedPieces_ok read, Pieces.streams] at member
      simp only [List.map_map, List.mem_append, List.mem_map, Function.comp_apply,
        List.mem_singleton] at member
      rcases member with ⟨_, _, rfl⟩ | rfl <;> rfl
  | error failure =>
      rw [handedPieces_error read] at member
      exact List.mem_singleton.mp member

end Handed

/-- The frames of an execution: the `frame_reader` or the `frame_stream` of `_decoded_chunks`. -/
def frameSource (native : Bytes → Except Failure Bytes) (limits : DecodeLimits) (execution : Execution) :
    FrameSource where
  run storedLength remaining :=
    handedPieces (frame native limits execution (some storedLength) remaining [])
  determined := by
    intro storedLength remaining one other same
    obtain ⟨results, lefts⟩ := frame_determined one other same
    cases read : (frame native limits execution (some storedLength) remaining [] one).1 with
    | ok handed =>
        rw [handedPieces_ok read, handedPieces_ok (results ▸ read)]
        simp [Pieces.view, lefts]
    | error failure =>
        rw [handedPieces_error read, handedPieces_error (results ▸ read)]
        simp [Pieces.view, lefts]
  within := by
    intro storedLength remaining stream left member
    rw [handedPieces_streams member]
    have takes : Takes storedLength (frame native limits execution (some storedLength) remaining []) :=
      frame_takes storedLength
    exact ⟨takes.within stream, takes.shrinks stream⟩
  exactly := by
    intro storedLength remaining stream ended
    cases read : (frame native limits execution (some storedLength) remaining [] stream).1 with
    | ok handed =>
        rw [handedPieces_ok read]
        exact (frame_takes storedLength).exactly stream handed read
    | error failure =>
        rw [handedPieces_error read] at ended
        cases ended

/-- The body of a container: frames behind their lengths, and what they decode to. -/
inductive Frames (native : Bytes → Except Failure Bytes) : Bytes → Bytes → Prop where
  | nil : Frames native [] []
  | cons {head blob decoded rest more : Bytes} (length : head.length = 4)
      (size : unpack head = blob.length) (frame : ZipnnFrame native blob decoded)
      (later : Frames native rest more) :
      Frames native (head ++ (blob ++ rest)) (decoded ++ more)

/-- A body is no proper beginning of another one that decodes to as much. -/
theorem Frames.eq_of_append {native : Bytes → Except Failure Bytes} {one other d e x : Bytes}
    (frames : Frames native one d) (frames' : Frames native other e) (more : one ++ x = other)
    (length : d.length = e.length) : x = [] := by
  induction frames generalizing other e with
  | nil =>
      cases frames' with
      | nil => exact more
      | cons _ _ frame _ =>
          have some := List.length_pos_of_ne_nil frame.nonempty
          rw [List.length_append, List.length_nil] at length
          omega
  | @cons head blob decoded rest behind four size frame later ih =>
      cases frames' with
      | nil =>
          have lengths := congrArg List.length more
          simp only [List.length_append, List.length_nil] at lengths
          omega
      | @cons head' blob' decoded' rest' behind' four' size' frame' later' =>
          rw [List.append_assoc, List.append_assoc] at more
          obtain ⟨rfl, bodies⟩ := List.append_inj more (four.trans four'.symm)
          obtain ⟨rfl, rests⟩ := List.append_inj bodies (size.symm.trans size')
          obtain rfl := Except.ok.inj (frame.decodes.symm.trans frame'.decodes)
          rw [List.length_append, List.length_append] at length
          exact ih later' rests (by omega)

section Iterating

variable {native : Bytes → Except Failure Bytes} {limits : DecodeLimits} {execution : Execution}
  {bounds : Limits}

theorem yieldPieces_eq_ok {frameTotal total : Nat} {ended : Except Failure Unit} {left : Stream UInt8}
    {pieces : List (Bytes × Stream UInt8)}
    (ends : (yieldPieces bounds frameTotal total ended left pieces).1.ended = .ok ()) :
    (yieldPieces bounds frameTotal total ended left pieces).1 = ⟨pieces, ended, left⟩ := by
  induction pieces generalizing frameTotal total with
  | nil => rfl
  | cons piece later ih =>
      obtain ⟨restored, rest⟩ := piece
      rw [yieldPieces] at ends ⊢
      split at ends
      case isTrue => cases ends
      case isFalse fits =>
        split at ends
        case isTrue => cases ends
        case isFalse fits' =>
          rw [if_neg fits, if_neg fits']
          dsimp only at ends ⊢
          rw [ih ends]

theorem yieldPieces_error {frameTotal total : Nat} {ended : Except Failure Unit} {left : Stream UInt8}
    {pieces : List (Bytes × Stream UInt8)} {failure : Failure}
    (fails : (yieldPieces bounds frameTotal total ended left pieces).1.ended = .error failure) :
    ended = .error failure ∨ failure.isStreamZnnError = true := by
  induction pieces generalizing frameTotal total with
  | nil => exact .inl fails
  | cons piece later ih =>
      obtain ⟨restored, rest⟩ := piece
      rw [yieldPieces] at fails
      split at fails
      case isTrue =>
        cases fails
        exact .inr rfl
      case isFalse =>
        split at fails
        case isTrue =>
          cases fails
          exact .inr rfl
        case isFalse => exact ih fails

theorem mem_of_yieldPieces {frameTotal total : Nat} {ended : Except Failure Unit} {left : Stream UInt8}
    {pieces : List (Bytes × Stream UInt8)} {piece : Bytes × Stream UInt8}
    (member : piece ∈ (yieldPieces bounds frameTotal total ended left pieces).1.pieces) :
    piece ∈ pieces := by
  induction pieces generalizing frameTotal total with
  | nil => exact member
  | cons first later ih =>
      obtain ⟨restored, rest⟩ := first
      rw [yieldPieces] at member
      split at member
      case isTrue => cases member
      case isFalse =>
        split at member
        case isTrue => cases member
        case isFalse =>
          rcases List.mem_cons.mp member with rfl | behind
          · exact List.mem_cons_self
          · exact List.mem_cons_of_mem _ (ih behind)

/-- The chunks that a run yields. -/
def chunksOf (run : Run) : List Bytes :=
  (run.frames.map fun frame => frame.pieces.map Prod.fst).flatten

theorem nextFrame_error {maxStored readSize : Nat} {stream : Stream UInt8} {failure : Failure}
    (fails : (nextFrame maxStored readSize stream).1 = .error failure) :
    failure.isStreamZnnError = true := by
  cases items : stream.items with
  | nil =>
      rw [nextFrame_nil items] at fails
      cases fails
  | cons first rest =>
      rw [(nextFrame_cons items).1] at fails
      rcases bind_eq_error fails with one | ⟨_, _, later⟩
      · cases one
      rcases bind_eq_error later with tail | ⟨tail, _, later⟩
      · exact readExactly_error tail
      rcases bind_eq_error later with none | ⟨_, _, later⟩
      · change (if _ then _ else _) = _ at none
        split at none <;> cases none
        rfl
      rcases bind_eq_error later with long | ⟨_, _, later⟩
      · change (if _ then _ else _) = _ at long
        split at long <;> cases long
        rfl
      · cases later

/-- A length that is read is not zero. -/
theorem nextFrame_pos {maxStored readSize blobLen : Nat} {stream : Stream UInt8}
    (next : (nextFrame maxStored readSize stream).1 = .ok (some blobLen)) : 0 < blobLen := by
  cases items : stream.items with
  | nil =>
      rw [nextFrame_nil items] at next
      cases next
  | cons first rest =>
      rw [(nextFrame_cons items).1] at next
      obtain ⟨_, _, later⟩ := bind_eq_ok next
      obtain ⟨tail, _, later⟩ := bind_eq_ok later
      obtain ⟨_, some, later⟩ := bind_eq_ok later
      obtain ⟨_, _, same⟩ := bind_eq_ok later
      obtain rfl := Option.some.inj (Except.ok.inj same)
      exact Nat.pos_of_ne_zero (bne_iff_ne.mp (check_eq_ok some))

theorem nextFrame_none {maxStored readSize : Nat} {stream : Stream UInt8}
    (next : (nextFrame maxStored readSize stream).1 = .ok none) : stream.items = [] := by
  cases items : stream.items with
  | nil => rfl
  | cons first rest =>
      rw [(nextFrame_cons items).1] at next
      obtain ⟨_, _, later⟩ := bind_eq_ok next
      obtain ⟨tail, _, later⟩ := bind_eq_ok later
      obtain ⟨_, _, later⟩ := bind_eq_ok later
      obtain ⟨_, _, same⟩ := bind_eq_ok later
      cases same

/-- A frame of a container that ends well. -/
theorem frameOf_eq_ok {total blobLen : Nat} {rest : Stream UInt8}
    (ends : (frameOf (frameSource native limits execution) bounds total blobLen rest).1.ended = .ok ()) :
    ∃ blob decoded, ZipnnFrame native blob decoded ∧ blob.length = blobLen ∧
      ((frameOf (frameSource native limits execution) bounds total blobLen rest).1.pieces.map
        Prod.fst).flatten = decoded ∧
      blob ++ (frameOf (frameSource native limits execution) bounds total blobLen rest).1.left.items =
        rest.items := by
  have same := yieldPieces_eq_ok ends
  change (frameOf (frameSource native limits execution) bounds total blobLen rest).1 =
    handedPieces (frame native limits execution (some blobLen) (bounds.maxTotalBytes.map (· - total)) [])
      rest at same
  rw [same] at ends ⊢
  cases read : (frame native limits execution (some blobLen)
      (bounds.maxTotalBytes.map (· - total)) [] rest).1 with
  | error failure =>
      rw [handedPieces_error read] at ends
      cases ends
  | ok handed =>
      rw [handedPieces_ok read] at ends ⊢
      obtain ⟨blob, items, sound, length⟩ := frame_eq_ok read
      refine ⟨blob, handed.pieces.flatten, sound.complete ends, ?_, ?_, items⟩
      · simpa using length
      · simp [List.map_map, Function.comp_def]

theorem frameOf_error {total blobLen : Nat} {rest : Stream UInt8} {failure : Failure}
    (whole : bounds.maxTotalBytes.isSome) (some : 0 < blobLen)
    (fails : (frameOf (frameSource native limits execution) bounds total blobLen rest).1.ended =
      .error failure) : Refuses failure := by
  rcases yieldPieces_error fails with fails | exceeds
  · change (handedPieces _ rest).ended = _ at fails
    cases read : (frame native limits execution (.some blobLen)
        (bounds.maxTotalBytes.map (· - total)) [] rest).1 with
    | error other =>
        rw [handedPieces_error read] at fails
        rw [← Except.error.inj fails]
        exact frame_error (by simpa using whole) (show ([] : Bytes).length ≤ 32 by simp)
          (by simpa using some) read
    | ok handed =>
        rw [handedPieces_ok read] at fails
        obtain ⟨_, _, sound, _⟩ := frame_eq_ok read
        exact sound.refuses failure fails
  · exact .inl exceeds

theorem frameOf_nonempty {total blobLen : Nat} {rest : Stream UInt8} {piece : Bytes}
    (member : piece ∈ (frameOf (frameSource native limits execution) bounds total blobLen
      rest).1.pieces.map Prod.fst) : piece ≠ [] := by
  obtain ⟨pair, yielded, rfl⟩ := List.mem_map.mp member
  have handed := mem_of_yieldPieces yielded
  change pair ∈ (handedPieces (frame native limits execution (some blobLen)
    (bounds.maxTotalBytes.map (· - total)) []) rest).pieces at handed
  cases read : (frame native limits execution (some blobLen)
      (bounds.maxTotalBytes.map (· - total)) [] rest).1 with
  | error failure =>
      rw [handedPieces_error read] at handed
      cases handed
  | ok result =>
      rw [handedPieces_ok read] at handed
      obtain ⟨_, _, sound, _⟩ := frame_eq_ok read
      obtain ⟨given, among, rfl⟩ := List.mem_map.mp handed
      exact sound.nonempty given among

/-- What holds of a run over the frames of a container. -/
structure RunSpec (native : Bytes → Except Failure Bytes) (items : Bytes) (run : Run) : Prop where
  nonempty : ∀ chunk ∈ chunksOf run, chunk ≠ []
  complete : run.ended = .ok () → Frames native items (chunksOf run).flatten
  refuses : ∀ failure, run.ended = .error failure → Refuses failure

theorem iterFrames_spec (whole : bounds.maxTotalBytes.isSome) (total : Nat) (stream : Stream UInt8) :
    RunSpec native stream.items
      (iterFrames (frameSource native limits execution) bounds total stream) := by
  induction size : stream.items.length using Nat.strongRecOn generalizing total stream with
  | ind size ih =>
    match next : (nextFrame bounds.maxStoredFrameBytes bounds.readSize stream).1 with
    | .error failure =>
        rw [iterFrames_error next]
        refine ⟨nofun, nofun, fun other fails => .inl ?_⟩
        exact Except.error.inj fails ▸ nextFrame_error next
    | .ok none =>
        rw [iterFrames_none next, nextFrame_none next]
        exact ⟨nofun, fun _ => .nil, nofun⟩
    | .ok (some blobLen) =>
        rw [iterFrames_some next]
        obtain ⟨four, length, _, behind⟩ := nextFrame_some next
        have shorter := @frameOf_left (frameSource native limits execution) bounds total blobLen
          stream next
        dsimp only
        match done : (frameOf (frameSource native limits execution) bounds total blobLen
          (nextFrame bounds.maxStoredFrameBytes bounds.readSize stream).2).1.ended with
        | .error failure =>
            refine ⟨fun chunk member => ?_, nofun, fun other fails => ?_⟩
            · exact frameOf_nonempty (by simpa [chunksOf] using member)
            · exact Except.error.inj fails ▸ frameOf_error whole (nextFrame_pos next) done
        | .ok () =>
            obtain ⟨blob, decoded, frame, blobLength, pieces, left⟩ := frameOf_eq_ok done
            obtain ⟨nonempty, complete, refuses⟩ := ih _ (size ▸ shorter)
              (frameOf (frameSource native limits execution) bounds total blobLen
                (nextFrame bounds.maxStoredFrameBytes bounds.readSize stream).2).2 _ rfl
            refine ⟨fun chunk member => ?_, fun ends => ?_, refuses⟩
            · simp only [chunksOf, List.map_cons, List.flatten_cons, List.mem_append] at member
              rcases member with here | later
              · exact frameOf_nonempty here
              · exact nonempty chunk later
            · have items : stream.items = stream.items.take 4 ++ (blob ++
                  (frameOf (frameSource native limits execution) bounds total blobLen
                    (nextFrame bounds.maxStoredFrameBytes bounds.readSize stream).2).1.left.items) := by
                rw [left, behind, List.take_append_drop]
              rw [items]
              simp only [chunksOf, List.map_cons, List.flatten_cons, List.flatten_append]
              rw [pieces]
              exact .cons (by rw [List.length_take]; omega) (by rw [← length, blobLength]) frame
                (complete ends)

/-- `iter_decompress` behind a whole magic. -/
theorem iterate_spec (whole : bounds.maxTotalBytes.isSome) (stored : 0 < bounds.maxStoredFrameBytes)
    (reads : 0 < bounds.readSize) (stream : Stream UInt8) :
    RunSpec native stream.items
      (iterate (frameSource native limits execution) bounds magic stream) := by
  have opens : opening bounds magic stream = (.ok (), stream) := by
    simp [opening, readHead, bind, check, given, readExactly, exactLoop, stored, reads]
  rw [iterate_ok (congrArg Prod.fst opens), opens]
  exact iterFrames_spec whole 0 stream

end Iterating

end Modelark.Originals
