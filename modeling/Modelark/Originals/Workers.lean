import Modelark.Originals.Frames

/-!
# Executing the native codec

A frame is decoded in the reader's own process, whole or cut into slices, or by a guarded child that
sends its result over a pipe. The parent reads the frame, and what the child sends.
-/

namespace Modelark.Originals

open Library Reading StreamZnn

/-- `DecodeLimits`. -/
structure DecodeLimits where
  storedFrameBytes : Nat
  decodedFrameBytes : Nat
  readBytes : Nat
  zstdWindowBytes : Nat
  positive : 0 < storedFrameBytes ∧ 0 < decodedFrameBytes ∧ 0 < readBytes ∧ 0 < zstdWindowBytes

/-- `IO_BYTES`. -/
def ioBytes : Nat := 2 ^ 16

/-- What a reader of frames hands on: pieces of the decoded frame, and how the frame ends. -/
structure Handed where
  pieces : List Bytes
  ended : Except Failure Unit

/-- A child that ends before it has sent everything, or fails after it. -/
structure Death where
  sent : Nat
  code : Int
  failed : code ≠ 0

/-- A refusal that the parent meets before it has read the whole frame, behind so many bytes of the
    payload. -/
structure EarlyRefusal where
  behind : Nat
  kind : RefusalKind
  detail : String

/-- What happens to one child: the admission of its memory, the refusals of its guard, and how its result
    comes over the pipe. -/
structure Child where
  headroom : Option String := none
  early : Option EarlyRefusal := none
  refused : Option (RefusalKind × String) := none
  death : Option Death := none
  grants : Nat → Nat := fun _ => ioBytes

/-- The result phase of the protocol. -/
inductive Reply where
  | refused (kind : RefusalKind) (detail : String)
  | success (announced : Nat) (sent : Stream UInt8) (exit : Int)

/-- `run` and `main` of the worker, for the frame that it was sent. -/
def Child.reply (child : Child) (native : Bytes → Except Failure Bytes) (header blob : Bytes) : Reply :=
  match child.refused with
  | some (kind, detail) => .refused kind detail
  | none =>
        match (readZipnnFrame native (some native) ⟨storedSize header, originalSize header, ioBytes⟩
            (some (originalSize header)) (some (storedSize header)) []
            ⟨blob, fun _ => ioBytes, 0⟩).1 with
        | .error (.decodeLimitExceeded _) => .refused .limit "codec frame exceeds bound"
        | .error (.unsupportedFrame _) => .refused .unsupported "unsupported codec frame"
        | .error _ => .refused .invalid "codec worker refused frame"
        | .ok restored =>
            if restored.length ≠ originalSize header then
              .refused .invalid "codec worker refused frame"
            else
              match child.death with
              | none => .success restored.length ⟨restored, child.grants, 0⟩ 0
              | some death => .success restored.length ⟨restored.take death.sent, child.grants, 0⟩ death.code

/-- How much is read of the pipe when so much is left of the result. -/
def resultSize (left : Nat) : Nat :=
  min ioBytes (if left = 0 then 1 else left)

/-- How the parent takes the end of the pipe. -/
def resultEnd (exit : Int) (left : Nat) : Except Failure Unit :=
  if left ≠ 0 then .error (.workerRefusal .workerFailed s!"incomplete worker result (exit {exit})")
  else if exit ≠ 0 then .error (.workerRefusal .workerFailed s!"worker failed after output (exit {exit})")
  else .ok ()

/-- The result phase of `_transfer`: nothing beyond the announced length is handed on, and the child has
    to end well. -/
def collect (exit : Int) (left : Nat) (sent : Stream UInt8) : Handed :=
  if _ended : (sent.read (resultSize left)).1 = [] then ⟨[], resultEnd exit left⟩
  else if _beyond : left < (sent.read (resultSize left)).1.length then
    ⟨[], .error (.workerRefusal .invalid "trailing worker output")⟩
  else
    let later := collect exit (left - (sent.read (resultSize left)).1.length)
      (sent.read (resultSize left)).2
    ⟨(sent.read (resultSize left)).1 :: later.pieces, later.ended⟩
termination_by left
decreasing_by
  have some := List.length_pos_of_ne_nil _ended
  omega

/-- What the parent makes of a reply. -/
def transfer (original : Nat) : Reply → Handed
  | .refused kind detail => ⟨[], .error (.workerRefusal kind detail)⟩
  | .success announced sent exit =>
      if announced ≠ original then
        ⟨[], .error (.workerRefusal .invalid "invalid worker success header")⟩
      else collect exit announced sent

/-- The payload that the parent sends to the child. -/
def workerInput (wanted : Nat) : Reader Bytes := fun stream =>
  match readExactly ioBytes wanted stream with
  | (.ok payload, rest) => (.ok payload, rest)
  | (.error _, rest) => (.error (.streamZnnError "truncated worker frame input"), rest)

/-- The parent and its child, after the header of the frame. -/
def supervise (native : Bytes → Except Failure Bytes) (child : Child) (header : Bytes) : Reader Handed :=
  match child.early with
  | some early => do
      let _ ← workerInput (min early.behind (storedSize header - 32))
      given (.error (.workerRefusal early.kind early.detail))
  | none => do
      let payload ← workerInput (storedSize header - 32)
      return transfer (originalSize header) (child.reply native header (header ++ payload))

/-- `guarded_zipnn_frame`. What happens to a child may depend on its frame and on what remains. -/
def guardedZipnnFrame (native : Bytes → Except Failure Bytes) (children : Option Nat → Bytes → Child)
    (limits : DecodeLimits) (storedLength remaining : Option Nat) (ahead : Bytes) : Reader Handed := do
  let header ← readZipnnHeader ⟨limits.storedFrameBytes, limits.decodedFrameBytes, ioBytes⟩ remaining
    storedLength ahead
  given (match (children remaining header).headroom with
    | some detail => .error (.resourceRefusal detail)
    | none => .ok ())
  supervise native (children remaining header) header

/-- Who decodes a frame: the reader itself without a policy, the execution adapter of a guarded caller, or
    a child for each frame. -/
inductive Execution where
  | unguarded
  | adapter
  | supervised (children : Option Nat → Bytes → Child)

/-- There is a policy. -/
def Execution.qualified : Execution → Bool
  | .unguarded => false
  | .adapter | .supervised _ => true

/-- `frame` and `guarded` of `_decoded_chunks`, and `frame` of `frame_adapter`. -/
def frame (native : Bytes → Except Failure Bytes) (limits : DecodeLimits) (execution : Execution)
    (storedLength remaining : Option Nat) (ahead : Bytes) : Reader Handed :=
  match execution with
  | .unguarded => do
      let decoded ← readZipnnFrame native none ⟨limits.storedFrameBytes, limits.decodedFrameBytes,
        min limits.readBytes (2 ^ 20)⟩ remaining storedLength ahead
      return ⟨[decoded], .ok ()⟩
  | .adapter => do
      let decoded ← readZipnnFrame native none ⟨limits.storedFrameBytes, limits.decodedFrameBytes,
        limits.readBytes⟩ remaining storedLength ahead
      return ⟨slices ioBytes decoded, .ok ()⟩
  | .supervised children => guardedZipnnFrame native children limits storedLength remaining ahead

/-- The exceptions that the reader of originals turns into its own. -/
def Refuses (failure : Failure) : Prop :=
  failure.isStreamZnnError = true ∨ (∃ kind detail, failure = .workerRefusal kind detail) ∨
    ∃ detail, failure = .resourceRefusal detail

/-- No piece is empty, a frame that ends well was complete, and a failure is a refusal. -/
structure Handed.Sound (native : Bytes → Except Failure Bytes) (blob : Bytes) (handed : Handed) : Prop where
  nonempty : ∀ piece ∈ handed.pieces, piece ≠ []
  complete : handed.ended = .ok () → ZipnnFrame native blob handed.pieces.flatten
  refuses : ∀ failure, handed.ended = .error failure → Refuses failure

section Transfer

variable {native : Bytes → Except Failure Bytes} {exit : Int} {left : Nat} {sent : Stream UInt8}

theorem resultSize_pos : 0 < resultSize left := by
  unfold resultSize ioBytes
  split <;> omega

theorem collect_nonempty : ∀ piece ∈ (collect exit left sent).pieces, piece ≠ [] := by
  fun_induction collect exit left sent with
  | case1 | case2 => exact nofun
  | case3 left sent ended beyond later ih =>
      intro piece member
      rcases List.mem_cons.mp member with rfl | behind
      · exact ended
      · exact ih piece behind

/-- What ends well is everything that was sent, as much as was announced. -/
theorem collect_eq_ok (ends : (collect exit left sent).ended = .ok ()) :
    (collect exit left sent).pieces.flatten = sent.items ∧ sent.items.length = left ∧ exit = 0 := by
  fun_induction collect exit left sent with
  | case1 left sent ended =>
      have empty := (sent.read_eq_nil resultSize_pos).mp ended
      simp only [resultEnd] at ends
      split at ends
      case isTrue => cases ends
      case isFalse none =>
        split at ends
        case isTrue => cases ends
        case isFalse well => exact ⟨by simp [empty], by simp [empty]; omega, by omega⟩
  | case2 => cases ends
  | case3 left sent ended beyond later ih =>
      obtain ⟨items, length, well⟩ := ih ends
      have whole := sent.read_append (resultSize left)
      refine ⟨?_, ?_, well⟩
      · rw [List.flatten_cons, items]
        exact whole
      · rw [← whole, List.length_append]
        omega

theorem collect_error {failure : Failure} (fails : (collect exit left sent).ended = .error failure) :
    ∃ kind detail, failure = .workerRefusal kind detail := by
  fun_induction collect exit left sent with
  | case1 left sent ended =>
      simp only [resultEnd] at fails
      split at fails
      case isTrue => exact ⟨_, _, (Except.error.inj fails).symm⟩
      case isFalse =>
        split at fails <;> cases fails
        exact ⟨_, _, rfl⟩
  | case2 => exact ⟨_, _, (Except.error.inj fails).symm⟩
  | case3 left sent ended beyond later ih => exact ih fails

/-- A child that ends well has sent what the native codec made of its frame. -/
theorem reply_success {child : Child} {header blob : Bytes} {announced : Nat}
    (replies : child.reply native header blob = .success announced sent 0)
    (whole : blob.length = storedSize header) : native blob = .ok sent.items := by
  unfold Child.reply at replies
  split at replies
  case h_1 => cases replies
  case h_2 =>
    split at replies
    case h_1 => cases replies
    case h_2 => cases replies
    case h_3 => cases replies
    case h_4 restored read =>
      split at replies
      case isTrue => cases replies
      case isFalse =>
        split at replies
        case h_1 =>
          obtain rfl := (Reply.success.inj replies).2.1
          obtain ⟨found, items, frame, length⟩ := readZipnnFrame_eq_ok (fun _ _ decodes => decodes) read
          generalize (readZipnnFrame _ _ _ _ _ _ _).2.items = behind at items
          simp only [Option.all_some, beq_iff_eq, List.nil_append] at length items
          have rest : behind = [] := by
            have lengths := congrArg List.length items
            rw [List.length_append, whole] at lengths
            exact List.length_eq_zero_iff.mp (by omega)
          rw [rest, List.append_nil] at items
          exact items ▸ frame.decodes
        case h_2 death _ => exact absurd (Reply.success.inj replies).2.2 death.failed

theorem transfer_sound {child : Child} {header payload : Bytes} (length : header.length = 32)
    (head : header.take 2 = [0x5A, 0x4E]) (long : 32 ≤ storedSize header)
    (some : originalSize header ≠ 0) (whole : payload.length = storedSize header - 32) :
    (transfer (originalSize header) (child.reply native header (header ++ payload))).Sound native
      (header ++ payload) := by
  cases replies : child.reply native header (header ++ payload) with
  | refused kind detail =>
      refine ⟨nofun, nofun, fun failure fails => .inr (.inl ⟨kind, detail, ?_⟩)⟩
      exact (Except.error.inj fails).symm
  | success announced sent exit =>
      rw [transfer]
      split
      case isTrue =>
        refine ⟨nofun, nofun, fun failure fails =>
          .inr (.inl ⟨.invalid, "invalid worker success header", ?_⟩)⟩
        exact (Except.error.inj fails).symm
      case isFalse announces =>
        refine ⟨collect_nonempty, fun ends => ?_, fun failure fails => .inr (.inl (collect_error fails))⟩
        obtain ⟨items, sum, rfl⟩ := collect_eq_ok ends
        have size : (header ++ payload).length = storedSize header := by
          rw [List.length_append]
          omega
        rw [items]
        exact zipnnFrame_of_header length head long some whole (reply_success replies size) (by omega)

end Transfer

section Input

variable {wanted : Nat} {stream : Stream UInt8}

theorem workerInput_left : (workerInput wanted stream).2 = (readExactly ioBytes wanted stream).2 := by
  unfold workerInput
  split <;> simp_all

theorem workerInput_eq_ok {payload : Bytes} :
    (workerInput wanted stream).1 = .ok payload ↔
      (readExactly ioBytes wanted stream).1 = .ok payload := by
  unfold workerInput
  split <;> simp_all

theorem workerInput_error {failure : Failure} (fails : (workerInput wanted stream).1 = .error failure) :
    failure.isStreamZnnError = true := by
  unfold workerInput at fails
  split at fails <;> cases fails
  rfl

theorem workerInput_takes (wanted : Nat) : Takes wanted (workerInput wanted) := by
  have takes := readExactly_takes ioBytes wanted
  refine ⟨fun stream => ?_, fun stream => ?_, fun stream payload read => ?_⟩
  · rw [workerInput_left]
    exact takes.within stream
  · rw [workerInput_left]
    exact takes.shrinks stream
  · rw [workerInput_left]
    exact takes.exactly stream payload (workerInput_eq_ok.mp read)

theorem workerInput_determined (wanted : Nat) : Determined (workerInput wanted) := by
  intro one other same
  obtain ⟨results, lefts⟩ := readExactly_determined ioBytes wanted one other same
  rw [workerInput_left, workerInput_left]
  refine ⟨?_, lefts⟩
  unfold workerInput
  generalize readExactly ioBytes wanted one = first at results lefts ⊢
  generalize readExactly ioBytes wanted other = second at results lefts ⊢
  obtain ⟨result, rest⟩ := first
  obtain ⟨result', rest'⟩ := second
  obtain rfl : result = result' := results
  cases result <;> rfl

end Input

section Executions

variable {native : Bytes → Except Failure Bytes} {limits : DecodeLimits} {execution : Execution}
  {storedLength remaining : Option Nat} {ahead : Bytes} {stream : Stream UInt8}

theorem supervise_takes (child : Child) {header : Bytes} {len : Nat} (stored : storedSize header = len) :
    Takes (len - 32) (supervise native child header) := by
  unfold supervise
  rw [stored]
  split
  case h_1 early _ =>
    have part : Takes (min early.behind (len - 32) + 0) (do
        let _ ← workerInput (min early.behind (len - 32))
        given (.error (.workerRefusal early.kind early.detail)) : Reader Handed) :=
      (workerInput_takes _).bind fun _ _ _ => takes_given _
    refine part.mono_of_fails (by omega) fun stream value succeeds => ?_
    obtain ⟨_, _, later⟩ := bind_eq_ok succeeds
    cases later
  case h_2 => exact (workerInput_takes (len - 32)).bind fun _ _ _ => takes_pure _

theorem supervise_determined (child : Child) (header : Bytes) :
    Determined (supervise native child header) := by
  unfold supervise
  split
  case h_1 => exact (workerInput_determined _).bind fun _ => determined_given _
  case h_2 => exact (workerInput_determined _).bind fun _ => determined_pure _

theorem frame_determined : Determined (frame native limits execution storedLength remaining ahead) := by
  cases execution with
  | unguarded => exact readZipnnFrame_determined.bind fun _ => determined_pure _
  | adapter => exact readZipnnFrame_determined.bind fun _ => determined_pure _
  | supervised children =>
      refine readZipnnHeader_determined.bind fun header => ?_
      exact (determined_given _).bind fun _ => supervise_determined _ _

theorem frame_takes (len : Nat) :
    Takes len (frame native limits execution (some len) remaining []) := by
  cases execution with
  | unguarded => exact (readZipnnFrame_takes len).bind fun _ _ _ => takes_pure _
  | adapter => exact (readZipnnFrame_takes len).bind fun _ _ _ => takes_pure _
  | supervised children =>
      refine takes_behind_header len fun header stored => ?_
      have behind : Takes (len - 32) (supervise native (children remaining header) header) :=
        supervise_takes (children remaining header) stored
      have whole := (takes_given (match (children remaining header).headroom with
        | some detail => .error (.resourceRefusal detail)
        | none => .ok () : Except Failure Unit)).bind fun (_ : Stream UInt8) _ _ => behind
      rwa [Nat.zero_add] at whole

/-- What a frame hands on comes from one complete frame at the head of the stream, behind the bytes that
    were read ahead. -/
theorem frame_eq_ok {handed : Handed}
    (read : (frame native limits execution storedLength remaining ahead stream).1 = .ok handed) :
    ∃ blob, blob ++ (frame native limits execution storedLength remaining ahead stream).2.items =
        ahead ++ stream.items ∧
      handed.Sound native blob ∧ storedLength.all (blob.length == ·) := by
  have inProcess : ∀ (bounds : FrameBounds) (pieces : Bytes → List Bytes),
      (∀ decoded, decoded ≠ [] →
        (∀ piece ∈ pieces decoded, piece ≠ []) ∧ (pieces decoded).flatten = decoded) →
      ((do
        let decoded ← readZipnnFrame native none bounds remaining storedLength ahead
        return ⟨pieces decoded, .ok ()⟩ : Reader Handed) stream).1 = .ok handed →
      ∃ blob, blob ++ ((do
          let decoded ← readZipnnFrame native none bounds remaining storedLength ahead
          return ⟨pieces decoded, .ok ()⟩ : Reader Handed) stream).2.items = ahead ++ stream.items ∧
        handed.Sound native blob ∧ storedLength.all (blob.length == ·) := by
    intro bounds pieces cuts succeeds
    obtain ⟨decoded, whole, same⟩ := bind_eq_ok succeeds
    obtain rfl := Except.ok.inj same
    rw [bind_ok whole]
    obtain ⟨blob, items, complete, length⟩ :=
      readZipnnFrame_eq_ok (fun _ _ decodes => decodeFrame_none_eq_ok decodes) whole
    obtain ⟨nonempty, joined⟩ := cuts decoded complete.nonempty
    refine ⟨blob, items, ⟨nonempty, fun _ => ?_, nofun⟩, length⟩
    exact joined.symm ▸ complete
  cases execution with
  | unguarded =>
      refine inProcess _ (fun decoded => [decoded]) (fun decoded some => ⟨?_, ?_⟩) read
      · intro piece member
        exact List.mem_singleton.mp member ▸ some
      · exact List.append_nil decoded
  | adapter =>
      refine inProcess _ (slices ioBytes) (fun decoded some => ⟨?_, ?_⟩) read
      · exact fun piece member => slices_nonempty member
      · exact slices_flatten decoded (Nat.two_pow_pos 16)
  | supervised children =>
      obtain ⟨header, first, later⟩ := bind_eq_ok read
      obtain ⟨_, admitted, later⟩ := bind_eq_ok later
      obtain ⟨items, length, head, long, some, stored⟩ := readZipnnHeader_eq_ok first
      have left : (frame native limits (.supervised children) storedLength remaining ahead stream).2 =
          (supervise native (children remaining header) header
            (readZipnnHeader ⟨limits.storedFrameBytes, limits.decodedFrameBytes, ioBytes⟩ remaining
              storedLength ahead stream).2).2 := by
        rw [frame, guardedZipnnFrame, bind_ok first, bind_ok admitted]
        rfl
      rw [left]
      generalize (readZipnnHeader ⟨limits.storedFrameBytes, limits.decodedFrameBytes, ioBytes⟩ remaining
        storedLength ahead stream).2 = rest at items later
      change (supervise native (children remaining header) header rest).1 = .ok handed at later
      cases early : (children remaining header).early with
      | some refusal =>
          simp only [supervise, early] at later
          obtain ⟨_, _, refused⟩ := bind_eq_ok later
          cases refused
      | none =>
          simp only [supervise, early] at later ⊢
          obtain ⟨payload, exact, same⟩ := bind_eq_ok later
          obtain rfl := Except.ok.inj same
          rw [bind_ok exact]
          obtain ⟨items', length'⟩ := readExactly_items (workerInput_eq_ok.mp exact)
          refine ⟨header ++ payload, ?_, transfer_sound length head long some length', ?_⟩
          · change _ ++ (workerInput _ rest).2.items = _
            rw [workerInput_left, List.append_assoc, items', items]
          · have size : (header ++ payload).length = storedSize header := by
              rw [List.length_append]
              omega
            rw [size]
            exact stored

theorem frame_error {failure : Failure} (remains : remaining.isSome) (short : ahead.length ≤ 32)
    (length : storedLength.all (0 < ·))
    (fails : (frame native limits execution storedLength remaining ahead stream).1 = .error failure) :
    Refuses failure := by
  obtain ⟨stored, decoded, reads, _⟩ := limits.positive
  cases execution with
  | unguarded =>
      rcases bind_eq_error fails with whole | ⟨_, _, later⟩
      · refine .inl (readZipnnFrame_error ⟨stored, decoded, ?_, remains, short, length⟩ whole)
        exact Nat.lt_min.mpr ⟨reads, Nat.two_pow_pos 20⟩
      · cases later
  | adapter =>
      rcases bind_eq_error fails with whole | ⟨_, _, later⟩
      · exact .inl (readZipnnFrame_error ⟨stored, decoded, reads, remains, short, length⟩ whole)
      · cases later
  | supervised children =>
      rcases bind_eq_error fails with first | ⟨header, _, later⟩
      · exact .inl (readZipnnHeader_error
          ⟨stored, decoded, Nat.two_pow_pos 16, remains, short, length⟩ first)
      rcases bind_eq_error later with refused | ⟨_, _, later⟩
      · change (match (children remaining header).headroom with
          | some detail => .error (.resourceRefusal detail)
          | none => .ok () : Except Failure Unit) = _ at refused
        split at refused <;> cases refused
        exact .inr (.inr ⟨_, rfl⟩)
      · cases early : (children remaining header).early with
        | some refusal =>
            simp only [supervise, early] at later
            rcases bind_eq_error later with input | ⟨_, _, refused⟩
            · exact .inl (workerInput_error input)
            · exact .inr (.inl ⟨refusal.kind, refusal.detail, (Except.error.inj refused).symm⟩)
        | none =>
            simp only [supervise, early] at later
            rcases bind_eq_error later with input | ⟨_, _, refused⟩
            · exact .inl (workerInput_error input)
            · cases refused

end Executions

end Modelark.Originals
