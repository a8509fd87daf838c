import Modelark.Originals.Streamed

/-!
# Zstd frames

The header of a zstd frame is read byte by byte until its parameters are known, and the frame is fed to a
decompression object in small pieces.
-/

namespace Modelark.Originals

open Library Reading StreamZnn

/-- What the chunks of a container raise: a `DecodeError`, or an exception of something else. -/
inductive Thrown where
  | decodeError (kind : RefusalKind) (detail : String)
  | other (failure : Failure)
  deriving DecidableEq

/-- What the chunks of a container are, and how they end. -/
structure Chunks where
  chunks : List Bytes
  ended : Except Thrown Unit

/-- `_refuse`. -/
def refuse {α : Type} (kind : RefusalKind) (detail : String) : Except Thrown α :=
  .error (.decodeError kind detail)

/-- `_prefix`: as much as there is, up to a size. -/
def prefixBytes (size : Nat) (data : Bytes) (stream : Stream UInt8) : Bytes × Stream UInt8 :=
  if data.length < size then
    match stream.read (size - data.length) with
    | ([], rest) => (data, rest)
    | (first :: others, rest) => prefixBytes size (data ++ first :: others) rest
  else (data, stream)
termination_by size - data.length
decreasing_by
  simp only [List.length_append, List.length_cons]
  omega

/-- `_exact`. -/
def exactBytes (size : Nat) : Reading Thrown UInt8 Bytes := fun stream =>
  let (data, rest) := prefixBytes size [] stream
  (if data.length < size then refuse .invalid "truncated container" else .ok data, rest)

theorem prefixBytes_spec (size : Nat) (data : Bytes) (stream : Stream UInt8) :
    (prefixBytes size data stream).1 = data ++ stream.items.take (size - data.length) ∧
      (prefixBytes size data stream).2.items = stream.items.drop (size - data.length) := by
  fun_induction prefixBytes size data stream with
  | case1 data stream more rest piece =>
      have empty := (stream.read_eq_nil (by omega)).mp (congrArg Prod.fst piece)
      have whole := stream.read_append (size - data.length)
      rw [piece, empty, List.nil_append] at whole
      dsimp only at whole
      simp [empty, whole]
  | case2 data stream more first others rest piece ih =>
      have whole := stream.read_append (size - data.length)
      have short := stream.read_length_le (size - data.length)
      rw [piece] at whole short
      dsimp only at whole short
      obtain ⟨taken, left⟩ := ih
      have behind : size - (data ++ first :: others).length =
          size - data.length - (first :: others).length := by
        rw [List.length_append]
        omega
      rw [taken, left, ← whole, behind, List.take_append, List.drop_append,
        List.take_of_length_le short, List.drop_eq_nil_of_le short, List.nil_append,
        List.append_assoc]
      exact ⟨rfl, rfl⟩
  | case3 data stream full =>
      rw [Nat.sub_eq_zero_of_le (by omega)]
      simp

theorem prefixBytes_items (size : Nat) (stream : Stream UInt8) :
    (prefixBytes size [] stream).1 = stream.items.take size ∧
      (prefixBytes size [] stream).2.items = stream.items.drop size :=
  prefixBytes_spec size [] stream

theorem exactBytes_eq_ok {size : Nat} {stream : Stream UInt8} {data : Bytes}
    (read : (exactBytes size stream).1 = .ok data) :
    data.length = size ∧ data ++ (exactBytes size stream).2.items = stream.items := by
  obtain ⟨taken, left⟩ := prefixBytes_items size stream
  simp only [exactBytes, refuse] at read ⊢
  split at read
  case isTrue => cases read
  case isFalse enough =>
    obtain rfl := Except.ok.inj read
    rw [left, taken, List.take_append_drop]
    rw [taken, List.length_take] at enough
    exact ⟨by rw [List.length_take]; omega, rfl⟩

/-- A decompression object: `decompress` gives nothing when it raises, and the object knows when its frame
    has ended and which of the bytes it was fed are behind it. -/
structure Decompressor where
  State : Type
  start : State
  decompress : State → Bytes → Option (Bytes × State)
  eof : State → Bool
  unused : State → Bytes
  fresh : eof start = false

/-- The object has been fed these bytes, none after the end of its frame, and has given those. -/
inductive Decompressor.Fed (object : Decompressor) : Bytes → Bytes → object.State → Prop where
  | start : object.Fed [] [] object.start
  | feed {fed out piece data : Bytes} {state next : object.State} (before : object.Fed fed out state)
      (further : object.eof state = false) (gives : object.decompress state piece = some (data, next)) :
      object.Fed (fed ++ piece) (out ++ data) next

/-- A complete frame that does not begin with a shorter one. -/
structure ZstdFrame (content : Bytes → Option Bytes) (frame decoded : Bytes) : Prop where
  decodes : content frame = some decoded
  first : ∀ short, short <+: frame → short ≠ frame → content short = none

/-- The library: `content` is what a complete frame holds, and a decompression object stops where the
    first complete frame ends. -/
structure Zstd where
  installed : Bool
  version : String × String
  frameParameters : Bytes → Option (Nat × Option Nat)
  decompressor : Nat → Decompressor
  content : Bytes → Option Bytes
  stops : ∀ window fed out state, (decompressor window).Fed fed out state →
    (decompressor window).eof state = true →
      ∃ frame, fed = frame ++ (decompressor window).unused state ∧ ZstdFrame content frame out

section Frame

variable (zstd : Zstd) (limits : DecodeLimits)

/-- The loop of `_zstd_header`: the parameters of the frame, and the bytes that were read for them. -/
def zstdParameters (header : Bytes) (stream : Stream UInt8) :
    Except Thrown ((Nat × Option Nat) × Bytes) × Stream UInt8 :=
  match zstd.frameParameters header with
  | some params => (.ok (params, header), stream)
  | none =>
      if _long : 18 ≤ header.length then (refuse .invalid "invalid zstd header", stream)
      else
        match _read : exactBytes 1 stream with
        | (.error failure, rest) => (.error failure, rest)
        | (.ok byte, rest) => zstdParameters (header ++ byte) rest
termination_by 18 - header.length
decreasing_by
  have one := (exactBytes_eq_ok (congrArg Prod.fst _read)).1
  simp only [List.length_append]
  omega

/-- `_zstd_header`. -/
def zstdHeader (expected : Nat) (qualified : Bool) (ahead : Bytes) : Reading Thrown UInt8 Bytes := do
  check zstd.installed (.decodeError .unsupported "zstandard is not installed")
  check (!qualified || zstd.version == ("0.25.0", "cext"))
    (.decodeError .unsupported "byte-window policy is qualified for zstandard 0.25.0 cext only")
  check (2 ^ 17 ≤ limits.decodedFrameBytes)
    (.decodeError .limit "zstd requires a 128 KiB decoding bound")
  let (params, header) ← zstdParameters zstd ahead
  check (params.1 ≤ limits.zstdWindowBytes &&
      params.2.all fun size => size ≤ expected && (!qualified || size == expected))
    (.decodeError .limit "zstd window/content exceeds bound")
  return header

/-- A piece is yielded when there is something in it. -/
def yielded (data : Bytes) : List Bytes :=
  if data = [] then [] else [data]

/-- The loop over the pieces of a frame, each as long as the bound on the output allows. -/
def zstdLoop (object : Decompressor) (bound : Nat) (state : object.State) (pending : Bytes)
    (stream : Stream UInt8) : Chunks :=
  if _none : pending = [] then ⟨[], refuse .invalid "truncated zstd frame"⟩
  else
    match object.decompress state pending with
    | none => ⟨[], refuse .invalid "zstd decoder refused frame"⟩
    | some (data, next) =>
        if bound < data.length then ⟨[], refuse .limit "zstd output block exceeds bound"⟩
        else if object.eof next then
          ⟨yielded data,
            if object.unused next ≠ [] ∨ (stream.read 1).1 ≠ [] then
              refuse .invalid "trailing/concatenated zstd data"
            else .ok ()⟩
        else
          let later := zstdLoop object bound next (stream.read (max 1 (bound / 2 ^ 17))).1
            (stream.read (max 1 (bound / 2 ^ 17))).2
          ⟨yielded data ++ later.chunks, later.ended⟩
termination_by pending.length + stream.items.length
decreasing_by
  have some := List.length_pos_of_ne_nil _none
  have whole := congrArg List.length (stream.read_append (max 1 (bound / 2 ^ 17)))
  rw [List.length_append] at whole
  omega

/-- The zstd branch of `_decoded_chunks`. -/
def zstdChunks (expected : Nat) (qualified : Bool) (ahead : Bytes) (stream : Stream UInt8) : Chunks :=
  match zstdHeader zstd limits expected qualified ahead stream with
  | (.error failure, _) => ⟨[], .error failure⟩
  | (.ok header, rest) =>
      let object := zstd.decompressor
        (if qualified then limits.zstdWindowBytes else max 1 (limits.zstdWindowBytes / 1024))
      zstdLoop object
        (if qualified then min limits.decodedFrameBytes (2 ^ 20) else limits.decodedFrameBytes)
        object.start header rest

end Frame

section FrameSpec

variable {zstd : Zstd} {limits : DecodeLimits} {expected : Nat} {qualified : Bool}
  {header ahead : Bytes} {stream : Stream UInt8}

theorem zstdParameters_some {params : Nat × Option Nat}
    (known : zstd.frameParameters header = some params) :
    zstdParameters zstd header stream = (.ok (params, header), stream) := by
  rw [zstdParameters]
  split
  case h_1 params' found =>
    rw [known] at found
    cases found
    rfl
  case h_2 unknown =>
    rw [known] at unknown
    cases unknown

/-- The header is read on while its parameters are not known. -/
theorem zstdParameters_next {byte : Bytes} {rest : Stream UInt8}
    (unknown : zstd.frameParameters header = none) (short : header.length < 18)
    (read : exactBytes 1 stream = (.ok byte, rest)) :
    zstdParameters zstd header stream = zstdParameters zstd (header ++ byte) rest := by
  conv => lhs; rw [zstdParameters]
  split
  case h_1 params found =>
    rw [unknown] at found
    cases found
  case h_2 =>
    rw [dif_neg (by omega)]
    split
    case h_1 failure rest' other =>
      rw [read] at other
      cases other
    case h_2 byte' rest' same =>
      rw [read] at same
      cases same
      rfl

theorem zstdParameters_eq_ok {params : Nat × Option Nat} {read : Bytes}
    (succeeds : (zstdParameters zstd header stream).1 = .ok (params, read)) :
    header <+: read ∧ read ++ (zstdParameters zstd header stream).2.items = header ++ stream.items := by
  fun_induction zstdParameters zstd header stream with
  | case1 header stream params' found =>
      cases succeeds
      exact ⟨List.prefix_rfl, rfl⟩
  | case2 => cases succeeds
  | case3 => cases succeeds
  | case4 header stream none short byte rest exact ih =>
      obtain ⟨longer, items⟩ := ih succeeds
      have next := (exactBytes_eq_ok (congrArg Prod.fst exact)).2
      rw [exact] at next
      dsimp only at next
      refine ⟨(List.prefix_append header byte).trans longer, ?_⟩
      rw [items, List.append_assoc, next]

theorem zstdHeader_eq_ok {read : Bytes}
    (succeeds : (zstdHeader zstd limits expected qualified ahead stream).1 = .ok read) :
    ahead <+: read ∧
      read ++ (zstdHeader zstd limits expected qualified ahead stream).2.items =
        ahead ++ stream.items := by
  obtain ⟨_, installed, later⟩ := bind_eq_ok succeeds
  obtain ⟨_, version, later⟩ := bind_eq_ok later
  obtain ⟨_, bounded, later⟩ := bind_eq_ok later
  obtain ⟨⟨params, header⟩, known, later⟩ := bind_eq_ok later
  obtain ⟨_, fits, same⟩ := bind_eq_ok later
  obtain rfl := Except.ok.inj same
  have left : (zstdHeader zstd limits expected qualified ahead stream).2 =
      (zstdParameters zstd ahead stream).2 := by
    rw [zstdHeader, bind_ok installed, bind_ok version, bind_ok bounded, bind_ok known]
    dsimp only
    rw [bind_ok fits]
    rfl
  rw [left]
  exact zstdParameters_eq_ok known

theorem yielded_flatten (data : Bytes) : (yielded data).flatten = data := by
  unfold yielded
  split
  case isTrue none => rw [none, List.flatten_nil]
  case isFalse => simp

theorem mem_yielded {data chunk : Bytes} (member : chunk ∈ yielded data) : chunk ≠ [] := by
  unfold yielded at member
  split at member
  case isTrue => cases member
  case isFalse some => exact List.mem_singleton.mp member ▸ some

/-- What ends well is one complete frame, with nothing behind it. -/
theorem zstdLoop_eq_ok {window bound : Nat} {fed out pending : Bytes}
    {state : (zstd.decompressor window).State}
    (begun : (zstd.decompressor window).Fed fed out state)
    (further : (zstd.decompressor window).eof state = false)
    (ends : (zstdLoop (zstd.decompressor window) bound state pending stream).ended = .ok ()) :
    ZstdFrame zstd.content (fed ++ (pending ++ stream.items))
      (out ++ (zstdLoop (zstd.decompressor window) bound state pending stream).chunks.flatten) := by
  fun_induction zstdLoop (zstd.decompressor window) bound state pending stream generalizing fed out with
  | case1 | case2 | case3 => cases ends
  | case4 state pending stream some data next gives bounded last =>
      dsimp only at ends ⊢
      split at ends
      case isTrue => cases ends
      case isFalse exact =>
        simp only [not_or, ne_eq, not_not] at exact
        obtain ⟨unused, behind⟩ := exact
        obtain ⟨frame, same, first⟩ := zstd.stops _ _ _ _ (begun.feed further gives) last
        rw [unused, List.append_nil] at same
        rw [(stream.read_eq_nil Nat.one_pos).mp behind, List.append_nil, yielded_flatten, same]
        exact first
  | case5 state pending stream some data next gives bounded more later =>
      rename_i ih
      have found := ih (begun.feed further gives) (by simpa using more) ends
      have whole := stream.read_append (max 1 (bound / 2 ^ 17))
      rw [whole, List.append_assoc fed, List.append_assoc out] at found
      rw [List.flatten_append, yielded_flatten]
      exact found

theorem zstdLoop_nonempty {object : Decompressor} {bound : Nat} {pending : Bytes}
    {state : object.State} :
    ∀ chunk ∈ (zstdLoop object bound state pending stream).chunks, chunk ≠ [] := by
  fun_induction zstdLoop object bound state pending stream with
  | case1 | case2 | case3 => exact nofun
  | case4 => exact fun chunk member => mem_yielded member
  | case5 state pending stream some data next gives bounded more later ih =>
      intro chunk member
      rcases List.mem_append.mp member with here | behind
      · exact mem_yielded here
      · exact ih chunk behind

theorem refuse_eq_error {α : Type} {kind : RefusalKind} {detail : String} {thrown : Thrown}
    (fails : (refuse kind detail : Except Thrown α) = .error thrown) :
    thrown = .decodeError kind detail :=
  (Except.error.inj fails).symm

theorem check_eq_error {holds : Bool} {failure thrown : Thrown}
    (fails : (check holds failure stream : Except Thrown Unit × Stream UInt8).1 = .error thrown) :
    thrown = failure := by
  cases holds with
  | true => cases fails
  | false => exact (Except.error.inj fails).symm

theorem zstdParameters_error {thrown : Thrown}
    (fails : (zstdParameters zstd header stream).1 = .error thrown) :
    ∃ kind detail, thrown = .decodeError kind detail := by
  fun_induction zstdParameters zstd header stream with
  | case1 => cases fails
  | case2 => exact ⟨_, _, refuse_eq_error fails⟩
  | case3 header stream none short failure rest exact =>
      have missing := congrArg Prod.fst exact
      simp only [exactBytes] at missing
      split at missing
      case isTrue =>
        rw [← Except.error.inj fails]
        exact ⟨_, _, refuse_eq_error missing⟩
      case isFalse => cases missing
  | case4 header stream none short byte rest exact ih => exact ih fails

theorem zstdHeader_error {thrown : Thrown}
    (fails : (zstdHeader zstd limits expected qualified ahead stream).1 = .error thrown) :
    ∃ kind detail, thrown = .decodeError kind detail := by
  rcases bind_eq_error fails with missing | ⟨_, _, later⟩
  · exact ⟨_, _, check_eq_error missing⟩
  rcases bind_eq_error later with unqualified | ⟨_, _, later⟩
  · exact ⟨_, _, check_eq_error unqualified⟩
  rcases bind_eq_error later with unbounded | ⟨_, _, later⟩
  · exact ⟨_, _, check_eq_error unbounded⟩
  rcases bind_eq_error later with unknown | ⟨⟨params, header⟩, _, later⟩
  · exact zstdParameters_error unknown
  rcases bind_eq_error later with exceeds | ⟨_, _, later⟩
  · exact ⟨_, _, check_eq_error exceeds⟩
  · cases later

theorem zstdLoop_error {object : Decompressor} {bound : Nat} {pending : Bytes} {state : object.State}
    {thrown : Thrown} (fails : (zstdLoop object bound state pending stream).ended = .error thrown) :
    ∃ kind detail, thrown = .decodeError kind detail := by
  fun_induction zstdLoop object bound state pending stream with
  | case1 | case2 | case3 => exact ⟨_, _, refuse_eq_error fails⟩
  | case4 =>
      dsimp only at fails
      split at fails
      case isTrue => exact ⟨_, _, refuse_eq_error fails⟩
      case isFalse => cases fails
  | case5 state pending stream some data next gives bounded more later ih => exact ih fails

theorem zstdChunks_nonempty :
    ∀ chunk ∈ (zstdChunks zstd limits expected qualified ahead stream).chunks, chunk ≠ [] := by
  unfold zstdChunks
  split
  case h_1 => exact nofun
  case h_2 => exact zstdLoop_nonempty

theorem zstdChunks_eq_ok
    (ends : (zstdChunks zstd limits expected qualified ahead stream).ended = .ok ()) :
    ZstdFrame zstd.content (ahead ++ stream.items)
      (zstdChunks zstd limits expected qualified ahead stream).chunks.flatten := by
  unfold zstdChunks at ends ⊢
  generalize read : zstdHeader zstd limits expected qualified ahead stream = outcome at ends ⊢
  obtain ⟨result, rest⟩ := outcome
  cases result with
  | error failure => cases ends
  | ok header =>
      have items := (zstdHeader_eq_ok (congrArg Prod.fst read)).2
      rw [read] at items
      dsimp only at items ends ⊢
      have frame := zstdLoop_eq_ok .start (Decompressor.fresh _) ends
      rw [List.nil_append, items, List.nil_append] at frame
      exact frame

theorem zstdChunks_error {thrown : Thrown}
    (fails : (zstdChunks zstd limits expected qualified ahead stream).ended = .error thrown) :
    ∃ kind detail, thrown = .decodeError kind detail := by
  unfold zstdChunks at fails
  split at fails
  case h_1 failure _ read =>
    rw [← Except.error.inj fails]
    exact zstdHeader_error (congrArg Prod.fst read)
  case h_2 => exact zstdLoop_error fails

end FrameSpec

end Modelark.Originals
