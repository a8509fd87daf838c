import Modelark.Library.Fallible
import Modelark.Library.Streams

/-!
# The StreamZNN container

A file is cut into slices, each slice is compressed to a blob, and the blobs are framed by their lengths.
The reader takes the container from a stream that may return less than it was asked for.
-/

namespace Modelark.StreamZnn

open Library

abbrev Bytes := List UInt8

/-- How a codec worker, or a reader of original bytes, refuses. -/
inductive RefusalKind where
  | resource
  | invalid
  | unsupported
  | limit
  | workerFailed
  deriving Repr, DecidableEq

/-- The exceptions of the module, those of the interpreter and of the native codec, and those of a codec
    worker. -/
inductive Failure where
  | streamZnnError (message : String)
  | outputCapExceeded (message : String)
  | decodeLimitExceeded (message : String)
  | unsupportedFrame (message : String)
  | valueError (message : String)
  | fileNotFound (path : String)
  | structError
  | codec
  | workerRefusal (kind : RefusalKind) (detail : String)
  | resourceRefusal (detail : String)
  deriving Repr, DecidableEq

/-- The classes that derive from `StreamZnnError`. -/
def Failure.isStreamZnnError : Failure → Bool
  | .streamZnnError _ | .outputCapExceeded _ | .decodeLimitExceeded _ | .unsupportedFrame _ => true
  | .valueError _ | .fileNotFound _ | .structError | .codec => false
  | .workerRefusal _ _ | .resourceRefusal _ => false

/-- ZipNN on single blobs: what it compresses it restores, and no blob of a slice is empty. -/
structure Codec where
  compress : Bytes → Bytes
  decompress : Bytes → Except Failure Bytes
  inverse : ∀ slice, slice ≠ [] → decompress (compress slice) = .ok slice
  nonempty : ∀ slice, slice ≠ [] → compress slice ≠ []

/-- `MAGIC`. -/
def magic : Bytes := [0x53, 0x5A, 0x4E, 0x4E, 0x01]

/-- `_MAX_BLOB`. -/
def maxBlob : Nat := 2 ^ 34

/-- `_HASH_READ`. -/
def hashRead : Nat := 2 ^ 20

/-- The four bytes of a length, the lowest first. -/
def packed (n : Nat) : Bytes :=
  [UInt8.ofNat n, UInt8.ofNat (n / 2 ^ 8), UInt8.ofNat (n / 2 ^ 16), UInt8.ofNat (n / 2 ^ 24)]

/-- `_LEN.pack`: a length of 32 bits or more is refused. -/
def pack (n : Nat) : Except Failure Bytes :=
  if n < 2 ^ 32 then .ok (packed n) else .error .structError

/-- `_LEN.unpack` of four bytes. -/
def unpack (bytes : Bytes) : Nat :=
  bytes.foldr (fun byte rest => byte.toNat + 2 ^ 8 * rest) 0

@[simp] theorem packed_length (n : Nat) : (packed n).length = 4 := rfl

theorem unpack_packed {n : Nat} (small : n < 2 ^ 32) : unpack (packed n) = n := by
  simp only [unpack, packed, List.foldr_cons, List.foldr_nil, UInt8.toNat_ofNat']
  omega

section Writing

variable (codec : Codec)

/-- The reads of a file, until one is empty. -/
def slices (chunkBytes : Nat) (bytes : Bytes) : List Bytes :=
  if _more : chunkBytes ≠ 0 ∧ bytes ≠ [] then
    bytes.take chunkBytes :: slices chunkBytes (bytes.drop chunkBytes)
  else []
termination_by bytes.length
decreasing_by
  have some := List.length_pos_of_ne_nil _more.2
  simp only [List.length_drop]
  omega

/-- The frame of a slice, after the bytes that were written before it. -/
def writeFrame (maxOutputBytes : Option Nat) (written : Nat) (chunk : Bytes) : Except Failure Bytes := do
  let blob := codec.compress chunk
  require (blob.length ≤ maxBlob)
    (.streamZnnError s!"compressed slice {blob.length} exceeds {maxBlob}-byte frame ceiling")
  require (maxOutputBytes.isNone || blob.length ≤ chunk.length)
    (.outputCapExceeded s!"compressed slice {blob.length} exceeds raw slice {chunk.length}")
  require (maxOutputBytes.all (written + (4 + blob.length) ≤ ·))
    (.outputCapExceeded s!"StreamZNN output would exceed {maxOutputBytes.getD 0}-byte cap")
  let head ← pack blob.length
  return head ++ blob

/-- The container that `compress_file` writes for the bytes of a file. -/
def compress (chunkBytes : Nat) (maxOutputBytes : Option Nat) (bytes : Bytes) :
    Except Failure Bytes := do
  require (0 < chunkBytes) (.valueError s!"chunk_bytes must be a positive int, got {chunkBytes}")
  require (maxOutputBytes.all (magic.length ≤ ·))
    (.outputCapExceeded s!"StreamZNN magic exceeds {maxOutputBytes.getD 0}-byte output cap")
  thread (fun out chunk => do
    let frame ← writeFrame codec maxOutputBytes out.length chunk
    return out ++ frame) magic (slices chunkBytes bytes)

end Writing

section Reading

variable (codec : Codec)

/-- The loop of `_read_exact`, with the bytes it has so far. -/
def readLoop (readSize wanted : Nat) (buf : Bytes) (stream : Stream UInt8) :
    Except Failure (Bytes × Stream UInt8) :=
  if buf.length < wanted then
    match stream.read (min readSize (wanted - buf.length)) with
    | ([], _) =>
        .error (.streamZnnError s!"truncated container: wanted {wanted} bytes, got {buf.length}")
    | (first :: others, rest) =>
        if (first :: others).length > min readSize (wanted - buf.length) then
          .error (.streamZnnError "source returned more bytes than requested")
        else readLoop readSize wanted (buf ++ first :: others) rest
  else .ok (buf, stream)
termination_by wanted - buf.length
decreasing_by
  simp only [List.length_append, List.length_cons]
  omega

/-- `_read_exact`. -/
def readExact (readSize wanted : Nat) (stream : Stream UInt8) :
    Except Failure (Bytes × Stream UInt8) :=
  readLoop readSize wanted [] stream

/-- The bounds of a reader. -/
structure Limits where
  maxStoredFrameBytes : Nat := maxBlob
  maxDecodedFrameBytes : Option Nat := none
  maxTotalBytes : Option Nat := none
  readSize : Nat := hashRead

/-- The head of a container. -/
def readMagic (limits : Limits) (stream : Stream UInt8) : Except Failure (Stream UInt8) := do
  let (head, rest) ← readExact limits.readSize magic.length stream
  require (head = magic) (.streamZnnError s!"bad magic {head}: not a StreamZNN container")
  return rest

/-- The next length of `iter_frame_lengths`, or the end of the container. -/
def nextLength (limits : Limits) (stream : Stream UInt8) :
    Except Failure (Option Nat × Stream UInt8) := do
  let head := stream.read 1
  if head.1 = [] then return (none, head.2)
  else do
    require (head.1.length = 1) (.streamZnnError "source returned more bytes than requested")
    let (tail, rest) ← readExact limits.readSize 3 head.2
    let blobLen := unpack (head.1 ++ tail)
    require (blobLen ≠ 0) (.streamZnnError "implausible frame length 0")
    require (blobLen ≤ limits.maxStoredFrameBytes)
      (.decodeLimitExceeded "stored StreamZNN frame exceeds bound")
    return (some blobLen, rest)

/-- One frame: its slice and the total that has been restored with it. -/
def readFrame (limits : Limits) (total blobLen : Nat) (stream : Stream UInt8) :
    Except Failure (Bytes × Stream UInt8) := do
  let (blob, rest) ← readExact limits.readSize blobLen stream
  let restored ← codec.decompress blob
  require (limits.maxDecodedFrameBytes.all (restored.length ≤ ·))
    (.decodeLimitExceeded "decoded StreamZNN frame exceeds bound")
  require (limits.maxTotalBytes.all (total + restored.length ≤ ·))
    (.decodeLimitExceeded "decoded total exceeds bound")
  return (restored, rest)

theorem readLoop_items {readSize wanted : Nat} {buf bytes : Bytes} {stream rest : Stream UInt8}
    (read : readLoop readSize wanted buf stream = .ok (bytes, rest)) :
    buf ++ stream.items = bytes ++ rest.items ∧ bytes.length = max buf.length wanted := by
  fun_induction readLoop readSize wanted buf stream with
  | case1 | case2 => cases read
  | case3 buf stream more first others next piece bound ih =>
      obtain ⟨items, length⟩ := ih read
      have whole := stream.read_append (min readSize (wanted - buf.length))
      rw [piece] at whole
      constructor
      · rw [← items, ← whole, List.append_assoc]
      · rw [length, List.length_append]
        omega
  | case4 buf stream full =>
      cases read
      exact ⟨rfl, by omega⟩

theorem readExact_items {readSize wanted : Nat} {bytes : Bytes} {stream rest : Stream UInt8}
    (read : readExact readSize wanted stream = .ok (bytes, rest)) :
    stream.items = bytes ++ rest.items ∧ bytes.length = wanted := by
  simpa using readLoop_items read

theorem nextLength_items {limits : Limits} {stream rest : Stream UInt8} {blobLen : Nat}
    (next : nextLength limits stream = .ok (some blobLen, rest)) :
    rest.items.length < stream.items.length := by
  have whole := congrArg List.length (stream.read_append 1)
  unfold nextLength at next
  by_cases ended : (stream.read 1).1 = []
  · rw [if_pos ended] at next
    cases next
  · simp only [if_neg ended, bind_eq_ok] at next
    obtain ⟨_, _, ⟨tail, left⟩, exact, _, _, _, _, made⟩ := next
    cases made
    have behind := congrArg List.length (readExact_items exact).1
    have some := List.length_pos_of_ne_nil ended
    simp only [List.length_append] at whole behind ⊢
    omega

theorem readFrame_items {limits : Limits} {total blobLen : Nat} {restored : Bytes}
    {stream rest : Stream UInt8}
    (frame : readFrame codec limits total blobLen stream = .ok (restored, rest)) :
    rest.items.length ≤ stream.items.length := by
  simp only [readFrame, bind_eq_ok] at frame
  obtain ⟨⟨blob, left⟩, exact, _, _, _, _, _, _, made⟩ := frame
  cases made
  have whole := congrArg List.length (readExact_items exact).1
  simp only [List.length_append] at whole ⊢
  omega

/-- What an iterator has yielded when it ends, with the stream it leaves or what it raises. -/
structure Decoded where
  chunks : List Bytes
  ended : Except Failure (Stream UInt8)

/-- The frames of a container after its head. -/
def frames (limits : Limits) (total : Nat) (stream : Stream UInt8) : Decoded :=
  match _next : nextLength limits stream with
  | .error failure => ⟨[], .error failure⟩
  | .ok (none, rest) => ⟨[], .ok rest⟩
  | .ok (some blobLen, rest) =>
      match _frame : readFrame codec limits total blobLen rest with
      | .error failure => ⟨[], .error failure⟩
      | .ok (restored, rest) =>
          let later := frames limits (total + restored.length) rest
          ⟨restored :: later.chunks, later.ended⟩
termination_by stream.items.length
decreasing_by exact Nat.lt_of_le_of_lt (readFrame_items codec _frame) (nextLength_items _next)

/-- `iter_decompress`, with its own decoding of the frames. -/
def iterDecompress (limits : Limits) (stream : Stream UInt8) : Decoded :=
  let opened : Except Failure (Stream UInt8) := do
    require (0 < limits.maxStoredFrameBytes) (.valueError "invalid stored frame bound")
    require (0 < limits.readSize) (.valueError "invalid read size")
    readMagic limits stream
  match opened with
  | .error failure => ⟨[], .error failure⟩
  | .ok rest => frames codec limits 0 rest

end Reading

section Files

variable (codec : Codec)

/-- The files of a filesystem. -/
abbrev Files := String → Option Bytes

/-- A result is written to a new file, which replaces the destination or is removed. -/
def publish (files : Files) (tmp dst : String) : Except Failure Bytes → Files
  | .ok bytes => Function.update (Function.update files tmp none) dst (some bytes)
  | .error _ => Function.update files tmp none

/-- What a decoding leaves of its sink. -/
def Decoded.result (decoded : Decoded) : Except Failure Bytes :=
  decoded.ended.map fun _ => decoded.chunks.flatten

/-- `decompress_file` is the case of the default limits, which has no output cap. A reader with a cap stages and
    publishes what it restores in this way too. -/
def decompressFile (limits : Limits) (grants : Nat → Nat) (files : Files) (tmp src dst : String) :
    Except Failure Unit × Files :=
  let result := match files src with
    | none => .error (.fileNotFound src)
    | some stored => (iterDecompress codec limits ⟨stored, grants, 0⟩).result
  (result.map fun _ => (), publish files tmp dst result)

end Files

end Modelark.StreamZnn
