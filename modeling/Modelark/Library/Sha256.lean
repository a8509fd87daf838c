import Mathlib

/-!
# SHA-256

The digest of a list of bytes, on 32-bit words, in lowercase hexadecimal.
-/

namespace Modelark.Library

namespace Sha256

def roundConstants : List UInt32 :=
  [0x428a2f98, 0x71374491, 0xb5c0fbcf, 0xe9b5dba5, 0x3956c25b, 0x59f111f1, 0x923f82a4, 0xab1c5ed5,
    0xd807aa98, 0x12835b01, 0x243185be, 0x550c7dc3, 0x72be5d74, 0x80deb1fe, 0x9bdc06a7, 0xc19bf174,
    0xe49b69c1, 0xefbe4786, 0x0fc19dc6, 0x240ca1cc, 0x2de92c6f, 0x4a7484aa, 0x5cb0a9dc, 0x76f988da,
    0x983e5152, 0xa831c66d, 0xb00327c8, 0xbf597fc7, 0xc6e00bf3, 0xd5a79147, 0x06ca6351, 0x14292967,
    0x27b70a85, 0x2e1b2138, 0x4d2c6dfc, 0x53380d13, 0x650a7354, 0x766a0abb, 0x81c2c92e, 0x92722c85,
    0xa2bfe8a1, 0xa81a664b, 0xc24b8b70, 0xc76c51a3, 0xd192e819, 0xd6990624, 0xf40e3585, 0x106aa070,
    0x19a4c116, 0x1e376c08, 0x2748774c, 0x34b0bcb5, 0x391c0cb3, 0x4ed8aa4a, 0x5b9cca4f, 0x682e6ff3,
    0x748f82ee, 0x78a5636f, 0x84c87814, 0x8cc70208, 0x90befffa, 0xa4506ceb, 0xbef9a3f7, 0xc67178f2]

structure State where
  a : UInt32
  b : UInt32
  c : UInt32
  d : UInt32
  e : UInt32
  f : UInt32
  g : UInt32
  h : UInt32

def start : State :=
  ⟨0x6a09e667, 0xbb67ae85, 0x3c6ef372, 0xa54ff53a, 0x510e527f, 0x9b05688c, 0x1f83d9ab, 0x5be0cd19⟩

def State.add (one other : State) : State :=
  ⟨one.a + other.a, one.b + other.b, one.c + other.c, one.d + other.d, one.e + other.e, one.f + other.f,
    one.g + other.g, one.h + other.h⟩

def rotate (word count : UInt32) : UInt32 :=
  (word >>> count) ||| (word <<< (32 - count))

/-- One round, with the sum of its constant and its word. -/
def round (s : State) (keyed : UInt32) : State :=
  let sigma1 := rotate s.e 6 ^^^ rotate s.e 11 ^^^ rotate s.e 25
  let choice := (s.e &&& s.f) ^^^ (~~~s.e &&& s.g)
  let first := s.h + sigma1 + choice + keyed
  let sigma0 := rotate s.a 2 ^^^ rotate s.a 13 ^^^ rotate s.a 22
  let majority := (s.a &&& s.b) ^^^ (s.a &&& s.c) ^^^ (s.b &&& s.c)
  ⟨first + sigma0 + majority, s.a, s.b, s.c, s.d + first, s.e, s.f, s.g⟩

/-- The word after the last sixteen, the latest of which comes first. -/
def extend (words : List UInt32) : List UInt32 :=
  let word (back : Nat) : UInt32 := words.getD (back - 1) 0
  let sigma0 := rotate (word 15) 7 ^^^ rotate (word 15) 18 ^^^ (word 15 >>> 3)
  let sigma1 := rotate (word 2) 17 ^^^ rotate (word 2) 19 ^^^ (word 2 >>> 10)
  (word 16 + sigma0 + word 7 + sigma1) :: words

/-- The words of a block with those of its schedule. -/
def schedule (words : List UInt32) : List UInt32 :=
  ((List.range 48).foldl (fun words _ => extend words) words.reverse).reverse

def compress (s : State) (words : List UInt32) : State :=
  s.add ((List.zipWith (· + ·) roundConstants (schedule words)).foldl round s)

/-- The bytes of a number, the most significant first. -/
def bigEndian (count value : Nat) : List UInt8 :=
  (List.range count).map fun place => UInt8.ofNat (value / 256 ^ (count - 1 - place))

/-- The bytes in whole blocks, with a one bit and the length in bits. -/
def pad (bytes : List UInt8) : List UInt8 :=
  bytes ++ 0x80 :: (List.replicate ((119 - bytes.length % 64) % 64) 0 ++ bigEndian 8 (8 * bytes.length))

def wordOf (bytes : List UInt8) : UInt32 :=
  UInt32.ofNat (bytes.foldl (fun value byte => 256 * value + byte.toNat) 0)

/-- A list in pieces of one size. -/
def pieces {α : Type} (size : Nat) (xs : List α) : List (List α) :=
  (List.range (xs.length / size)).map fun place => (xs.drop (place * size)).take size

def hexWord (word : UInt32) : List Char :=
  (List.range 8).map fun place => Nat.digitChar (word.toNat / 16 ^ (7 - place) % 16)

end Sha256

open Sha256 in
/-- `hashlib.sha256(…).hexdigest()`. -/
def sha256 (bytes : List UInt8) : String :=
  let blocks := (pieces 64 (pad bytes)).map fun block => (pieces 4 block).map wordOf
  let s := blocks.foldl compress start
  String.ofList ([s.a, s.b, s.c, s.d, s.e, s.f, s.g, s.h].flatMap hexWord)

end Modelark.Library
