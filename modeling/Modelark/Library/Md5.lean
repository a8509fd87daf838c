import Modelark.Library.Sha1

/-!
# MD5

The digest by which git-annex spreads the logs of keys over directories.
-/

namespace Modelark.Library

namespace Md5

structure State where
  a : UInt32
  b : UInt32
  c : UInt32
  d : UInt32

def start : State :=
  ⟨0x67452301, 0xefcdab89, 0x98badcfe, 0x10325476⟩

def constants : List UInt32 := [
    0xd76aa478, 0xe8c7b756, 0x242070db, 0xc1bdceee, 0xf57c0faf, 0x4787c62a, 0xa8304613, 0xfd469501,
    0x698098d8, 0x8b44f7af, 0xffff5bb1, 0x895cd7be, 0x6b901122, 0xfd987193, 0xa679438e, 0x49b40821,
    0xf61e2562, 0xc040b340, 0x265e5a51, 0xe9b6c7aa, 0xd62f105d, 0x02441453, 0xd8a1e681, 0xe7d3fbc8,
    0x21e1cde6, 0xc33707d6, 0xf4d50d87, 0x455a14ed, 0xa9e3e905, 0xfcefa3f8, 0x676f02d9, 0x8d2a4c8a,
    0xfffa3942, 0x8771f681, 0x6d9d6122, 0xfde5380c, 0xa4beea44, 0x4bdecfa9, 0xf6bb4b60, 0xbebfbc70,
    0x289b7ec6, 0xeaa127fa, 0xd4ef3085, 0x04881d05, 0xd9d4d039, 0xe6db99e5, 0x1fa27cf8, 0xc4ac5665,
    0xf4292244, 0x432aff97, 0xab9423a7, 0xfc93a039, 0x655b59c3, 0x8f0ccc92, 0xffeff47d, 0x85845dd1,
    0x6fa87e4f, 0xfe2ce6e0, 0xa3014314, 0x4e0811a1, 0xf7537e82, 0xbd3af235, 0x2ad7d2bb, 0xeb86d391]

def State.add (one other : State) : State :=
  ⟨one.a + other.a, one.b + other.b, one.c + other.c, one.d + other.d⟩

/-- The function of a quarter of the rounds, and the word that a round takes. -/
def mix (number : Nat) (b c d : UInt32) : UInt32 × Nat :=
  if number < 16 then ((b &&& c) ||| (~~~b &&& d), number)
  else if number < 32 then ((d &&& b) ||| (~~~d &&& c), (5 * number + 1) % 16)
  else if number < 48 then (b ^^^ c ^^^ d, (3 * number + 5) % 16)
  else (c ^^^ (b ||| ~~~d), 7 * number % 16)

/-- By how much a round rotates. -/
def rotation (number : Nat) : UInt32 :=
  ([[7, 12, 17, 22], [5, 9, 14, 20], [4, 11, 16, 23], [6, 10, 15, 21]].getD (number / 16) []).getD (number % 4) 0

def round (words : List UInt32) (s : State) (numbered : Nat × UInt32) : State :=
  let (mixed, place) := mix numbered.1 s.b s.c s.d
  let sum := s.a + mixed + numbered.2 + words.getD place 0
  ⟨s.d, s.b + Sha1.rotateLeft sum (rotation numbered.1), s.b, s.c⟩

def compress (s : State) (words : List UInt32) : State :=
  s.add ((List.zip (List.range 64) constants).foldl (round words) s)

/-- The bytes of a number, the least significant first. -/
def littleEndian (count value : Nat) : List UInt8 :=
  (Sha256.bigEndian count value).reverse

/-- The bytes in whole blocks, with a one bit and the length in bits. -/
def pad (bytes : List UInt8) : List UInt8 :=
  bytes ++ 0x80 :: (List.replicate ((119 - bytes.length % 64) % 64) 0 ++ littleEndian 8 (8 * bytes.length))

def hexWord (word : UInt32) : List Char :=
  (littleEndian 4 word.toNat).flatMap fun byte => [Nat.digitChar (byte.toNat / 16), Nat.digitChar (byte.toNat % 16)]

end Md5

open Sha256 Md5 in
/-- `hashlib.md5(…).hexdigest()`. -/
def md5 (bytes : List UInt8) : String :=
  let blocks := (pieces 64 (Md5.pad bytes)).map fun block => (pieces 4 block).map fun word => wordOf word.reverse
  let s := blocks.foldl Md5.compress Md5.start
  String.ofList ([s.a, s.b, s.c, s.d].flatMap Md5.hexWord)

example : md5 "abc".toUTF8.data.toList = "900150983cd24fb0d6963f7d28e17f72" := by decide +kernel

end Modelark.Library
