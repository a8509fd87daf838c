import Modelark.Library.Sha256

/-!
# SHA-1

The digest with which git names its objects.
-/

namespace Modelark.Library

namespace Sha1

structure State where
  a : UInt32
  b : UInt32
  c : UInt32
  d : UInt32
  e : UInt32

def start : State :=
  ⟨0x67452301, 0xefcdab89, 0x98badcfe, 0x10325476, 0xc3d2e1f0⟩

def State.add (one other : State) : State :=
  ⟨one.a + other.a, one.b + other.b, one.c + other.c, one.d + other.d, one.e + other.e⟩

def rotateLeft (word count : UInt32) : UInt32 :=
  (word <<< count) ||| (word >>> (32 - count))

/-- The function of a quarter of the rounds, with its constant. -/
def mix (number : Nat) (b c d : UInt32) : UInt32 :=
  if number < 20 then ((b &&& c) ||| (~~~b &&& d)) + 0x5a827999
  else if number < 40 then (b ^^^ c ^^^ d) + 0x6ed9eba1
  else if number < 60 then ((b &&& c) ||| (b &&& d) ||| (c &&& d)) + 0x8f1bbcdc
  else (b ^^^ c ^^^ d) + 0xca62c1d6

def round (s : State) (numbered : Nat × UInt32) : State :=
  let first := rotateLeft s.a 5 + mix numbered.1 s.b s.c s.d + s.e + numbered.2
  ⟨first, s.a, rotateLeft s.b 30, s.c, s.d⟩

/-- The word after the last sixteen, the latest of which comes first. -/
def extend (words : List UInt32) : List UInt32 :=
  let word (back : Nat) : UInt32 := words.getD (back - 1) 0
  rotateLeft (word 3 ^^^ word 8 ^^^ word 14 ^^^ word 16) 1 :: words

def schedule (words : List UInt32) : List UInt32 :=
  ((List.range 64).foldl (fun words _ => extend words) words.reverse).reverse

def compress (s : State) (words : List UInt32) : State :=
  s.add ((List.zip (List.range 80) (schedule words)).foldl round s)

end Sha1

open Sha256 Sha1 in
/-- `hashlib.sha1(…).hexdigest()`. -/
def sha1 (bytes : List UInt8) : String :=
  let blocks := (pieces 64 (pad bytes)).map fun block => (pieces 4 block).map wordOf
  let s := blocks.foldl Sha1.compress Sha1.start
  String.ofList ([s.a, s.b, s.c, s.d, s.e].flatMap hexWord)

end Modelark.Library
