import Mathlib

/-!
# Restore evidence

The one rule by which restore, verification, planning and repair decide which original-byte digest
a stored copy is expected to have, and whether it satisfies an approved digest.
-/

namespace Modelark.Archive

/-- The tables of the runtime with which texts are read. -/
structure Unicode where
  lower : String → String
  isDecimal : Char → Bool
  isSpace : Char → Bool

/-- Fail-closed digest evidence. -/
inductive DigestError where
  | conflict (sources : List (String × String))
  | malformedOrig (orig : Option String) (annex : String)
  | malformedCatalog (catalog : Option String)
  | indeterminateCompressed
  deriving Repr, DecidableEq

/-- `x and …`: a text that is present and not empty. -/
def truthy (text : Option String) : Bool :=
  text.any (· != "")

def isHex (c : Char) : Bool :=
  ('0' ≤ c && c ≤ '9') || ('a' ≤ c && c ≤ 'f')

def dropText (text : String) (chars : List Char) : Option (List Char) :=
  if text.toList.isPrefixOf chars then some (chars.drop text.length) else none

namespace Unicode

variable (u : Unicode)

def strip (text : String) : String :=
  String.ofList ((text.toList.dropWhile u.isSpace).reverse.dropWhile u.isSpace).reverse

/-- `^SHA256E?-s\d+--([0-9a-f]{64})(?:\.|$)`, where `$` also matches before a final newline. -/
def annexSha256 (key : Option String) : Option String := do
  let named ← dropText "SHA256" (key.getD "").toList
  let sized ← dropText "-s" (if named.head? = some 'E' then named.tail else named)
  guard (sized.takeWhile u.isDecimal ≠ [])
  let body ← dropText "--" (sized.dropWhile u.isDecimal)
  let digest := body.take 64
  guard (digest.length = 64 ∧ digest.all isHex)
  guard (body.drop 64 = [] ∨ body.drop 64 = ['\n'] ∨ (body.drop 64).head? = some '.')
  return String.ofList digest

/-- A 64-hex digest, or nothing. -/
def hex64 (value : Option String) : Option String :=
  (value.map fun text => u.lower (u.strip text)).filter fun text =>
    text.length = 64 && text.toList.all isHex

def presentNonempty (value : Option String) : Bool :=
  value.any fun text => u.strip text != ""

/-- The strongest original-byte digest to expect of one stored copy. `compressed` is `none` when it
    is neither a boolean nor 0 or 1. -/
def expectedSha256 (catalogSha origSha256 : Option String) (compressed : Option Bool)
    (annexKey : Option String) : Except DigestError (Option String) :=
  match compressed with
  | none => .error .indeterminateCompressed
  | some compressedFlag =>
      let annex := if compressedFlag then none else (u.annexSha256 annexKey).map u.lower
      let catalog := u.hex64 catalogSha
      let orig := u.hex64 origSha256
      let origMalformed := u.presentNonempty origSha256 && orig.isNone
      let catalogMalformed := u.presentNonempty catalogSha && catalog.isNone
      let sources := [("catalog_sha", catalog), ("orig_sha256", orig), ("annex_key", annex)].filterMap
        fun source => source.2.map fun digest => (source.1, digest)
      if origMalformed && annex.isSome then .error (.malformedOrig origSha256 (annex.getD ""))
      else if catalogMalformed && (orig.isSome || annex.isSome) then
        .error (.malformedCatalog catalogSha)
      else
        match (sources.map Prod.snd).dedup with
        | _ :: _ :: _ => .error (.conflict sources)
        | [digest] => .ok (some digest)
        | [] =>
            -- A malformed text on its own is still returned, as older catalogs rely on it.
            if origMalformed then .ok (origSha256.map fun text => u.lower (u.strip text))
            else if catalogMalformed then .ok (catalogSha.map fun text => u.lower (u.strip text))
            else .ok none

/-- Whether archive evidence satisfies an approved digest; without one, any digest will do. -/
def contentSatisfies (approvedSha256 origSha256 : Option String) (compressed : Option Bool)
    (annexKey : Option String) : Bool :=
  match u.expectedSha256 none origSha256 compressed annexKey with
  | .error _ => false
  | .ok resolved =>
      if truthy approvedSha256 then
        resolved.any fun digest => approvedSha256.any fun approved => u.lower digest == u.lower approved
      else truthy resolved

end Unicode

/-- What `str.strip` takes off an ASCII text. -/
def asciiBlanks : List Char :=
  [9, 10, 11, 12, 13, 28, 29, 30, 31, 32].map Char.ofNat

/-- The tables restricted to ASCII texts. -/
def asciiUnicode : Unicode where
  lower text := String.ofList (text.toList.map Char.toLower)
  isDecimal := Char.isDigit
  isSpace := asciiBlanks.contains

end Modelark.Archive
