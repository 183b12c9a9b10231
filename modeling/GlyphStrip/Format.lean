import GlyphStrip.Path.Parent
import GlyphStrip.Png.Chunk

/-!
# Image formats

The first bytes of a file tell its format. If they are no known signature, the extension of its path
does. Only one format can be decoded.
-/

namespace GlyphStrip

/-- The formats that are told apart. -/
inductive Format where
  | png
  | other
deriving DecidableEq

namespace Format

/-- The number of bytes at the start of a file that are looked at. -/
abbrev lookAhead : Nat := 16

/-- Some text as a pattern of bytes. -/
def literal (text : String) : List (Option UInt8) :=
  text.toList.map fun c => some (UInt8.ofNat c.toNat)

/-- Some bytes of any value. -/
def gap (n : Nat) : List (Option UInt8) :=
  List.replicate n none

/-- The signatures of formats that cannot be decoded; a place without a byte admits any. -/
def foreign : List (List (Option UInt8)) :=
  [[some 0xff, some 0xd8, some 0xff], literal "GIF89a", literal "GIF87a",
    literal "RIFF" ++ gap 4 ++ literal "WEBP", literal "MM\x00*", literal "II*\x00", literal "DDS ",
    literal "BM", literal "\x00\x00\x01\x00", literal "#?RADIANCE",
    literal "\x00\x00" ++ gap 2 ++ literal "ftypavif", literal "\x76\x2f\x31\x01", literal "qoif",
    literal "P1", literal "P2", literal "P3", literal "P4", literal "P5", literal "P6",
    literal "P7", literal "farbfeld"]

/-- Whether some bytes start with a pattern. -/
def startsWith : List (Option UInt8) → List UInt8 → Bool
  | [], _ => true
  | _ :: _, [] => false
  | expected :: pattern, byte :: bytes =>
    (expected.all fun wanted => wanted == byte) && startsWith pattern bytes

/-- The format with a signature. -/
def ofSignature? (bytes : List UInt8) : Option Format :=
  let head := bytes.take lookAhead
  if startsWith (Png.signature.map some) head then some .png
  else if foreign.any fun pattern => startsWith pattern head then some .other
  else none

/-- The format with an extension, in either case. -/
def ofExtension (extension : String) : Format :=
  if extension.toLower = "png" ∨ extension.toLower = "apng" then .png else .other

/-- The format of a file. -/
def guess (path : String) (bytes : List UInt8) : Format :=
  match ofSignature? bytes with
  | some format => format
  | none =>
    match Path.extension? path with
    | some extension => ofExtension extension
    | none => .other

end Format

end GlyphStrip
