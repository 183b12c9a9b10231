import GlyphStrip.Disk.Access
import GlyphStrip.Format
import GlyphStrip.Png.Decode

/-!
# Loading a picture

A picture is read from a file, whose format is told from its first bytes or its path, and decoded.
-/

namespace GlyphStrip

/-- Why a picture cannot be loaded. -/
inductive LoadError where
  | opening (path : String) (fault : DiskFault)
  | reading (path : String) (fault : DiskFault)
  | unsupported (path : String)
  | decoding (path : String) (fault : Png.DecodeFault)
deriving DecidableEq

/-- What a user is told about a picture that cannot be loaded. -/
def LoadError.message : LoadError → String
  | .opening path _ => "error opening " ++ path
  | .reading path _ => "error reading " ++ path
  | .unsupported path => "error decoding " ++ path
  | .decoding path _ => "error decoding " ++ path

/-- Decodes the content of the file that a path names. -/
def decodeFile (path : String) (content : List UInt8) : Except LoadError Image :=
  match Format.guess path content with
  | .other => .error (.unsupported path)
  | .png =>
    match Png.decode content with
    | .error fault => .error (.decoding path fault)
    | .ok image => .ok image

/-- Loads the picture that a path names. -/
def Disk.load (disk : Disk) (path : String) : Except LoadError Image :=
  match disk.resolve path with
  | .error fault => .error (.opening path fault)
  | .ok place =>
    match disk.content place with
    | .error fault => .error (.reading path fault)
    | .ok content => decodeFile path content

end GlyphStrip
