import GlyphStrip.Disk.Resolve

/-!
# Access to a disk
-/

namespace GlyphStrip.Disk

/-- The content of the file at a place. -/
def content (disk : Disk) (place : Place) : Except DiskFault (List UInt8) :=
  match disk.find? place with
  | some (.file content) => .ok content
  | some .directory => .error .isADirectory
  | _ => .error .notFound

/-- Reads the file that a path names. -/
def read (disk : Disk) (path : String) : Except DiskFault (List UInt8) :=
  (disk.resolve path).bind disk.content

end GlyphStrip.Disk
