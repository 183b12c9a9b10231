import GlyphStrip.Disk.Resolve
import GlyphStrip.Font.Basic
import GlyphStrip.Path.Parent

/-!
# Publishing a font

A font is written to a scratch file in the directory of its path, and the scratch file is then moved
over the path. So the path never names a part of a font. Every step may fail; then the scratch file
is removed, and the disk is as it was.
-/

namespace GlyphStrip

/-- Why a font cannot be published. -/
inductive PublishError where
  | creating (directory : String) (fault : DiskFault)
  | writing (scratch : String) (fault : DiskFault)
  | syncing (scratch : String) (fault : DiskFault)
  | persisting (path : String) (fault : DiskFault)
deriving DecidableEq

/-- What a user is told about a font that cannot be published. -/
def PublishError.message : PublishError → String
  | .creating directory _ => "error creating temporary file in " ++ directory
  | .writing scratch _ => "error writing " ++ scratch
  | .syncing scratch _ => "error syncing " ++ scratch
  | .persisting path _ => "error persisting font to " ++ path

/-! ## Operations -/

/-- The operations on files that publishing consists of. -/
inductive FileOperation where
  | create (scratch : Place)
  | append (scratch : Place) (bytes : List UInt8)
  | sync (scratch : Place)
  | move (scratch target : Place)
  | remove (scratch : Place)
deriving DecidableEq

namespace Disk

/-- Carries out one operation. -/
def perform (disk : Disk) : FileOperation → Disk
  | .create scratch => disk.put scratch (.file [])
  | .append scratch bytes =>
    match disk.find? scratch with
    | some (.file content) => disk.put scratch (.file (content ++ bytes))
    | _ => disk
  | .sync _ => disk
  | .move scratch target =>
    match disk.find? scratch with
    | some entry => (disk.erase scratch).put target entry
    | none => disk
  | .remove scratch => disk.erase scratch

/-- Carries out operations one after the other. -/
def performAll (disk : Disk) (operations : List FileOperation) : Disk :=
  operations.foldl perform disk

/-- The operations that fill a new scratch file piece by piece. -/
def writing (scratch : Place) (pieces : List (List UInt8)) : List FileOperation :=
  .create scratch :: pieces.map (FileOperation.append scratch) ++ [.sync scratch]

end Disk

/-! ## Devices -/

/-- How bytes get to a scratch file: in which pieces, and what fails on the way. -/
structure Device where
  /-- The pieces in which some bytes are written. -/
  cut : List UInt8 → List (List UInt8)
  flatten_cut (bytes : List UInt8) : (cut bytes).flatten = bytes
  /-- How the piece with a number fails to be written, if it does. -/
  writeFault? : Nat → Option DiskFault
  /-- How the scratch file fails to be synced, if it does. -/
  syncFault? : Option DiskFault

/-- A device that takes all bytes at once and never fails. -/
def Device.sound : Device where
  cut bytes := [bytes]
  flatten_cut _ := List.flatten_singleton
  writeFault? _ := none
  syncFault? := none

/-! ## Scratch files -/

/-- The names that a scratch file may get. The first of them are equally long. -/
def scratchName (n : Nat) : String :=
  ".tmp" ++ toString (100000 + n)

/-- A name that is not in use in a directory and is not the one to avoid. One of the first names is
free, because there are more of them than entries and the name to avoid. -/
def Disk.freshName (disk : Disk) (directory : Place) (avoided : Option String) : String :=
  let names := (List.range (disk.entries.length + 2)).map scratchName
  (names.find? fun name =>
    (disk.find? (name :: directory)).isNone && avoided != some name).getD (scratchName 0)

/-- The absolute path of a scratch file, under which it is created and by which errors name it. -/
def Disk.scratchPath (disk : Disk) (directory name : String) : String :=
  let around := disk.absolute directory
  if Path.endsWithSlash around then around ++ name else around ++ "/" ++ name

/-- The place of a directory in which a scratch file can be created: its path has a greatest
length. -/
def Disk.scratchDirectory (disk : Disk) (directory : String) : Except DiskFault Place :=
  (checkPath (disk.scratchPath directory (scratchName 0))).bind fun _ =>
    disk.resolveDirectory directory

/-! ## Publishing -/

/-- How a font is published: the operations, and how it ends. -/
structure Publication where
  operations : List FileOperation
  result : Except PublishError Unit

/-- A step of a publication: an operation that is carried out, or the error that it ends with. -/
abbrev PublishStep := Except PublishError FileOperation

/-- An operation, unless there is a fault. -/
def FileOperation.unless (operation : FileOperation) (fault? : Option DiskFault)
    (error : DiskFault → PublishError) : PublishStep :=
  match fault? with
  | some fault => .error (error fault)
  | none => .ok operation

/-- Takes steps up to the first that fails; then the scratch file is removed. -/
def Publication.ofSteps (scratch : Place) : List PublishStep → Publication
  | [] => ⟨[], .ok ()⟩
  | .error error :: _ => ⟨[.remove scratch], .error error⟩
  | .ok operation :: rest =>
    let publication := ofSteps scratch rest
    ⟨operation :: publication.operations, publication.result⟩

/-- The step that moves a full scratch file over a path. -/
def Disk.movingStep (disk : Disk) (path : String) (scratch : Place) : PublishStep :=
  match disk.replaceable path with
  | .error fault => .error (.persisting path fault)
  | .ok target => .ok (.move scratch target)

/-- Plans the publication of some bytes, given in pieces, on a device. -/
def Disk.publicationOn (disk : Disk) (device : Device) (path : String)
    (pieces : List (List UInt8)) : Publication :=
  let directory := Path.directory path
  match disk.scratchDirectory directory with
  | .error fault => ⟨[], .error (.creating directory fault)⟩
  | .ok place =>
    let name := disk.freshName place (Path.fileName? path)
    let scratch := name :: place
    let shown := disk.scratchPath directory name
    .ofSteps scratch <| .ok (.create scratch) ::
      (pieces.mapIdx fun n piece =>
        (FileOperation.append scratch piece).unless (device.writeFault? n) (.writing shown)) ++
      [(FileOperation.sync scratch).unless device.syncFault? (.syncing shown),
        (disk.performAll (writing scratch pieces)).movingStep path scratch]

/-- Publishes a font on a device. -/
def Disk.publishOn (disk : Disk) (device : Device) (path : String) (font : Font) :
    Except PublishError Unit × Disk :=
  let publication := disk.publicationOn device path (device.cut font.bytes)
  (publication.result, disk.performAll publication.operations)

/-- Plans the publication of some bytes where nothing fails but what the disk refuses. -/
def Disk.publication (disk : Disk) (path : String) (pieces : List (List UInt8)) : Publication :=
  disk.publicationOn .sound path pieces

/-- Publishes a font where nothing fails but what the disk refuses. -/
def Disk.publish (disk : Disk) (path : String) (font : Font) : Except PublishError Unit × Disk :=
  disk.publishOn .sound path font

end GlyphStrip
