import GlyphStrip.Act
import GlyphStrip.Load
import GlyphStrip.Strip.Pack

/-!
# Converting a file

The strip is loaded and packed before the output is looked at; then the font is published.
-/

namespace GlyphStrip

/-- Why a file is not converted. -/
inductive ConvertError where
  | load (error : LoadError)
  | pack (input : String) (error : PackError)
  | publish (error : PublishError)
deriving DecidableEq

namespace ConvertError

/-- What a user is told first. -/
def message : ConvertError → String
  | .load error => error.message
  | .pack input _ => "error converting " ++ input
  | .publish error => error.message

/-- The message and those of the errors underneath, as far as they are the program's own. -/
def chain (error : ConvertError) : List String :=
  error.message :: match error with
    | .pack _ error => [error.message, error.cause]
    | _ => []

end ConvertError

/-- The event of a loaded picture. -/
def Event.ofImage (path : String) (image : Image) : Event :=
  .decodedImage path image.toGray.width image.toGray.height image.colorType

/-- Packs a loaded picture: the events on the way, and how it ends. -/
def convertImage (input : String) (image : Image) : List Event × Except ConvertError Font :=
  let packing := (Source.ofGray image.toGray).pack
  (.ofImage input image :: packing.finished.map Event.packedGlyph,
    packing.result.mapError (ConvertError.pack input))

/-- What a conversion does, in order, and how it ends. -/
structure Plan where
  acts : List Act
  result : Except ConvertError Font

/-- What a conversion leaves behind: the events told, how it ended, and the disk. -/
structure Conversion where
  events : List Event
  result : Except ConvertError Font
  disk : Disk

/-- Plans the conversion of the strip at `input` into a font at `output`. That the font has been
written is told once it is in its place. -/
def Disk.planOn (disk : Disk) (device : Device) (input output : String) : Plan :=
  match disk.load input with
  | .error error => ⟨[], .error (.load error)⟩
  | .ok image =>
    match convertImage input image with
    | (events, .error error) => ⟨events.map .tell, .error error⟩
    | (events, .ok font) =>
      let publication := disk.publicationOn device output (device.cut font.bytes)
      let acts := events.map .tell ++ publication.operations.map .perform
      match publication.result with
      | .error error => ⟨acts, .error (.publish error)⟩
      | .ok _ => ⟨acts ++ [.tell (.wroteFont input output)], .ok font⟩

/-- Carries out a plan. -/
def Plan.carryOut (plan : Plan) (disk : Disk) : Conversion where
  events := plan.acts.filterMap Act.event?
  result := plan.result
  disk := disk.performAll (plan.acts.filterMap Act.operation?)

/-- Converts the strip at `input` into a font at `output` on a device. -/
def Disk.convertFileOn (disk : Disk) (device : Device) (input output : String) : Conversion :=
  (disk.planOn device input output).carryOut disk

/-- Converts the strip at `input` into a font at `output` where nothing fails but what the disk
refuses. -/
def Disk.convertFile (disk : Disk) (input output : String) : Conversion :=
  disk.convertFileOn .sound input output

end GlyphStrip
