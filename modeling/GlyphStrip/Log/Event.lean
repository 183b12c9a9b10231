import GlyphStrip.Config
import GlyphStrip.Font.Basic
import GlyphStrip.Raster.Image
import GlyphStrip.Text.Quoted
import GlyphStrip.Text.Split

/-!
# Events

A run tells of what it has done in events, each of which has a level and a text.
-/

namespace GlyphStrip

/-- Something that a run has done. -/
inductive Event where
  | parsedArguments (config : Config)
  | decodedImage (path : String) (width height : UInt32) (color : ColorType)
  | packedGlyph (glyph : Glyph)
  | wroteFont (input output : String)
deriving DecidableEq

/-- A list of numbers in brackets. -/
def bracketed (numbers : List UInt8) : String :=
  "[" ++ String.intercalate ", " (numbers.map fun n => toString n.toNat) ++ "]"

/-- A configuration with the names of its parts. -/
def Config.describe (config : Config) : String :=
  "Config \x7b input: " ++ Quoted.quote config.input ++
    ", output: " ++ Quoted.quote config.output ++ ", preview: " ++ bracketed config.preview ++
    ", log_level: Level(" ++ config.level.shortName ++ ") \x7d"

namespace Event

/-- The level of an event. -/
def level : Event → Level
  | .parsedArguments _ => .debug
  | .decodedImage .. => .debug
  | .packedGlyph _ => .trace
  | .wroteFont .. => .info

/-- The part of the program that an event comes from. -/
def target : Event → String
  | .decodedImage .. => "lgfont_converter::source"
  | _ => "lgfont_converter"

/-- What an event says. -/
def message : Event → String
  | .parsedArguments config => "parsed arguments config=" ++ config.describe
  | .decodedImage path width height color =>
    "decoded source image path=" ++ path ++ " width=" ++ toString width.toNat ++ " height=" ++
      toString height.toNat ++ " color=" ++ color.name
  | .packedGlyph glyph =>
    "packed glyph glyph=" ++ toString glyph.index.toNat ++ " rows=" ++ bracketed glyph.bytes
  | .wroteFont input output => "wrote packed font input=" ++ input ++ " output=" ++ output

/-- The text of an event. -/
def text (event : Event) : String :=
  event.level.name ++ " " ++ event.target ++ ": " ++ event.message

/-- The lines of an event. -/
def lines (event : Event) : List String :=
  Text.lines event.text

/-- The events that are shown at a level. -/
def shown (level : Level) (events : List Event) : List Event :=
  events.filter fun event => level.admits event.level

/-- The lines of a log that shows events up to a level, less the white space in front of them. -/
def log (level : Level) (events : List Event) : List String :=
  ((shown level events).flatMap lines).map Text.trimStart

end Event

end GlyphStrip
