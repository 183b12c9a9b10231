/-!
# Options

Two options name paths, one names a glyph to show, and two are flags. Every option has a long and a
short spelling.
-/

namespace GlyphStrip.CommandLine

/-- An option whose value is a path. -/
inductive PathOption where
  | input
  | output
deriving DecidableEq

/-- An option that takes a value. -/
inductive ValueOption where
  | path (option : PathOption)
  | preview
deriving DecidableEq

/-- An option without a value. -/
inductive Flag where
  | verbose
  | help
deriving DecidableEq

/-- Any option. -/
inductive Known where
  | value (option : ValueOption)
  | flag (flag : Flag)
deriving DecidableEq

/-- All options, in the order in which the help lists them. -/
def Known.all : List Known :=
  [.value (.path .input), .value (.path .output), .value .preview, .flag .verbose, .flag .help]

/-- The long spelling, without its hyphens. -/
def Known.long : Known → String
  | .value (.path .input) => "input"
  | .value (.path .output) => "output"
  | .value .preview => "preview"
  | .flag .verbose => "verbose"
  | .flag .help => "help"

/-- The short spelling, without its hyphen. -/
def Known.short : Known → Char
  | .value (.path .input) => 'i'
  | .value (.path .output) => 'o'
  | .value .preview => 'p'
  | .flag .verbose => 'v'
  | .flag .help => 'h'

/-- The long spelling as messages show it: with what follows it on the command line. -/
def Known.shown : Known → String
  | .value (.path .input) => "--input <input>"
  | .value (.path .output) => "--output <output>"
  | .value .preview => "--preview <preview>"
  | .flag .verbose => "--verbose..."
  | .flag .help => "--help"

/-- What the help says about an option. -/
def Known.purpose : Known → String
  | .value (.path .input) => "The strip image holding all 256 glyphs"
  | .value (.path .output) => "The path the packed font is written to"
  | .value .preview => "Prints the glyph with the given index after conversion"
  | .flag .verbose => "Increases logging verbosity"
  | .flag .help => "Print help"

/-- The option with a long spelling. -/
def Known.ofLong? (name : String) : Option Known :=
  Known.all.find? fun option => option.long == name

/-- The option with a short spelling. -/
def Known.ofShort? (letter : Char) : Option Known :=
  Known.all.find? fun option => option.short == letter

namespace PathOption

/-- The variable that stands in for an option that is not given. -/
def variableName : PathOption → String
  | .input => "LGFONT_INPUT"
  | .output => "LGFONT_OUTPUT"

/-- The path that is used when neither the option nor its variable is given. -/
def defaultPath : PathOption → String
  | .input => "lgfont.png"
  | .output => "lgfont.bin"

end PathOption

/-- One item for each option that names a path. -/
structure PerPath (α : Type) where
  input : α
  output : α
deriving DecidableEq

namespace PerPath

variable {α : Type}

/-- The item of an option. -/
def get (items : PerPath α) : PathOption → α
  | .input => items.input
  | .output => items.output

/-- Replaces the item of an option. -/
def set (items : PerPath α) (option : PathOption) (item : α) : PerPath α :=
  match option with
  | .input => { items with input := item }
  | .output => { items with output := item }

end PerPath

/-- The values of the variables, as far as they are set. -/
abbrev Environment := PerPath (Option String)

end GlyphStrip.CommandLine
