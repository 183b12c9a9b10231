import GlyphStrip.CommandLine.Parse
import GlyphStrip.Text.Hang
import GlyphStrip.Text.Terminal

/-!
# What the command line says

The help lists every option; an error names the argument or option at fault. Options and arguments
are set off from the words around them, and what a terminal would not show is then taken out.
-/

namespace GlyphStrip.CommandLine

/-- The spellings of an option as the help lists them. -/
def Known.spellings (option : Known) : List String :=
  [String.ofList ['-', option.short], option.shown]

/-- The number of blanks in front of a spelling. -/
abbrev margin : Nat := 2

/-- The column of the help in which the purposes of the options start. -/
abbrev purposeColumn : Nat := 27

/-- The sources of a path other than its option. -/
def fallbacks (environment : Environment) : Known → String
  | .value (.path option) =>
    " [env: " ++ option.variableName ++ "=" ++
      hang purposeColumn ((environment.get option).getD "") ++
      "] [default: " ++ option.defaultPath ++ "]"
  | _ => ""

/-- The texts with a comma between them. -/
def listed (texts : List String) : String :=
  String.intercalate ", " texts

/-- The line of the help for one option. -/
def helpLine (environment : Environment) (option : Known) : String :=
  let gap := purposeColumn - margin - (listed option.spellings).length
  String.ofList (blanks margin) ++ listed (option.spellings.map Terminal.setOff) ++
    String.ofList (blanks gap) ++ option.purpose ++ fallbacks environment option ++ "\n"

/-- The help. -/
def help (environment : Environment) : String :=
  Terminal.shown ("Converts the large font strip image into a packed font\n\n" ++
    "Usage: lgfont-converter [OPTIONS]\n\nOptions:\n" ++
    String.join (Known.all.map (helpLine environment)))

/-- A text in quotes, set off from what is around it. -/
def cited (text : String) : String :=
  "'" ++ Terminal.setOff text ++ "'"

/-- An option in quotes, set off likewise. -/
def Known.cited (option : Known) : String :=
  CommandLine.cited option.shown

/-- An error message. -/
def complain (text : String) : String :=
  "error: " ++ Terminal.shown text

/-- What a user is told about arguments that describe no run. -/
def ArgumentError.message (environment : Environment) : ArgumentError → String
  | .helpRequested => help environment
  | .unknownArgument shown => complain ("unexpected argument " ++ cited shown ++ " found")
  | .missingValue option =>
    complain ("a value is required for " ++ (Known.value option).cited ++ " but none was supplied")
  | .repeated option =>
    complain ("the argument " ++ (Known.value (.path option)).cited ++
      " cannot be used multiple times")
  | .badIndex text fault =>
    complain ("invalid value " ++ cited text ++ " for " ++ (Known.value .preview).cited ++ ": " ++
      fault.message)
  | .surplusValue flag value =>
    complain ("unexpected value " ++ cited value ++ " for " ++ (Known.flag flag).cited ++
      " found; no more were expected")

end GlyphStrip.CommandLine
