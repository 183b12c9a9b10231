import GlyphStrip.CommandLine.Matches
import GlyphStrip.CommandLine.Message
import GlyphStrip.ConvertFile
import GlyphStrip.Font.Preview
import GlyphStrip.Text.Hang

/-!
# The program

One run reads its arguments, converts a file and shows the chosen glyphs of the font. What it does
is a script of acts, and what it leaves behind is what the acts add up to.
-/

namespace GlyphStrip

/-- The exit codes of a run. -/
inductive ExitCode where
  | success
  | failure
  | badArguments
deriving DecidableEq

/-- The number of an exit code. -/
def ExitCode.toByte : ExitCode → UInt8
  | .success => 0
  | .failure => 1
  | .badArguments => 2

/-- What a run leaves behind. -/
structure Outcome where
  code : ExitCode
  /-- The text on standard output. -/
  output : String
  /-- The events of the run, shown or not. -/
  events : List Event
  /-- The events on standard error. -/
  shown : List Event
  /-- The message on standard error, behind the events. -/
  error : Option String
  disk : Disk

namespace Outcome

/-- The first line of each event on standard error. -/
def log (outcome : Outcome) : List String :=
  outcome.shown.filterMap fun event => event.lines.head?

/-- The other lines on standard error. -/
def otherLines (outcome : Outcome) : List String :=
  outcome.shown.flatMap (fun event => event.lines.tail) ++
    (outcome.error.map Text.lines).getD []

/-- Whether a line reports an error. -/
def isReport (line : String) : Bool :=
  "Error: ".toList.isPrefixOf line.toList || "error: ".toList.isPrefixOf line.toList

/-- The first line that reports an error. -/
def errorLine? (outcome : Outcome) : Option String :=
  outcome.otherLines.find? isReport

end Outcome

/-- What a run does, in order, the code that it exits with, and the level up to which its events are
shown. -/
structure Script where
  acts : List Act
  code : ExitCode
  level : Level

/-- What a run leaves behind that keeps to a script. -/
def Script.outcome (script : Script) (disk : Disk) : Outcome where
  code := script.code
  output := String.join (script.acts.filterMap Act.text?)
  events := script.acts.filterMap Act.event?
  shown := Event.shown script.level (script.acts.filterMap Act.event?)
  error := (script.acts.filterMap Act.message?).head?
  disk := disk.performAll (script.acts.filterMap Act.operation?)

namespace Program

/-! ## Reports -/

/-- The number of blanks in front of a cause that is alone. -/
abbrev causeMargin : Nat := 4

/-- The width of the number of a cause. -/
abbrev causeNumberWidth : Nat := 5

/-- The numbers of causes stand right-aligned in front of them. -/
def causeNumber (n : Nat) : String :=
  String.ofList (blanks (causeNumberWidth - (toString n).length)) ++ toString n ++ ": "

/-- The causes of an error, each on a line of its own, numbered if there are several. -/
def listCauses : List String → String
  | [] => ""
  | [cause] =>
    "\n\nCaused by:\n" ++ String.ofList (blanks causeMargin) ++ hang causeMargin cause
  | causes =>
    "\n\nCaused by:" ++ String.join (causes.mapIdx fun n cause =>
      "\n" ++ causeNumber n ++ hang (causeNumberWidth + 2) cause)

/-- What a user is told about a run that fails: the message of its error, and those of its causes
as far as they are the program's own. -/
def report (error : ConvertError) : String :=
  "Error: " ++ error.message ++ listCauses error.chain.tail

/-! ## Runs -/

/-- The script of a run with a configuration. -/
def configured (disk : Disk) (config : Config) : Script :=
  let plan := disk.planOn .sound config.input config.output
  let acts := .tell (.parsedArguments config) :: plan.acts
  match plan.result with
  | .error error => ⟨acts ++ [.report (report error)], .failure, config.level⟩
  | .ok font => ⟨acts ++ [.print (font.preview config.preview)], .success, config.level⟩

/-- The script of a run. Without a configuration no level is chosen, and no event is told. -/
def script (disk : Disk) (arguments : List String) (environment : CommandLine.Environment) :
    Script :=
  match CommandLine.parse arguments environment with
  | .error .helpRequested => ⟨[.print (CommandLine.help environment)], .success, .info⟩
  | .error error => ⟨[.report (error.message environment)], .badArguments, .info⟩
  | .ok config => configured disk config

/-- What a run does, in order. -/
def acts (disk : Disk) (arguments : List String) (environment : CommandLine.Environment) :
    List Act :=
  (script disk arguments environment).acts

/-- Runs the program on a disk. -/
def run (disk : Disk) (arguments : List String) (environment : CommandLine.Environment) : Outcome :=
  (script disk arguments environment).outcome disk

end Program

end GlyphStrip
