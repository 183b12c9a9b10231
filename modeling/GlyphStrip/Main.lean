import GlyphStrip.Program

/-!
# The command

Carries out a run on the files of the machine: it reads and writes what the definitions of the
library ask for, and shows what they say.
-/

namespace GlyphStrip.Command

/-- What the machine says about a failed operation. -/
def faultOf : IO.Error → DiskFault
  | .noFileOrDirectory .. => .notFound
  | .alreadyExists .. => .alreadyExists
  | .resourceBusy .. => .resourceBusy
  | .inappropriateType .. => .notADirectory
  | .resourceExhausted .. => .storageFull
  | .hardwareFault .. => .hardware
  | _ => .invalidInput

/-- Carries out an operation that may fail. -/
def attempt {α : Type} (operation : IO α) : IO (Except DiskFault α) := do
  try
    return .ok (← operation)
  catch error =>
    return .error (faultOf error)

/-- Shows events on standard error. -/
def tell (level : Level) (events : List Event) : IO Unit :=
  (Event.log level events).forM fun line => IO.eprintln line

/-- Ends a run that fails. -/
def fail (error : ConvertError) : IO ExitCode := do
  IO.eprintln (Program.report error)
  return .failure

/-- Loads the picture that a path names. -/
def load (path : String) : IO (Except LoadError Image) := do
  match ← attempt (IO.FS.Handle.mk path .read) with
  | .error fault => return .error (.opening path fault)
  | .ok handle =>
    match ← attempt handle.readBinToEnd with
    | .error fault => return .error (.reading path fault)
    | .ok content => return decodeFile path content.data.toList

/-- Creates a scratch file under the first of some names that is not in use. -/
def create (directory : String) : List Nat → IO (Except DiskFault (String × IO.FS.Handle))
  | [] => return .error .alreadyExists
  | n :: rest => do
    let scratch := directory ++ "/" ++ scratchName n
    match ← attempt (IO.FS.Handle.mk scratch .writeNew) with
    | .error .alreadyExists => create directory rest
    | .error fault => return .error fault
    | .ok handle => return .ok (scratch, handle)

/-- Removes a scratch file that is of no use any more. -/
def abandon (scratch : String) (error : PublishError) : IO (Except PublishError Unit) := do
  let _ ← attempt (IO.FS.removeFile scratch)
  return .error error

/-- Publishes a font at a path. -/
def publish (path : String) (font : Font) : IO (Except PublishError Unit) := do
  let directory := Path.directory path
  match ← create directory (List.range 1000) with
  | .error fault => return .error (.creating directory fault)
  | .ok (scratch, handle) =>
    match ← attempt (handle.write ⟨font.bytes.toArray⟩) with
    | .error fault => abandon scratch (.writing scratch fault)
    | .ok _ =>
      match ← attempt handle.flush with
      | .error fault => abandon scratch (.syncing scratch fault)
      | .ok _ =>
        match ← attempt (IO.FS.rename scratch path) with
        | .error fault => abandon scratch (.persisting path fault)
        | .ok _ => return .ok ()

/-- Carries out a configured run. -/
def run (config : Config) : IO ExitCode := do
  tell config.level [.parsedArguments config]
  match ← load config.input with
  | .error error => fail (.load error)
  | .ok image =>
    let (events, result) := convertImage config.input image
    tell config.level events
    match result with
    | .error error => fail error
    | .ok font =>
      match ← publish config.output font with
      | .error error => fail (.publish error)
      | .ok _ =>
        tell config.level [.wroteFont config.input config.output]
        IO.print (font.preview config.preview)
        return .success

/-- Carries out the run that the arguments describe. -/
def start (arguments : List String) (environment : CommandLine.Environment) : IO ExitCode :=
  match CommandLine.parse arguments environment with
  | .error .helpRequested => do
    IO.print (CommandLine.help environment)
    return .success
  | .error error => do
    IO.eprintln (error.message environment)
    return .badArguments
  | .ok config => run config

end GlyphStrip.Command

open GlyphStrip CommandLine in
/-- Reads the variables and runs the program. -/
def main (arguments : List String) : IO UInt32 := do
  let input ← IO.getEnv PathOption.input.variableName
  let output ← IO.getEnv PathOption.output.variableName
  let code ← Command.start arguments ⟨input, output⟩
  return code.toByte.toUInt32
