import GlyphStrip.CommandLine.GlyphIndex
import GlyphStrip.CommandLine.Options
import GlyphStrip.Log.Level

/-!
# Reading the command line

Arguments are read one after the other. The value of an option may stand in the same argument or be
the next one. An option that was opened this way stays open until another known option follows or
the arguments end, and only then is its value looked at; so an unknown argument is reported before
a bad value in front of it.
-/

namespace GlyphStrip.CommandLine

/-- Why arguments do not describe a run. -/
inductive ArgumentError where
  | helpRequested
  | unknownArgument (shown : String)
  | missingValue (option : ValueOption)
  | repeated (option : PathOption)
  | badIndex (text : String) (fault : IndexFault)
  | surplusValue (flag : Flag) (value : String)
deriving DecidableEq

/-! ## The shape of an argument -/

/-- What an argument looks like. -/
inductive Shape where
  /-- Two hyphens: no options follow. -/
  | terminator
  /-- A long option, with the text behind an equals sign if there is one. -/
  | long (name : String) (value : Option String)
  /-- Short options, and perhaps a value behind the last one. -/
  | cluster (letters : List Char)
  /-- Any other text, a single hyphen among them. -/
  | plain
deriving DecidableEq

/-- Splits the text of a long option at its first equals sign. -/
def splitLong (text : List Char) : Shape :=
  match text.dropWhile (· != '=') with
  | [] => .long (String.ofList text) none
  | _ :: value => .long (String.ofList (text.takeWhile (· != '='))) (some (String.ofList value))

/-- The shape of an argument. -/
def Shape.ofArgument (argument : String) : Shape :=
  match argument.toList with
  | ['-', '-'] => .terminator
  | '-' :: '-' :: text => splitLong text
  | '-' :: c :: letters => .cluster (c :: letters)
  | _ => .plain

/-! ## The arguments read so far -/

/-- An option whose value was not in its own argument, and the value that has followed since. -/
structure Open where
  option : ValueOption
  value : Option String
deriving DecidableEq

/-- What the arguments read so far say. -/
structure Reader where
  paths : PerPath (Option String)
  preview : List UInt8
  /-- How often more detail was asked for, as far as a byte can count. -/
  verbosity : UInt8
  opened : Option Open
deriving DecidableEq

/-- Counts one more; a full byte stays as it is. -/
def countOn (count : UInt8) : UInt8 :=
  if count = 255 then 255 else count + 1

namespace Reader

/-- Nothing has been read. -/
def start : Reader where
  paths := ⟨none, none⟩
  preview := []
  verbosity := 0
  opened := none

/-- Takes in the value of an option: a path is given once and must not be empty, glyphs add up. -/
def store (reader : Reader) (option : ValueOption) (value : String) : Except ArgumentError Reader :=
  match option with
  | .path p =>
    if (reader.paths.get p).isSome then .error (.repeated p)
    else if value.isEmpty then .error (.missingValue option)
    else .ok { reader with paths := reader.paths.set p (some value) }
  | .preview =>
    match readIndex value with
    | .error fault => .error (.badIndex value fault)
    | .ok c => .ok { reader with preview := reader.preview ++ [c] }

/-- Closes the open option, if there is one, and takes in its value. -/
def settle (reader : Reader) : Except ArgumentError Reader :=
  match reader.opened with
  | none => .ok reader
  | some ⟨option, none⟩ => .error (.missingValue option)
  | some ⟨option, some value⟩ => { reader with opened := none }.store option value

/-- Reads an option together with its value. -/
def give (reader : Reader) (option : ValueOption) (value : String) : Except ArgumentError Reader :=
  reader.settle.bind fun reader => reader.store option value

/-- Reads an option whose value is yet to come. -/
def await (reader : Reader) (option : ValueOption) : Except ArgumentError Reader :=
  reader.settle.map fun reader => { reader with opened := some ⟨option, none⟩ }

/-- Reads a flag. -/
def raise (reader : Reader) (flag : Flag) : Except ArgumentError Reader :=
  reader.settle.bind fun reader =>
    match flag with
    | .verbose => .ok { reader with verbosity := countOn reader.verbosity }
    | .help => .error .helpRequested

/-- Reads a long option. -/
def long (reader : Reader) (name : String) (value : Option String) : Except ArgumentError Reader :=
  match Known.ofLong? name, value with
  | none, _ => .error (.unknownArgument ("--" ++ name))
  | some (.value option), some value => reader.give option value
  | some (.value option), none => reader.await option
  | some (.flag flag), some value => .error (.surplusValue flag value)
  | some (.flag flag), none => reader.raise flag

/-- Reads short options: the text behind an option that takes a value is its value, less an equals
sign in front. -/
def cluster (reader : Reader) : List Char → Except ArgumentError Reader
  | [] => .ok reader
  | letter :: rest =>
    match Known.ofShort? letter with
    | none => .error (.unknownArgument (String.ofList ['-', letter]))
    | some (.flag flag) => (reader.raise flag).bind fun reader => reader.cluster rest
    | some (.value option) =>
      match rest with
      | [] => reader.await option
      | '=' :: value => reader.give option (String.ofList value)
      | value => reader.give option (String.ofList value)

/-- Reads an argument that is no option: the value of the open option, if that has none yet. -/
def plain (reader : Reader) (argument : String) : Except ArgumentError Reader :=
  match reader.opened with
  | some ⟨option, none⟩ => .ok { reader with opened := some ⟨option, some argument⟩ }
  | _ => .error (.unknownArgument argument)

/-- Reads all arguments. Behind the terminator no argument is known. -/
def readAll (reader : Reader) : List String → Except ArgumentError Reader
  | [] => reader.settle
  | argument :: rest =>
    match Shape.ofArgument argument with
    | .terminator =>
      match rest with
      | [] => reader.settle
      | extra :: _ => .error (.unknownArgument extra)
    | .long name value => (reader.long name value).bind fun reader => reader.readAll rest
    | .cluster letters => (reader.cluster letters).bind fun reader => reader.readAll rest
    | .plain => (reader.plain argument).bind fun reader => reader.readAll rest

/-- The level that the flags ask for. -/
def level (reader : Reader) : Level :=
  match reader.verbosity with
  | 0 => .info
  | 1 => .debug
  | _ => .trace

end Reader

end GlyphStrip.CommandLine
