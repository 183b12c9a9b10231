import GlyphStrip.Text.Split

/-!
# Paths

A path is a text whose segments are separated by slashes. Empty segments count for nothing, except
that a slash in front makes the path absolute and a slash at the end asks for a directory.
-/

namespace GlyphStrip.Path

/-- The segments of a path, empty ones included. -/
def segments (path : String) : List String :=
  (Text.split '/' path.toList).map String.ofList

/-- One step of a walk through directories. -/
inductive Step where
  /-- Stay where one is, which has to be a directory. -/
  | stay
  /-- Go to the directory around. -/
  | up
  /-- Go to the entry with a name. -/
  | enter (name : String)
deriving DecidableEq

/-- The step that a segment stands for. -/
def Step.ofSegment? (segment : String) : Option Step :=
  if segment = "" then none
  else if segment = "." then some .stay
  else if segment = ".." then some .up
  else some (.enter segment)

/-- Whether a path starts at the root. -/
def isAbsolute (path : String) : Bool :=
  path.toList.head? == some '/'

/-- Whether a path ends with a slash. -/
def endsWithSlash (path : String) : Bool :=
  path.toList.getLast? == some '/'

/-- The steps of a path, less the demand of a slash at its end. -/
def steps (path : String) : List Step :=
  (segments path).filterMap Step.ofSegment?

/-- The steps of a path, a slash at its end being a step too. -/
def allSteps (path : String) : List Step :=
  if endsWithSlash path then steps path ++ [.stay] else steps path

end GlyphStrip.Path
