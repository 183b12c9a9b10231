import GlyphStrip.Path.Basic

/-!
# Parents of paths

The parent of a path is what remains in front of its last segment. Empty segments and single dots
are passed over, except for a slash or a single dot at the very start.
-/

namespace GlyphStrip.Path

/-- Whether a segment behind the first one counts for nothing. -/
def isIdle (segment : String) : Bool :=
  segment == "" || segment == "."

/-- The segments less idle ones at their end. -/
def trim (segments : List String) : List String :=
  (segments.reverse.dropWhile isIdle).reverse

/-- The path with some segments behind a first one. -/
def assemble (first : String) (others : List String) : String :=
  if first = "" ∧ others = [] then "/"
  else String.ofList (Text.join '/' ((first :: others).map String.toList))

/-- The paths around one with a first segment and others behind it, the last one given first. The
nearest path comes first. -/
def around (first : String) : List String → List String
  | [] => []
  | segment :: rest =>
    if isIdle segment then around first rest
    else assemble first (trim rest.reverse) :: around first rest

/-- The paths around a path that are not empty, the nearest one first. -/
def enclosing (path : String) : List String :=
  match segments path with
  | [] => []
  | first :: others => around first others.reverse

/-- The parent of a path, which may be empty. The root and the empty path have none. -/
def parent? (path : String) : Option String :=
  match enclosing path with
  | parent :: _ => some parent
  | [] => if path.isEmpty || isAbsolute path then none else some ""

/-- The directory in which the last segment of a path is looked up: the parent, or the working
directory if that is empty or missing. -/
def directory (path : String) : String :=
  match parent? path with
  | none => "."
  | some parent => if parent = "" then "." else parent

/-- The last segment that names something. -/
def fileName? (path : String) : Option String :=
  match (steps path).getLast? with
  | some (.enter name) => some name
  | _ => none

/-- What follows the last dot of the last segment, unless that dot is in front of the whole name. -/
def extension? (path : String) : Option String :=
  (fileName? path).bind fun name =>
    match (Text.split '.' name.toList).reverse with
    | last :: stem :: rest =>
      if stem = [] ∧ rest = [] then none else some (String.ofList last)
    | _ => none

end GlyphStrip.Path
