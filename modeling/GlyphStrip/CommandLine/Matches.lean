import GlyphStrip.CommandLine.Parse
import GlyphStrip.Config

/-!
# Where paths come from

A path is looked for in the arguments, then in its variable, then in the defaults; what has been
found in one place hides the places behind it. A configuration is put together from what has
been found. None can be put together as long as a path is missing, which never happens, because
each has a default.
-/

namespace GlyphStrip.CommandLine

/-- Where a path comes from. -/
inductive PathSource where
  | arguments
  | variable
  | default
deriving DecidableEq

/-- A path and where it comes from. -/
structure Found where
  path : String
  source : PathSource
deriving DecidableEq

/-- What the arguments say, and the paths found so far. -/
structure Matches where
  reader : Reader
  paths : PerPath (Option Found)
deriving DecidableEq

/-! ## One path -/

/-- The path that the arguments give. -/
def Reader.fromArguments (reader : Reader) (p : PathOption) : Option Found :=
  (reader.paths.get p).map (Found.mk · .arguments)

namespace PathOption

/-- Looks at the variable of a path that is missing. -/
def consult (p : PathOption) (environment : Environment) :
    Option Found → Except ArgumentError (Option Found)
  | some found => .ok (some found)
  | none =>
    match environment.get p with
    | some path =>
      if path.isEmpty then .error (.missingValue (.path p)) else .ok (some ⟨path, .variable⟩)
    | none => .ok none

/-- Supplies the default of a path that is missing. -/
def supply (p : PathOption) : Option Found → Option Found
  | some found => some found
  | none => some ⟨p.defaultPath, .default⟩

/-- Looks for a path in all places. -/
def search (p : PathOption) (reader : Reader) (environment : Environment) :
    Except ArgumentError (Option Found) :=
  (p.consult environment (reader.fromArguments p)).map p.supply

theorem isSome_of_search {p : PathOption} {reader : Reader} {environment : Environment}
    {found? : Option Found} (h : p.search reader environment = .ok found?) : found?.isSome := by
  unfold search at h
  cases hconsult : p.consult environment (reader.fromArguments p) with
  | error error =>
    rw [hconsult] at h
    cases h
  | ok consulted =>
    rw [hconsult] at h
    cases h
    cases consulted <;> rfl

end PathOption

/-! ## Both paths -/

/-- The items of both options, unless one of them fails. The input comes first. -/
def PerPath.collect {ε α : Type} (item : PathOption → Except ε α) : Except ε (PerPath α) :=
  (item .input).bind fun input => (item .output).map fun output => ⟨input, output⟩

namespace Matches

/-- Reads the arguments and looks for both paths. -/
def find (arguments : List String) (environment : Environment) : Except ArgumentError Matches :=
  (Reader.start.readAll arguments).bind fun reader =>
    (PerPath.collect fun p => p.search reader environment).map fun paths => ⟨reader, paths⟩

/-- The configuration, if no path is missing. -/
def config? (found : Matches) : Option Config :=
  found.paths.input.bind fun input =>
    found.paths.output.map fun output =>
      ⟨input.path, output.path, found.reader.preview, found.reader.level⟩

/-- No path is missing from what has been found. -/
theorem isSome_config? {arguments : List String} {environment : Environment} {found : Matches}
    (h : find arguments environment = .ok found) : found.config?.isSome := by
  unfold find PerPath.collect at h
  cases hread : Reader.start.readAll arguments with
  | error error =>
    rw [hread] at h
    cases h
  | ok reader =>
    rw [hread] at h
    dsimp only [Except.bind] at h
    cases hinput : PathOption.input.search reader environment with
    | error error =>
      rw [hinput] at h
      cases h
    | ok input =>
      cases houtput : PathOption.output.search reader environment with
      | error error =>
        rw [hinput, houtput] at h
        cases h
      | ok output =>
        rw [hinput, houtput] at h
        cases h
        obtain ⟨input, rfl⟩ := Option.isSome_iff_exists.1 (PathOption.isSome_of_search hinput)
        obtain ⟨output, rfl⟩ := Option.isSome_iff_exists.1 (PathOption.isSome_of_search houtput)
        rfl

end Matches

/-- The run that arguments and variables describe. That a path is missing cannot be reached. -/
def parse (arguments : List String) (environment : Environment) : Except ArgumentError Config :=
  match hfound : Matches.find arguments environment with
  | .error error => .error error
  | .ok found => .ok (found.config?.get (Matches.isSome_config? hfound))

end GlyphStrip.CommandLine
