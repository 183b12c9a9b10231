import GlyphStrip.CommandLine.Matches
import GlyphStrip.Proofs.Results

/-!
# Finding paths

The search for a path ends in the first place that has one (`PathOption.search_of_given`,
`PathOption.search_of_missing`). Arguments and variables are accepted exactly if the arguments can
be read and both searches succeed (`parse_eq_ok_iff`).
-/

namespace GlyphStrip.CommandLine

/-! ## One path -/

namespace PathOption

section search

variable {p : PathOption} {reader : Reader} {environment other : Environment} {path : String}

theorem search_of_given (h : reader.paths.get p = some path) :
    p.search reader environment = .ok (some ⟨path, .arguments⟩) := by
  rw [search, Reader.fromArguments, h]
  rfl

theorem search_of_missing (h : reader.paths.get p = none) :
    p.search reader environment = match environment.get p with
      | some path =>
        if path.isEmpty then .error (.missingValue (.path p)) else .ok (some ⟨path, .variable⟩)
      | none => .ok (some ⟨p.defaultPath, .default⟩) := by
  rw [search, Reader.fromArguments, h, Option.map_none, consult]
  cases environment.get p with
  | none => rfl
  | some path =>
    dsimp only
    split <;> rfl

theorem search_of_empty (h : reader.paths.get p = none) (hempty : environment.get p = some "") :
    p.search reader environment = .error (.missingValue (.path p)) := by
  rw [search_of_missing h, hempty]
  rfl

/-- The variable of a path that is given does not matter. -/
theorem search_congr (h : (reader.paths.get p).isSome ∨ other.get p = environment.get p) :
    p.search reader other = p.search reader environment := by
  cases hgiven : reader.paths.get p with
  | some path => rw [search_of_given hgiven, search_of_given hgiven]
  | none =>
    rcases h with h | h
    · rw [hgiven] at h
      cases h
    · rw [search_of_missing hgiven, search_of_missing hgiven, h]

/-- Unless the variable is empty, the path is the one given, else that of the variable, else the
default. -/
theorem exists_search (reader : Reader) (h : environment.get p ≠ some "") :
    ∃ found, p.search reader environment = .ok (some found) ∧
      found.path = ((reader.paths.get p).or (environment.get p)).getD p.defaultPath := by
  cases hgiven : reader.paths.get p with
  | some path => exact ⟨_, search_of_given hgiven, rfl⟩
  | none =>
    rw [search_of_missing hgiven]
    cases hvariable : environment.get p with
    | none => exact ⟨_, rfl, rfl⟩
    | some path =>
      have hempty : ¬ path.isEmpty := by
        rw [String.isEmpty_iff]
        rintro rfl
        exact h hvariable
      exact ⟨_, if_neg hempty, rfl⟩

end search

end PathOption

/-! ## Both paths -/

theorem PerPath.collect_eq_ok_iff {ε α : Type} {item : PathOption → Except ε α}
    {items : PerPath α} :
    collect item = .ok items ↔ ∀ p, item p = .ok (items.get p) := by
  simp only [collect, bind_eq_ok_iff, map_eq_ok_iff]
  constructor
  · rintro ⟨input, hinput, output, houtput, rfl⟩ p
    cases p with
    | input => exact hinput
    | output => exact houtput
  · intro h
    exact ⟨_, h .input, _, h .output, rfl⟩

section parsing

variable {arguments : List String} {environment : Environment} {config : Config}

theorem Matches.find_eq_ok_iff {found : Matches} : find arguments environment = .ok found ↔
    Reader.start.readAll arguments = .ok found.reader ∧
      ∀ p : PathOption, p.search found.reader environment = .ok (found.paths.get p) := by
  simp only [find, bind_eq_ok_iff, map_eq_ok_iff, PerPath.collect_eq_ok_iff]
  constructor
  · rintro ⟨reader, hread, paths, hpaths, rfl⟩
    exact ⟨hread, hpaths⟩
  · rintro ⟨hread, hpaths⟩
    exact ⟨found.reader, hread, found.paths, hpaths, rfl⟩

theorem parse_of_find_error {error : ArgumentError}
    (h : Matches.find arguments environment = .error error) :
    parse arguments environment = .error error := by
  unfold parse
  split
  · rename_i other hother
    obtain rfl := Except.error.inj (hother.symm.trans h)
    rfl
  · rename_i found hfound
    cases hfound.symm.trans h

theorem parse_of_readAll_error {error : ArgumentError}
    (h : Reader.start.readAll arguments = .error error) :
    parse arguments environment = .error error :=
  parse_of_find_error (by rw [Matches.find, h]; rfl)

/-- What has been found is what the run is configured with. -/
theorem parse_eq_ok_iff_find : parse arguments environment = .ok config ↔
    ∃ found, Matches.find arguments environment = .ok found ∧ found.config? = some config := by
  unfold parse
  split
  · rename_i error herror
    simp [herror]
  · rename_i found hfound
    constructor
    · intro hconfig
      exact ⟨found, hfound, Except.ok.inj hconfig ▸ (Option.some_get _).symm⟩
    · rintro ⟨other, hother, hconfig⟩
      obtain rfl : found = other := Except.ok.inj (hfound.symm.trans hother)
      exact congrArg Except.ok (Option.get_of_eq_some _ hconfig)

theorem parse_eq_ok_iff : parse arguments environment = .ok config ↔
    ∃ reader, Reader.start.readAll arguments = .ok reader ∧ ∃ paths : PerPath Found,
      (∀ p : PathOption, p.search reader environment = .ok (some (paths.get p))) ∧
        ⟨paths.input.path, paths.output.path, reader.preview, reader.level⟩ = config := by
  rw [parse_eq_ok_iff_find]
  constructor
  · rintro ⟨found, hfound, hconfig⟩
    obtain ⟨reader, input, output⟩ := found
    obtain ⟨hread, hpaths⟩ := Matches.find_eq_ok_iff.1 hfound
    obtain ⟨input, rfl, hconfig⟩ := Option.bind_eq_some_iff.1 hconfig
    obtain ⟨output, rfl, hconfig⟩ := Option.map_eq_some_iff.1 hconfig
    refine ⟨reader, hread, ⟨input, output⟩, fun p => ?_, hconfig⟩
    cases p with
    | input => exact hpaths .input
    | output => exact hpaths .output
  · rintro ⟨reader, hread, paths, hpaths, hconfig⟩
    refine ⟨⟨reader, some paths.input, some paths.output⟩,
      Matches.find_eq_ok_iff.2 ⟨hread, fun p => ?_⟩, congrArg some hconfig⟩
    cases p with
    | input => exact hpaths .input
    | output => exact hpaths .output

/-- Where no variable is empty, arguments that can be read are accepted. -/
theorem parse_of_readAll {reader : Reader} (hread : Reader.start.readAll arguments = .ok reader)
    (h : ∀ p, environment.get p ≠ some "") : parse arguments environment = .ok
      { input := ((reader.paths.get .input).or (environment.get .input)).getD
          PathOption.input.defaultPath
        output := ((reader.paths.get .output).or (environment.get .output)).getD
          PathOption.output.defaultPath
        preview := reader.preview
        level := reader.level } := by
  obtain ⟨input, hinput, hinputPath⟩ := PathOption.exists_search reader (h .input)
  obtain ⟨output, houtput, houtputPath⟩ := PathOption.exists_search reader (h .output)
  refine parse_eq_ok_iff.2 ⟨reader, hread, ⟨input, output⟩, fun p => ?_, ?_⟩
  · cases p with
    | input => exact hinput
    | output => exact houtput
  · rw [hinputPath, houtputPath]

end parsing

end GlyphStrip.CommandLine
