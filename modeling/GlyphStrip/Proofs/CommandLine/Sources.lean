import GlyphStrip.Proofs.CommandLine.Parsing

/-!
# Options and their variables

Whether an argument names a path can be seen from the argument alone (`PathOption.inArgument`). One
argument lets a reader take the paths that it names and no others (`Reader.Reads`), so all arguments
let it take the paths that one of them names (`Reader.takes_readAll`). A path so named hides its
variable, one that is not named depends on it (`parse_sources`).
-/

namespace GlyphStrip.CommandLine

/-! ## Arguments that name a path -/

/-- Whether a cluster names a path. The letters behind an option that takes a value are that
value. -/
def PathOption.inCluster (p : PathOption) : List Char → Bool
  | [] => false
  | letter :: rest =>
    match Known.ofShort? letter with
    | none => false
    | some (.flag _) => p.inCluster rest
    | some (.value option) => decide (option = .path p)

/-- Whether an argument names a path, in whatever spelling. -/
def PathOption.inArgument (p : PathOption) (argument : String) : Bool :=
  match Shape.ofArgument argument with
  | .terminator => false
  | .long name _ => decide (Known.ofLong? name = some (.value (.path p)))
  | .cluster letters => p.inCluster letters
  | .plain => false

namespace Reader

/-- Whether a reader has a path or waits for it. -/
def Takes (reader : Reader) (p : PathOption) : Prop :=
  (reader.paths.get p).isSome ∨ ∃ value, reader.opened = some ⟨.path p, value⟩

/-- Whether no path of a reader is empty. -/
def Filled (reader : Reader) : Prop :=
  ∀ p path, reader.paths.get p = some path → path ≠ ""

/-- What a step of a reader does to its paths: it takes those that are named. -/
structure Reads (reader after : Reader) (named : PathOption → Prop) : Prop where
  takes : ∀ p, after.Takes p ↔ reader.Takes p ∨ named p
  filled : reader.Filled → after.Filled

variable {reader after : Reader}

namespace Reads

variable {named others : PathOption → Prop}

theorem congr (h : reader.Reads after named) (hnamed : ∀ p, named p ↔ others p) :
    reader.Reads after others :=
  ⟨fun p => by rw [h.takes, hnamed], h.filled⟩

theorem trans {last : Reader} (h : reader.Reads after named) (hlast : after.Reads last others) :
    reader.Reads last fun p => named p ∨ others p :=
  ⟨fun p => by rw [hlast.takes, h.takes, or_assoc], fun hfilled => hlast.filled (h.filled hfilled)⟩

/-- A step that names no path may leave the paths and the open option alone. -/
theorem of_eq (hpaths : after.paths = reader.paths) (hopened : after.opened = reader.opened)
    (hnamed : ∀ p, ¬ named p) : reader.Reads after named :=
  ⟨fun p => by rw [Takes, Takes, hpaths, hopened, or_iff_left (hnamed p)],
    fun hfilled p path h => hfilled p path (hpaths ▸ h)⟩

end Reads

theorem takes_of_settled {p : PathOption} (h : reader.opened = none) :
    reader.Takes p ↔ (reader.paths.get p).isSome := by
  simp [Takes, h]

/-! ## Steps -/

theorem reads_store {option : ValueOption} {value : String}
    (h : reader.store option value = .ok after) : reader.Reads after fun p => option = .path p := by
  unfold store at h
  cases option with
  | path q =>
    dsimp only at h
    split_ifs at h with hgiven hempty
    obtain rfl := Except.ok.inj h
    constructor
    · intro p
      simp only [Takes, PerPath.get_set, ValueOption.path.injEq]
      by_cases hp : q = p <;> simp [hp]
    · intro hfilled p path hpath
      rw [PerPath.get_set] at hpath
      split_ifs at hpath with hp
      · rw [← Option.some.inj hpath]
        simpa [String.isEmpty_iff] using hempty
      · exact hfilled p path hpath
  | preview =>
    dsimp only at h
    split at h
    · cases h
    · obtain rfl := Except.ok.inj h
      exact .of_eq rfl rfl (by simp)

theorem reads_settle (h : reader.settle = .ok after) : reader.Reads after fun _ => False := by
  unfold settle at h
  split at h
  · obtain rfl := Except.ok.inj h
    exact .of_eq rfl rfl fun _ => not_false
  · cases h
  · rename_i option value hopened
    have hstore := reads_store h
    refine ⟨fun p => ?_, hstore.filled⟩
    rw [hstore.takes]
    simp [Takes, hopened]

theorem reads_give {option : ValueOption} {value : String}
    (h : reader.give option value = .ok after) : reader.Reads after fun p => option = .path p := by
  obtain ⟨settled, hsettle, hstore⟩ := bind_eq_ok_iff.1 h
  exact ((reads_settle hsettle).trans (reads_store hstore)).congr (by simp)

theorem reads_await {option : ValueOption} (h : reader.await option = .ok after) :
    reader.Reads after fun p => option = .path p := by
  obtain ⟨settled, hsettle, rfl⟩ := map_eq_ok_iff.1 h
  have hread := reads_settle hsettle
  have hopened : settled.Reads { settled with opened := some ⟨option, none⟩ } fun p =>
      option = .path p := by
    refine ⟨fun p => ?_, fun hfilled => hfilled⟩
    rw [takes_of_settled (opened_of_settle hsettle)]
    simp [Takes]
  exact (hread.trans hopened).congr (by simp)

theorem reads_raise {flag : Flag} (h : reader.raise flag = .ok after) :
    reader.Reads after fun _ => False := by
  obtain ⟨settled, hsettle, hflag⟩ := bind_eq_ok_iff.1 h
  cases flag with
  | verbose =>
    obtain rfl := Except.ok.inj hflag
    have hcount : settled.Reads { settled with verbosity := countOn settled.verbosity }
        fun _ => False := .of_eq rfl rfl fun _ => not_false
    exact ((reads_settle hsettle).trans hcount).congr (by simp)
  | help => cases hflag

theorem reads_plain {argument : String} (h : reader.plain argument = .ok after) :
    reader.Reads after fun _ => False := by
  unfold plain at h
  split at h
  · rename_i option hopened
    obtain rfl := Except.ok.inj h
    exact ⟨fun p => by simp [Takes, hopened], fun hfilled => hfilled⟩
  · cases h

theorem reads_long {name : String} {value : Option String}
    (h : reader.long name value = .ok after) :
    reader.Reads after fun p => Known.ofLong? name = some (.value (.path p)) := by
  unfold long at h
  split at h
  · cases h
  · rename_i option value hname
    exact (reads_give h).congr (by simp [hname])
  · rename_i option hname
    exact (reads_await h).congr (by simp [hname])
  · cases h
  · rename_i flag hname
    exact (reads_raise h).congr (by simp [hname])

theorem reads_cluster {letters : List Char} (h : reader.cluster letters = .ok after) :
    reader.Reads after fun p => p.inCluster letters = true := by
  induction letters generalizing reader with
  | nil =>
    obtain rfl := Except.ok.inj h
    exact .of_eq rfl rfl (by simp [PathOption.inCluster])
  | cons letter rest ih =>
    unfold cluster at h
    split at h
    · cases h
    · rename_i flag hletter
      obtain ⟨raised, hraise, hrest⟩ := bind_eq_ok_iff.1 h
      exact ((reads_raise hraise).trans (ih hrest)).congr (by simp [PathOption.inCluster, hletter])
    · rename_i option hletter
      have hnamed (p : PathOption) :
          option = .path p ↔ p.inCluster (letter :: rest) = true := by
        simp [PathOption.inCluster, hletter]
      split at h
      · exact (reads_await h).congr hnamed
      · exact (reads_give h).congr hnamed
      · exact (reads_give h).congr hnamed

/-! ## All arguments -/

theorem reads_readAll {arguments : List String} (h : reader.readAll arguments = .ok after) :
    reader.Reads after (fun p => ∃ argument ∈ arguments, p.inArgument argument = true) ∧
      after.opened = none := by
  induction arguments generalizing reader with
  | nil => exact ⟨(reads_settle h).congr (by simp), opened_of_settle h⟩
  | cons argument rest ih =>
    -- An argument that is read by a step names what the step names; the rest is the induction.
    have hstep {named : PathOption → Prop} {step : Except ArgumentError Reader}
        (hbind : (step.bind fun r => r.readAll rest) = .ok after)
        (hreads : ∀ {r}, step = .ok r → reader.Reads r named)
        (hnamed : ∀ p, named p ↔ p.inArgument argument = true) :
        reader.Reads after (fun p => ∃ a ∈ argument :: rest, p.inArgument a = true) ∧
          after.opened = none := by
      obtain ⟨r, hr, hrest⟩ := bind_eq_ok_iff.1 hbind
      obtain ⟨hrest, hopened⟩ := ih hrest
      exact ⟨((hreads hr).trans hrest).congr (by simp [hnamed]), hopened⟩
    unfold readAll at h
    split at h
    · rename_i hshape
      split at h
      · refine ⟨(reads_settle h).congr ?_, opened_of_settle h⟩
        simp [PathOption.inArgument, hshape]
      · cases h
    · rename_i name value hshape
      exact hstep h reads_long (by simp [PathOption.inArgument, hshape])
    · rename_i letters hshape
      exact hstep h reads_cluster (by simp [PathOption.inArgument, hshape])
    · rename_i hshape
      exact hstep h reads_plain (by simp [PathOption.inArgument, hshape])

/-- The arguments give exactly the paths that one of them names, and none of these is empty. -/
theorem takes_readAll {arguments : List String} (h : start.readAll arguments = .ok reader) :
    (∀ p, (reader.paths.get p).isSome ↔ ∃ argument ∈ arguments, p.inArgument argument = true) ∧
      reader.Filled := by
  obtain ⟨hreads, hopened⟩ := reads_readAll h
  have hstart : start.Filled := by
    intro p path hpath
    cases p <;> cases hpath
  refine ⟨fun p => ?_, hreads.filled hstart⟩
  rw [← takes_of_settled hopened, hreads.takes]
  cases p <;> simp [Takes, start, PerPath.get]

end Reader

/-! ## What is found -/

theorem PathOption.search_of_ok {p : PathOption} {reader : Reader} {environment : Environment}
    {found : Found} (hfilled : reader.Filled)
    (h : p.search reader environment = .ok (some found)) :
    found.path ≠ "" ∧ (found.source = .arguments ↔ (reader.paths.get p).isSome) := by
  cases hgiven : reader.paths.get p with
  | some path =>
    cases (search_of_given hgiven).symm.trans h
    exact ⟨hfilled p path hgiven, by simp⟩
  | none =>
    rw [search_of_missing hgiven] at h
    split at h
    · split_ifs at h with hempty
      cases h
      exact ⟨by simpa [String.isEmpty_iff] using hempty, by simp⟩
    · cases h
      exact ⟨by cases p <;> decide, by simp⟩

section matching

variable {arguments : List String} {environment : Environment}

/-- A path that an argument names does not change with its variable. -/
theorem parse_of_named {p : PathOption} {other : Environment} {config : Config}
    (hnamed : ∃ argument ∈ arguments, p.inArgument argument = true)
    (hother : ∀ q, q ≠ p → other.get q = environment.get q)
    (h : parse arguments environment = .ok config) : parse arguments other = .ok config := by
  obtain ⟨reader, hread, paths, hpaths, hconfig⟩ := parse_eq_ok_iff.1 h
  refine parse_eq_ok_iff.2 ⟨reader, hread, paths, fun q => ?_, hconfig⟩
  have hsearch : q.search reader other = q.search reader environment := by
    apply PathOption.search_congr
    by_cases hq : q = p
    · exact Or.inl (((Reader.takes_readAll hread).1 q).2 (hq ▸ hnamed))
    · exact Or.inr (hother q hq)
  rw [hsearch]
  exact hpaths q

/-- A path that no argument names needs a variable that is not empty, if it is set. -/
theorem parse_of_empty {p : PathOption}
    (hnamed : ∀ argument ∈ arguments, p.inArgument argument = false)
    (hempty : environment.get p = some "") (config : Config) :
    parse arguments environment ≠ .ok config := by
  intro h
  obtain ⟨reader, hread, paths, hpaths, _⟩ := parse_eq_ok_iff.1 h
  have hnone : reader.paths.get p = none := by
    rw [← Option.not_isSome_iff_eq_none, (Reader.takes_readAll hread).1]
    rintro ⟨argument, hmem, hargument⟩
    exact absurd hargument (by simp [hnamed argument hmem])
  cases (hpaths p).symm.trans (PathOption.search_of_empty hnone hempty)

end matching

/-- **Options hide their variables, and nothing else does.** When the arguments and variables are
accepted, both paths have been found, none of them empty, and a path comes from the arguments if and
only if one of them names it. Then its variable does not matter, not even an empty one. A path that
no argument names is not found if its variable is empty: the default does not stand in. -/
theorem parse_sources (arguments : List String) (environment : Environment) :
    (∀ found, Matches.find arguments environment = .ok found →
      (∃ config, found.config? = some config ∧ parse arguments environment = .ok config ∧
        config.input ≠ "" ∧ config.output ≠ "") ∧
      ∀ p, ∃ one, found.paths.get p = some one ∧
        (one.source = .arguments ↔ ∃ argument ∈ arguments, p.inArgument argument = true)) ∧
    (∀ config, parse arguments environment = .ok config →
      ∃ found, Matches.find arguments environment = .ok found ∧ found.config? = some config) ∧
    ∀ p,
      ((∃ argument ∈ arguments, p.inArgument argument = true) → ∀ other config,
        (∀ q, q ≠ p → other.get q = environment.get q) →
          parse arguments environment = .ok config → parse arguments other = .ok config) ∧
      ((∀ argument ∈ arguments, p.inArgument argument = false) → environment.get p = some "" →
        ∃ error, parse arguments environment = .error error) := by
  refine ⟨fun found hfound => ?_, fun config h => parse_eq_ok_iff_find.1 h, fun p =>
    ⟨fun hnamed other config hother h => parse_of_named hnamed hother h, fun hnamed hempty => ?_⟩⟩
  · obtain ⟨config, hconfig⟩ := Option.isSome_iff_exists.1 (Matches.isSome_config? hfound)
    have hparse := parse_eq_ok_iff_find.2 ⟨found, hfound, hconfig⟩
    obtain ⟨reader, hread, paths, hpaths, rfl⟩ := parse_eq_ok_iff.1 hparse
    obtain ⟨htakes, hfilled⟩ := Reader.takes_readAll hread
    have hone (p : PathOption) := p.search_of_ok hfilled (hpaths p)
    refine ⟨⟨_, hconfig, hparse, (hone .input).1, (hone .output).1⟩, fun p => ?_⟩
    obtain ⟨hread', hget⟩ := Matches.find_eq_ok_iff.1 hfound
    obtain rfl : reader = found.reader := Except.ok.inj (hread.symm.trans hread')
    exact ⟨paths.get p, Except.ok.inj ((hget p).symm.trans (hpaths p)),
      (hone p).2.trans (htakes p)⟩
  · cases hparse : parse arguments environment with
    | error error => exact ⟨error, rfl⟩
    | ok config => exact absurd hparse (parse_of_empty hnamed hempty config)

/-- An input behind a flag in a cluster, with an empty variable; and the empty variable alone. -/
theorem parse_sources_cluster :
    parse ["-vi", "a.png", "--output=b.bin"] ⟨some "", some ""⟩ =
        .ok ⟨"a.png", "b.bin", [], .debug⟩ ∧
      ∃ error, parse ["-v", "--output=b.bin", "-p7"] ⟨some "", none⟩ = .error error := by
  have hfull : parse ["-vi", "a.png", "--output=b.bin"] ⟨some "c.png", some ""⟩ =
      .ok ⟨"a.png", "b.bin", [], .debug⟩ := by rfl
  constructor
  · refine ((parse_sources _ _).2.2 .input).1 ⟨"-vi", by decide, by decide⟩ _ _ ?_ hfull
    intro q hq
    cases q with
    | input => exact absurd rfl hq
    | output => rfl
  · exact ((parse_sources _ _).2.2 .input).2 (by decide) rfl

end GlyphStrip.CommandLine
