import GlyphStrip.Proofs.CommandLine.Matching
import GlyphStrip.Proofs.CommandLine.Reading

/-!
# What a well-formed command line asks for

The paths, glyphs and verbosity that occurrences give (`given`, `previewed`, `loudness`) are what a
reader has taken in behind them (`Reader.receiveAll_ok`), unless a path is given twice
(`Reader.receiveAll_repeated`). So the configuration is known from these three
(`parse_occurrences`).
-/

namespace GlyphStrip.CommandLine

/-! ## What occurrences give -/

/-- The values of a path, in order. -/
def given (p : PathOption) (occurrences : List Occurrence) : List String :=
  occurrences.filterMap fun
    | .value (.path q) _ text => if q = p then some text else none
    | _ => none

/-- The glyphs to preview, in order. -/
def previewed (occurrences : List Occurrence) : List UInt8 :=
  occurrences.filterMap fun
    | .value .preview _ text => some (UInt8.ofNat (Nat.ofDigitChars 10 text.toList 0))
    | _ => none

/-- How often verbosity is asked for. -/
def loudness : List Occurrence → Nat
  | [] => 0
  | .value .. :: rest => loudness rest
  | .verbose :: rest => loudness rest + 1
  | .cluster more :: rest => loudness rest + (more + 1)

@[simp] theorem PerPath.get_set {α : Type} (items : PerPath α) (p q : PathOption) (item : α) :
    (items.set p item).get q = if p = q then item else items.get q := by
  cases p <;> cases q <;> rfl

/-! ## Counting -/

/-- The counter stops at the largest byte and never starts again. -/
theorem toNat_countOn_iterate (n : Nat) (count : UInt8) :
    (countOn^[n] count).toNat = min 255 (count.toNat + n) := by
  induction n with
  | zero =>
    have hcount := count.toNat_lt
    rw [Function.iterate_zero_apply]
    omega
  | succ n ih =>
    rw [Function.iterate_succ_apply', countOn]
    split_ifs with hfull
    · rw [hfull] at ih
      simp only [UInt8.reduceToNat] at ih ⊢
      omega
    · have hne : (countOn^[n] count).toNat ≠ 255 := fun h => hfull (UInt8.toNat_inj.1 h)
      rw [UInt8.toNat_add, ih]
      rw [ih] at hne
      simp only [UInt8.reduceToNat]
      omega

namespace Reader

variable {occurrences : List Occurrence}

theorem level_of_count {reader : Reader} {n : Nat} (h : reader.verbosity = countOn^[n] 0) :
    reader.level = if n = 0 then .info else if n = 1 then .debug else .trace := by
  have hcount : reader.verbosity.toNat = min 255 n := by
    rw [h, toNat_countOn_iterate]
    simp
  unfold level
  split
  · rename_i hzero
    rw [hzero] at hcount
    simp only [UInt8.reduceToNat] at hcount
    rw [if_pos (by omega)]
  · rename_i hone
    rw [hone] at hcount
    simp only [UInt8.reduceToNat] at hcount
    rw [if_neg (by omega), if_pos (by omega)]
  · rename_i hzero hone
    have hzero' : reader.verbosity.toNat ≠ 0 := fun h => hzero (UInt8.toNat_inj.1 h)
    have hone' : reader.verbosity.toNat ≠ 1 := fun h => hone (UInt8.toNat_inj.1 h)
    rw [if_neg (by omega), if_neg (by omega)]

/-! ## Taking in all occurrences -/

/-- The values of a path that a reader has and those that occurrences give. -/
def offered (reader : Reader) (p : PathOption) (occurrences : List Occurrence) : List String :=
  (reader.paths.get p).toList ++ given p occurrences

@[simp] theorem offered_start (p : PathOption) (occurrences : List Occurrence) :
    Reader.start.offered p occurrences = given p occurrences := by
  cases p <;> rfl

theorem offered_set {reader : Reader} {p : PathOption} (h : reader.paths.get p = none)
    (spelling : Spelling) (text : String) (rest : List Occurrence) (q : PathOption) :
    { reader with paths := reader.paths.set p (some text) }.offered q rest =
      reader.offered q (.value (.path p) spelling text :: rest) := by
  simp only [offered, given, PerPath.get_set, List.filterMap_cons]
  by_cases hq : p = q
  · subst hq
    simp [h]
  · simp [hq]

theorem receive_path {reader : Reader} {p : PathOption} {text : String}
    (h : reader.paths.get p = none) (hne : text ≠ "") (spelling : Spelling) :
    reader.receive (.value (.path p) spelling text) =
      .ok { reader with paths := reader.paths.set p (some text) } := by
  have hempty : ¬ text.isEmpty := by simpa [String.isEmpty_iff] using hne
  simp only [receive, store, h, Option.isSome_none, if_neg hempty, Bool.false_eq_true, if_false]

theorem receive_path_again {reader : Reader} {p : PathOption} {first : String}
    (h : reader.paths.get p = some first) (spelling : Spelling) (text : String) :
    reader.receive (.value (.path p) spelling text) = .error (.repeated p) := by
  simp only [receive, store, h, Option.isSome_some, if_true]

theorem receive_preview {text : String} (h : ValueOption.preview.Accepts text) (reader : Reader)
    (spelling : Spelling) :
    reader.receive (.value .preview spelling text) = .ok { reader with
      preview := reader.preview ++ [UInt8.ofNat (Nat.ofDigitChars 10 text.toList 0)] } := by
  obtain ⟨hne, hdigits, hle⟩ := h
  simp only [receive, store, readIndex_of_digits hne hdigits hle]

/-- If no path is offered twice, each path is the one offered, glyphs are added behind those there
were, and every demand for verbosity has been counted. -/
theorem receiveAll_ok (hform : ∀ o ∈ occurrences, o.WellFormed) (reader : Reader)
    (honce : ∀ p, (reader.offered p occurrences).length ≤ 1) :
    ∃ paths, (∀ p, paths.get p = (reader.offered p occurrences).head?) ∧
      reader.receiveAll occurrences = .ok { reader with
        paths := paths
        preview := reader.preview ++ previewed occurrences
        verbosity := countOn^[loudness occurrences] reader.verbosity } := by
  induction occurrences generalizing reader with
  | nil =>
    refine ⟨reader.paths, fun p => ?_, ?_⟩
    · simp only [offered, given, List.filterMap_nil, List.append_nil]
      cases reader.paths.get p <;> rfl
    · simp [receiveAll, previewed, loudness]
  | cons o rest ih =>
    obtain ⟨ho, hrest⟩ := List.forall_mem_cons.1 hform
    cases o with
    | value option spelling text =>
      cases option with
      | path p =>
        cases hp : reader.paths.get p with
        | some first =>
          have hlength := honce p
          simp [offered, given, hp] at hlength
        | none =>
          -- The path moves from the occurrences into the reader; what is offered stays the same.
          have hoffered := offered_set hp spelling text rest
          obtain ⟨paths, hpaths, hread⟩ := ih hrest
            { reader with paths := reader.paths.set p (some text) } fun q => by
              rw [hoffered]
              exact honce q
          refine ⟨paths, fun q => by rw [hpaths, hoffered], ?_⟩
          rw [receiveAll, receive_path hp ho.1]
          refine hread.trans ?_
          simp [previewed, loudness]
      | preview =>
        obtain ⟨paths, hpaths, hread⟩ := ih hrest { reader with
          preview := reader.preview ++ [UInt8.ofNat (Nat.ofDigitChars 10 text.toList 0)] } honce
        refine ⟨paths, hpaths, ?_⟩
        rw [receiveAll, receive_preview ho.1]
        refine hread.trans ?_
        simp [previewed, loudness]
    | verbose =>
      obtain ⟨paths, hpaths, hread⟩ :=
        ih hrest { reader with verbosity := countOn reader.verbosity } honce
      refine ⟨paths, hpaths, hread.trans ?_⟩
      simp [previewed, loudness, Function.iterate_succ_apply]
    | cluster more =>
      obtain ⟨paths, hpaths, hread⟩ :=
        ih hrest { reader with verbosity := countOn^[more + 1] reader.verbosity } honce
      refine ⟨paths, hpaths, hread.trans ?_⟩
      simp [previewed, loudness, Function.iterate_add_apply]

/-- If a path is offered twice, then reading ends at one that is. -/
theorem receiveAll_repeated (hform : ∀ o ∈ occurrences, o.WellFormed) (reader : Reader)
    {p : PathOption} (htwice : 2 ≤ (reader.offered p occurrences).length) :
    ∃ q, 2 ≤ (reader.offered q occurrences).length ∧
      reader.receiveAll occurrences = .error (.repeated q) := by
  induction occurrences generalizing reader with
  | nil =>
    cases hp : reader.paths.get p <;> simp [offered, given, hp] at htwice
  | cons o rest ih =>
    obtain ⟨ho, hrest⟩ := List.forall_mem_cons.1 hform
    cases o with
    | value option spelling text =>
      cases option with
      | path q =>
        cases hq : reader.paths.get q with
        | some first =>
          refine ⟨q, by simp [offered, given, hq], ?_⟩
          rw [receiveAll, receive_path_again hq]
          rfl
        | none =>
          have hoffered := offered_set hq spelling text rest
          obtain ⟨r, hr, hread⟩ := ih hrest
            { reader with paths := reader.paths.set q (some text) } (by rwa [hoffered])
          refine ⟨r, by rwa [hoffered] at hr, ?_⟩
          rw [receiveAll, receive_path hq ho.1]
          exact hread
      | preview =>
        obtain ⟨q, hq, hread⟩ := ih hrest { reader with
          preview := reader.preview ++ [UInt8.ofNat (Nat.ofDigitChars 10 text.toList 0)] } htwice
        refine ⟨q, hq, ?_⟩
        rw [receiveAll, receive_preview ho.1]
        exact hread
    | verbose => exact ih hrest { reader with verbosity := countOn reader.verbosity } htwice
    | cluster more =>
      exact ih hrest { reader with verbosity := countOn^[more + 1] reader.verbosity } htwice

end Reader

/-! ## The configuration -/

theorem given_filter (p : PathOption) (occurrences : List Occurrence) :
    given p (occurrences.filter (·.option = .value (.path p))) = given p occurrences := by
  rw [given, given, List.filterMap_filter]
  congr 1
  funext o
  rcases o with ⟨q | _, _, _⟩ | _ | _ <;> simp [Occurrence.option]

theorem previewed_filter (occurrences : List Occurrence) :
    previewed (occurrences.filter (·.option = .value .preview)) = previewed occurrences := by
  rw [previewed, previewed, List.filterMap_filter]
  congr 1
  funext o
  rcases o with ⟨_ | _, _, _⟩ | _ | _ <;> simp [Occurrence.option]

theorem loudness_filter (occurrences : List Occurrence) :
    loudness (occurrences.filter (·.option = .flag .verbose)) = loudness occurrences := by
  induction occurrences with
  | nil => rfl
  | cons o rest ih =>
    rcases o with ⟨_, _, _⟩ | _ | _ <;> simp_all [Occurrence.option, loudness]

/-- The configuration that is asked for, if no path is given twice. -/
def configOf (occurrences : List Occurrence) (environment : Environment) : Config where
  input := ((given .input occurrences).head?.or environment.input).getD "lgfont.png"
  output := ((given .output occurrences).head?.or environment.output).getD "lgfont.bin"
  preview := previewed occurrences
  level :=
    if loudness occurrences = 0 then .info
    else if loudness occurrences = 1 then .debug
    else .trace

section parsing

variable {occurrences : List Occurrence} {environment : Environment}

theorem parse_of_once (hform : ∀ o ∈ occurrences, o.WellFormed)
    (henvironment : ∀ p, environment.get p ≠ some "")
    (honce : ∀ p, (given p occurrences).length ≤ 1) :
    parse (occurrences.flatMap Occurrence.spell) environment =
      .ok (configOf occurrences environment) := by
  obtain ⟨paths, hpaths, hread⟩ := Reader.receiveAll_ok hform Reader.start fun p => by
    rw [Reader.offered_start]
    exact honce p
  have hall : Reader.start.readAll (occurrences.flatMap Occurrence.spell) = .ok _ :=
    (Reader.readAll_occurrences hform Reader.start).trans hread
  rw [parse_of_readAll hall henvironment, Reader.level_of_count rfl]
  simp only [hpaths, Reader.offered_start]
  rfl

theorem parse_of_twice (hform : ∀ o ∈ occurrences, o.WellFormed) {p : PathOption}
    (htwice : 2 ≤ (given p occurrences).length) :
    ∃ q, 2 ≤ (given q occurrences).length ∧
      parse (occurrences.flatMap Occurrence.spell) environment = .error (.repeated q) := by
  rw [← Reader.offered_start] at htwice
  obtain ⟨q, hq, hread⟩ := Reader.receiveAll_repeated hform Reader.start htwice
  have hall : Reader.start.readAll (occurrences.flatMap Occurrence.spell) = .error _ :=
    (Reader.readAll_occurrences hform Reader.start).trans hread
  exact ⟨q, by rwa [Reader.offered_start] at hq, parse_of_readAll_error hall⟩

theorem configOf_congr {others : List Occurrence}
    (h : ∀ option, others.filter (·.option = option) = occurrences.filter (·.option = option)) :
    configOf others environment = configOf occurrences environment := by
  have hgiven (p : PathOption) : given p others = given p occurrences := by
    rw [← given_filter, h, given_filter]
  have hpreviewed : previewed others = previewed occurrences := by
    rw [← previewed_filter, h, previewed_filter]
  have hloudness : loudness others = loudness occurrences := by
    rw [← loudness_filter, h, loudness_filter]
  simp only [configOf, hgiven, hpreviewed, hloudness]

/-- The same occurrences of each option, however they are mixed, are well-formed together. -/
theorem wellFormed_congr {others : List Occurrence} (hform : ∀ o ∈ occurrences, o.WellFormed)
    (h : ∀ option, others.filter (·.option = option) = occurrences.filter (·.option = option)) :
    ∀ o ∈ others, o.WellFormed := by
  intro o ho
  have hfilter : o ∈ others.filter (·.option = o.option) := by simp [ho]
  rw [h] at hfilter
  exact hform o (List.mem_filter.1 hfilter).1

end parsing

/-- **A well-formed command line says what its occurrences give.** If each path is given at most
once, it is the one given, else that of its variable, else the default; glyphs are previewed in the
order given, and the level is that of the number of demands for verbosity, however large. How the
options are mixed does not matter. If a path is given twice, that is the error. -/
theorem parse_occurrences (occurrences : List Occurrence) (environment : Environment)
    (hform : ∀ o ∈ occurrences, o.WellFormed) (hinput : environment.input ≠ some "")
    (houtput : environment.output ≠ some "") :
    ((given .input occurrences).length ≤ 1 → (given .output occurrences).length ≤ 1 →
      parse (occurrences.flatMap Occurrence.spell) environment =
        .ok (configOf occurrences environment) ∧
      ∀ others : List Occurrence,
        (∀ option, others.filter (·.option = option) = occurrences.filter (·.option = option)) →
        parse (others.flatMap Occurrence.spell) environment =
          parse (occurrences.flatMap Occurrence.spell) environment) ∧
    ((∃ p, 2 ≤ (given p occurrences).length) → ∃ p, 2 ≤ (given p occurrences).length ∧
      parse (occurrences.flatMap Occurrence.spell) environment = .error (.repeated p)) := by
  have henvironment (p : PathOption) : environment.get p ≠ some "" := by
    cases p
    · exact hinput
    · exact houtput
  constructor
  · intro hin hout
    have honce (p : PathOption) : (given p occurrences).length ≤ 1 := by
      cases p
      · exact hin
      · exact hout
    have hparse := parse_of_once hform henvironment honce
    refine ⟨hparse, fun others hothers => ?_⟩
    have honce' (p : PathOption) : (given p others).length ≤ 1 := by
      rw [← given_filter, hothers, given_filter]
      exact honce p
    rw [hparse, parse_of_once (wellFormed_congr hform hothers) henvironment honce',
      configOf_congr hothers]
  · rintro ⟨p, htwice⟩
    exact parse_of_twice hform htwice

/-- All four spellings, a flag and a cluster. -/
def mixed : List Occurrence :=
  [.value .preview .longApart "065", .verbose, .value (.path .output) .shortJoined "-x=y.bin",
    .value .preview .longJoined "255", .cluster 1, .value .preview .shortApart "65"]

/-- The same occurrences in another order. -/
def remixed : List Occurrence :=
  [.verbose, .cluster 1, .value .preview .longApart "065", .value .preview .longJoined "255",
    .value .preview .shortApart "65", .value (.path .output) .shortJoined "-x=y.bin"]

/-- An output that is given twice. -/
def contrary : List Occurrence :=
  [.value (.path .output) .longJoined "=", .verbose, .value (.path .output) .shortApart "x"]

/-- The input comes from its variable, and the output may look like an option behind its short
name. -/
theorem parse_mixed :
    parse ["--preview", "065", "--verbose", "-o-x=y.bin", "--preview=255", "-vv", "-p", "65"]
        ⟨some "strip.png", none⟩ = .ok ⟨"strip.png", "-x=y.bin", [65, 255, 65], .trace⟩ ∧
      parse ["--verbose", "-vv", "--preview", "065", "--preview=255", "-p", "65", "-o-x=y.bin"]
        ⟨some "strip.png", none⟩ = .ok ⟨"strip.png", "-x=y.bin", [65, 255, 65], .trace⟩ ∧
      parse ["--output==", "--verbose", "-o", "x"] ⟨none, none⟩ = .error (.repeated .output) := by
  have hmixed : ∀ o ∈ mixed, o.WellFormed := by
    simp [mixed, Occurrence.WellFormed, ValueOption.Accepts, Spelling.Admits, Nat.ofDigitChars]
  have hcontrary : ∀ o ∈ contrary, o.WellFormed := by
    simp [contrary, Occurrence.WellFormed, ValueOption.Accepts, Spelling.Admits]
  obtain ⟨hparse, hremix⟩ :=
    (parse_occurrences mixed ⟨some "strip.png", none⟩ hmixed (by decide) (by decide)).1
      (by decide) (by decide)
  refine ⟨hparse, (hremix remixed ?_).trans hparse, ?_⟩
  · rintro (((_ | _) | _) | (_ | _)) <;> rfl
  · obtain ⟨p, hp, hparse⟩ :=
      (parse_occurrences contrary ⟨none, none⟩ hcontrary (by decide) (by decide)).2
        ⟨.output, by decide⟩
    cases p with
    | input => exact absurd hp (by decide)
    | output => exact hparse

end GlyphStrip.CommandLine
