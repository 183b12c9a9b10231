import GlyphStrip.Proofs.CommandLine.Sources
import GlyphStrip.Proofs.Font.Machine
import GlyphStrip.Proofs.Running

/-!
# Glyphs to preview

A reader only ever adds glyphs behind those that it has, so what it does with further arguments does
not depend on them (`Reader.IgnoresPreview`). If arguments with a preview in their midst are
accepted, they are therefore accepted with any other number from 0 to 255 instead, and with nothing
else (`Reader.readAll_around`, `parse_around`).
-/

namespace GlyphStrip.CommandLine

namespace Reader

variable {reader settled after : Reader}

/-! ## Glyphs in front -/

/-- The reader with some glyphs in front of its own. -/
def prepend (reader : Reader) (glyphs : List UInt8) : Reader :=
  { reader with preview := glyphs ++ reader.preview }

/-- A step does the same whichever glyphs the reader has. -/
def IgnoresPreview (step : Reader → Except ArgumentError Reader) : Prop :=
  ∀ (glyphs : List UInt8) (reader : Reader),
    step (reader.prepend glyphs) = (step reader).map fun r => r.prepend glyphs

namespace IgnoresPreview

variable {first second : Reader → Except ArgumentError Reader}

theorem bind (hfirst : IgnoresPreview first) (hsecond : IgnoresPreview second) :
    IgnoresPreview fun r => (first r).bind second := by
  intro glyphs reader
  dsimp only
  rw [hfirst]
  cases first reader with
  | error error => rfl
  | ok r => exact hsecond glyphs r

theorem map {update : Reader → Reader} (hfirst : IgnoresPreview first)
    (hupdate : ∀ glyphs r, update (prepend r glyphs) = (update r).prepend glyphs) :
    IgnoresPreview fun r => (first r).map update := by
  intro glyphs reader
  dsimp only
  rw [hfirst]
  cases first reader with
  | error error => rfl
  | ok r => exact congrArg Except.ok (hupdate glyphs r)

theorem error (error : ArgumentError) : IgnoresPreview fun _ => .error error :=
  fun _ _ => rfl

theorem store (option : ValueOption) (value : String) :
    IgnoresPreview fun r => r.store option value := by
  intro glyphs reader
  unfold Reader.store
  cases option with
  | path p =>
    show (if (reader.paths.get p).isSome then _ else _) = _
    dsimp only
    split_ifs <;> rfl
  | preview =>
    dsimp only
    cases readIndex value with
    | error fault => rfl
    | ok c => simp only [prepend, Except.map, List.append_assoc]

theorem settle : IgnoresPreview Reader.settle := by
  rintro glyphs ⟨paths, preview, verbosity, _ | ⟨option, _ | value⟩⟩
  · rfl
  · rfl
  · exact store option value glyphs ⟨paths, preview, verbosity, none⟩

theorem give (option : ValueOption) (value : String) :
    IgnoresPreview fun r => r.give option value :=
  settle.bind (store option value)

theorem await (option : ValueOption) : IgnoresPreview fun r => r.await option :=
  settle.map fun _ _ => rfl

theorem raise (flag : Flag) : IgnoresPreview fun r => r.raise flag := by
  cases flag with
  | verbose => exact settle.bind fun _ _ => rfl
  | help => exact settle.bind (error .helpRequested)

theorem long (name : String) (value : Option String) :
    IgnoresPreview fun r => r.long name value := by
  unfold Reader.long
  split
  · exact error _
  · exact give _ _
  · exact await _
  · exact error _
  · exact raise _

theorem cluster (letters : List Char) : IgnoresPreview fun r => r.cluster letters := by
  induction letters with
  | nil => exact fun _ _ => rfl
  | cons letter rest ih =>
    unfold Reader.cluster
    split
    · exact error _
    · exact (raise _).bind ih
    · split
      · exact await _
      · exact give _ _
      · exact give _ _

theorem plain (argument : String) : IgnoresPreview fun r => r.plain argument := by
  rintro glyphs ⟨paths, preview, verbosity, _ | ⟨option, _ | value⟩⟩ <;> rfl

theorem readAll (arguments : List String) : IgnoresPreview fun r => r.readAll arguments := by
  induction arguments with
  | nil => exact settle
  | cons argument rest ih =>
    unfold Reader.readAll
    split
    · split
      · exact settle
      · exact error _
    · exact (long _ _).bind ih
    · exact (cluster _).bind ih
    · exact (plain _).bind ih

end IgnoresPreview

/-! ## A preview in the midst of arguments -/

section settled

variable (hsettle : reader.settle = .ok settled)
include hsettle

theorem give_settled (option : ValueOption) (value : String) :
    reader.give option value = settled.give option value := by
  rw [give, give, hsettle, settle_of_opened (opened_of_settle hsettle)]

theorem await_settled (option : ValueOption) : reader.await option = settled.await option := by
  rw [await, await, hsettle, settle_of_opened (opened_of_settle hsettle)]

theorem raise_settled (flag : Flag) : reader.raise flag = settled.raise flag := by
  rw [raise, raise, hsettle, settle_of_opened (opened_of_settle hsettle)]

theorem long_settled (name : String) (value : Option String) :
    reader.long name value = settled.long name value := by
  unfold long
  split
  · rfl
  · exact give_settled hsettle _ _
  · exact await_settled hsettle _
  · rfl
  · exact raise_settled hsettle _

theorem cluster_settled (letter : Char) (letters : List Char) :
    reader.cluster (letter :: letters) = settled.cluster (letter :: letters) := by
  unfold cluster
  split
  · rfl
  · rw [raise_settled hsettle]
  · split
    · exact await_settled hsettle _
    · exact give_settled hsettle _ _
    · exact give_settled hsettle _ _

/-- Arguments that are accepted with no option open are accepted behind an open one as well. -/
theorem readAll_of_settled {arguments : List String} (h : settled.readAll arguments = .ok after) :
    reader.readAll arguments = .ok after := by
  have hopened := opened_of_settle hsettle
  induction arguments with
  | nil =>
    obtain rfl := Except.ok.inj ((settle_of_opened hopened).symm.trans h)
    exact hsettle
  | cons argument rest ih =>
    unfold readAll at h ⊢
    cases hshape : Shape.ofArgument argument with
    | terminator =>
      simp only [hshape] at h ⊢
      cases rest with
      | nil =>
        obtain rfl := Except.ok.inj ((settle_of_opened hopened).symm.trans h)
        exact hsettle
      | cons extra rest => cases h
    | long name value =>
      simp only [hshape] at h ⊢
      rwa [long_settled hsettle]
    | cluster letters =>
      simp only [hshape] at h ⊢
      cases letters with
      | nil => exact ih h
      | cons letter letters => rwa [cluster_settled hsettle]
    | plain =>
      simp only [hshape, plain, hopened] at h
      cases h

end settled

/-- An argument is the terminator or is read by a step of its own. -/
theorem readAll_cons_cases (argument : String) : Shape.ofArgument argument = .terminator ∨
    ∃ step : Reader → Except ArgumentError Reader, ∀ (reader : Reader) (rest : List String),
      reader.readAll (argument :: rest) = (step reader).bind fun r => r.readAll rest := by
  cases hshape : Shape.ofArgument argument with
  | terminator => exact Or.inl rfl
  | long name value =>
    exact Or.inr ⟨fun r => r.long name value, fun reader rest => by simp only [readAll, hshape]⟩
  | cluster letters =>
    exact Or.inr ⟨fun r => r.cluster letters, fun reader rest => by simp only [readAll, hshape]⟩
  | plain =>
    exact Or.inr ⟨fun r => r.plain argument, fun reader rest => by simp only [readAll, hshape]⟩

/-- If arguments are accepted, those in front of one of them lead to one reader, whatever
follows. -/
theorem exists_readAll_append {front back : List String} {argument : String}
    (h : reader.readAll (front ++ argument :: back) = .ok after) :
    ∃ middle : Reader, ∀ rest, reader.readAll (front ++ rest) = middle.readAll rest := by
  induction front generalizing reader with
  | nil => exact ⟨reader, fun rest => rfl⟩
  | cons first front ih =>
    simp only [List.cons_append] at h ⊢
    rcases readAll_cons_cases first with hterminator | ⟨step, hstep⟩
    · obtain ⟨extra, rest, hrest⟩ := List.exists_cons_of_ne_nil
        (List.append_ne_nil_of_right_ne_nil front (List.cons_ne_nil argument back))
      rw [hrest, readAll, hterminator] at h
      cases h
    · rw [hstep] at h
      obtain ⟨r, hr, hread⟩ := bind_eq_ok_iff.1 h
      obtain ⟨middle, hmiddle⟩ := ih hread
      refine ⟨middle, fun rest => ?_⟩
      rw [hstep, hr]
      exact hmiddle rest

theorem readAll_preview (reader : Reader) (text : String) (rest : List String) :
    reader.readAll (("--preview=" ++ text) :: rest) = reader.settle.bind fun r =>
      (r.store .preview text).bind fun r => r.readAll rest := by
  have hargument : "--preview=" ++ text = ValueOption.preview.longName ++ "=" ++ text := by rfl
  simp only [hargument, readAll, Shape.ofArgument_longJoined, long_give, give]
  cases reader.settle <;> rfl

theorem readAll_with (reader : Reader) (arguments : List String) (glyphs : List UInt8) :
    { reader with preview := glyphs }.readAll arguments =
      ({ reader with preview := [] }.readAll arguments).map fun r : Reader => r.prepend glyphs := by
  have hprepend : { reader with preview := glyphs } =
      ({ reader with preview := [] } : Reader).prepend glyphs := by
    rw [prepend, List.append_nil]
  rw [hprepend]
  exact IgnoresPreview.readAll arguments glyphs _

/-- What stands around an accepted preview is read alike whatever number the preview has. -/
theorem readAll_around {front back : List String} {text : String}
    (h : reader.readAll (front ++ ("--preview=" ++ text) :: back) = .ok after) :
    ∃ settled last : Reader, reader.readAll front = .ok settled ∧
      reader.readAll (front ++ back) = .ok (last.prepend settled.preview) ∧
      ∀ s, reader.readAll (front ++ ("--preview=" ++ s) :: back) =
        match readIndex s with
        | .ok c => .ok (last.prepend (settled.preview ++ [c]))
        | .error fault => .error (.badIndex s fault) := by
  obtain ⟨middle, hmiddle⟩ := exists_readAll_append h
  rw [hmiddle, readAll_preview] at h
  obtain ⟨settled, hsettle, hstored⟩ := bind_eq_ok_iff.1 h
  obtain ⟨stored, hstore, hback⟩ := bind_eq_ok_iff.1 hstored
  -- The glyphs so far are set aside, and the rest is read without them.
  have hrest := settled.readAll_with back
  obtain ⟨last, hlast⟩ : ∃ last, { settled with preview := [] }.readAll back = .ok last := by
    unfold store at hstore
    dsimp only at hstore
    split at hstore
    · cases hstore
    · obtain rfl := Except.ok.inj hstore
      rw [hrest] at hback
      obtain ⟨last, hlast, _⟩ := map_eq_ok_iff.1 hback
      exact ⟨last, hlast⟩
  refine ⟨settled, last, ?_, ?_, fun s => ?_⟩
  · have hfront := hmiddle []
    rw [List.append_nil] at hfront
    exact hfront.trans hsettle
  · rw [hmiddle]
    apply readAll_of_settled hsettle
    rw [show settled = { settled with preview := settled.preview } from rfl, hrest, hlast]
    rfl
  · rw [hmiddle, readAll_preview, hsettle]
    unfold store
    dsimp only [Except.bind]
    cases readIndex s with
    | error fault => rfl
    | ok c =>
      dsimp only
      rw [hrest, hlast]
      rfl

end Reader

/-! ## Configurations -/

/-- Readers that differ in their glyphs alone give configurations that do. -/
theorem parse_with_preview {arguments others : List String} {environment : Environment}
    {config : Config} {reader other : Reader} (hread : Reader.start.readAll arguments = .ok reader)
    (hother : Reader.start.readAll others = .ok other)
    (hglyphs : { other with preview := reader.preview } = reader)
    (h : parse arguments environment = .ok config) :
    parse others environment = .ok { config with preview := other.preview } := by
  obtain ⟨_, hread', paths, hpaths, rfl⟩ := parse_eq_ok_iff.1 h
  obtain rfl := Except.ok.inj (hread.symm.trans hread')
  refine parse_eq_ok_iff.2 ⟨other, hother, paths, fun p => ?_, ?_⟩
  · rw [← hglyphs] at hpaths
    exact hpaths p
  · rw [← hglyphs]
    rfl

/-- With no variable set, arguments that can be read give a configuration. -/
theorem exists_parse_of_readAll {arguments : List String} {reader : Reader}
    (hread : Reader.start.readAll arguments = .ok reader) :
    ∃ config, parse arguments ⟨none, none⟩ = .ok config ∧ config.preview = reader.preview := by
  have hvariable (p : PathOption) : PerPath.get (⟨none, none⟩ : Environment) p ≠ some "" := by
    cases p <;> exact nofun
  exact ⟨_, parse_of_readAll hread hvariable, rfl⟩

/-- Of a preview among accepted arguments, a configuration takes nothing but its number. -/
theorem parse_around {front back : List String} {text : String} {environment : Environment}
    {config : Config}
    (h : parse (front ++ ("--preview=" ++ text) :: back) environment = .ok config) :
    ∃ first after, parse front ⟨none, none⟩ = .ok first ∧
      parse (front ++ back) environment = .ok { config with preview := first.preview ++ after } ∧
      ∀ s, parse (front ++ ("--preview=" ++ s) :: back) environment =
        match readIndex s with
        | .ok c => .ok { config with preview := first.preview ++ c :: after }
        | .error fault => .error (.badIndex s fault) := by
  obtain ⟨reader, hread, _⟩ := parse_eq_ok_iff.1 h
  obtain ⟨settled, last, hfront, haround, hpreview⟩ := Reader.readAll_around hread
  obtain ⟨first, hfirst, hglyphs⟩ := exists_parse_of_readAll hfront
  have htext := hpreview text
  rw [hread] at htext
  split at htext
  · obtain rfl := Except.ok.inj htext
    rw [← hglyphs] at haround hpreview hread
    refine ⟨first, last.preview, hfirst, parse_with_preview hread haround rfl h, fun s => ?_⟩
    have hs := hpreview s
    cases hindex : readIndex s with
    | ok c =>
      rw [hindex] at hs
      rw [parse_with_preview hread hs rfl h]
      simp only [Reader.prepend, List.append_assoc, List.singleton_append]
    | error fault =>
      rw [hindex] at hs
      exact parse_of_readAll_error hs
  · cases htext

/-- **A preview shows the glyph of the number that it spells, or the arguments are refused.** If a
list with a preview in its midst is accepted, then so it is with every other text that spells a
number from 0 to 255, and exactly this number stands between the glyphs asked for in front and those
asked for behind. Every other text is reported as it is. An accepted number names a glyph of each
font, so no preview of a run fails. -/
theorem previews_name_glyphs :
    (∀ (front back : List String) (text : String) (environment : Environment) (config : Config),
      parse (front ++ ("--preview=" ++ text) :: back) environment = .ok config →
        ∃ first after, parse front ⟨none, none⟩ = .ok first ∧
          parse (front ++ back) environment =
            .ok { config with preview := first.preview ++ after } ∧
          ∀ s : String,
            (∀ value, Spells s.toList value → 0 ≤ value ∧ value ≤ 255 →
              ∃ c : UInt8, (c.toNat : Int) = value ∧
                parse (front ++ ("--preview=" ++ s) :: back) environment =
                  .ok { config with preview := first.preview ++ c :: after }) ∧
            ((∀ value, Spells s.toList value → ¬(0 ≤ value ∧ value ≤ 255)) →
              ∃ fault, parse (front ++ ("--preview=" ++ s) :: back) environment =
                .error (.badIndex s fault))) ∧
    ∀ (disk : Disk) (arguments : List String) (environment : Environment) (config : Config)
      (font : Font), parse arguments environment = .ok config →
        (disk.convertFile config.input config.output).result = .ok font →
          (Program.run disk arguments environment).code = .success ∧
          (Program.run disk arguments environment).output = font.preview config.preview ∧
          ∀ c ∈ config.preview, font.glyphs[c.toNat]? = some (font.glyph c) ∧
            Machine.glyph font c.toBitVec = .ok (font.glyph c) := by
  constructor
  · intro front back text environment config h
    obtain ⟨first, after, hfirst, hwithout, hpreview⟩ := parse_around h
    refine ⟨first, after, hfirst, hwithout, fun s => ⟨?_, ?_⟩⟩
    · rintro value hspells ⟨hlow, hhigh⟩
      have hindex : readIndex s = .ok (UInt8.ofNat value.toNat) :=
        readIndex_eq_ok_iff.2 ⟨value, hspells, hlow, hhigh, rfl⟩
      refine ⟨UInt8.ofNat value.toNat, ?_, ?_⟩
      · rw [UInt8.toNat_ofNat_of_lt' (by simp only [UInt8.size]; omega)]
        omega
      · rw [hpreview, hindex]
    · intro hnone
      rw [hpreview]
      cases hindex : readIndex s with
      | ok c =>
        obtain ⟨value, hspells, hlow, hhigh, _⟩ := readIndex_eq_ok_iff.1 hindex
        exact absurd ⟨hlow, hhigh⟩ (hnone value hspells)
      | error fault => exact ⟨fault, rfl⟩
  · intro disk arguments environment config font hparse hfont
    rw [Program.run_of_config disk hparse, Program.outcome_of_ok hfont]
    refine ⟨rfl, rfl, fun c _ => ⟨?_, ?_⟩⟩
    · rw [font.getElem?_glyphs c.toNat_lt, UInt8.ofNat_toNat]
    · exact Machine.glyph_eq font c.toBitVec

/-- Between two other previews, a signed zero and a seven behind zeros are read; a number one above
the last glyph, one far outside of 64 bits and a digit of another script are refused. A run that is
asked for glyph 7 shows it. -/
theorem previews_name_glyphs_between :
    parse ["-p7", "--preview=-0", "-vp1"] ⟨none, none⟩ =
        .ok ⟨"lgfont.png", "lgfont.bin", [7, 0, 1], .debug⟩ ∧
      parse ["-p7", "--preview=+007", "-vp1"] ⟨none, none⟩ =
        .ok ⟨"lgfont.png", "lgfont.bin", [7, 7, 1], .debug⟩ ∧
      (∀ s ∈ ["256", "123456789012345678901234567890", "٣", " 1", ""], ∃ fault,
        parse ["-p7", "--preview=" ++ s, "-vp1"] ⟨none, none⟩ = .error (.badIndex s fault)) ∧
      ∃ font, (Disk.linkedStrip.convertFile "strip.png" "link.png").result = .ok font ∧
        (Program.run Disk.linkedStrip ["-istrip.png", "-olink.png", "--preview=+007"]
          ⟨none, none⟩).output = font.preview [7] := by
  have hvalid : parse (["-p7"] ++ ("--preview=" ++ "-0") :: ["-vp1"]) ⟨none, none⟩ =
      .ok ⟨"lgfont.png", "lgfont.bin", [7, 0, 1], .debug⟩ := by rfl
  obtain ⟨first, after, hfirst, hwithout, hother⟩ := previews_name_glyphs.1 _ _ _ _ _ hvalid
  have hseven : parse ["-p7"] ⟨none, none⟩ = .ok ⟨"lgfont.png", "lgfont.bin", [7], .info⟩ := by rfl
  obtain rfl := Except.ok.inj (hfirst.symm.trans hseven)
  have hboth : parse (["-p7"] ++ ["-vp1"]) ⟨none, none⟩ =
      .ok ⟨"lgfont.png", "lgfont.bin", [7, 1], .debug⟩ := by rfl
  obtain rfl : after = [1] := by
    have hpreview := congrArg Config.preview (Except.ok.inj (hwithout.symm.trans hboth))
    exact List.append_cancel_left hpreview
  have hrefused : ∀ s ∈ ["256", "123456789012345678901234567890", "٣", " 1", ""],
      (readIndex s).toOption = none := by decide +kernel
  obtain ⟨font, hfont⟩ := Disk.convertFile_linkedStrip_ok (Or.inl rfl) Disk.isName_link
    (by decide +kernel) (by decide +kernel)
  have hrun : parse ["-istrip.png", "-olink.png", "--preview=+007"] ⟨none, none⟩ =
      .ok ⟨"strip.png", "link.png", [7], .info⟩ := by rfl
  refine ⟨hvalid, ?_, fun s hs => ?_, font, hfont,
    (previews_name_glyphs.2 Disk.linkedStrip _ _ _ font hrun hfont).2.1⟩
  · have hspells : Spells "+007".toList 7 :=
      @Spells.plus ['0', '0', '7'] (by decide) (List.all_eq_true.1 (by decide))
    obtain ⟨c, hc, hparse⟩ := (hother "+007").1 7 hspells (by decide)
    have hnumber : c.toNat = 7 := by omega
    obtain rfl : c = 7 := UInt8.toNat_inj.1 hnumber
    exact hparse
  · refine (hother s).2 fun value hspells hrange => ?_
    have hread := readIndex_eq_ok_iff.2 ⟨value, hspells, hrange.1, hrange.2, rfl⟩
    have hnone := hrefused s hs
    rw [hread] at hnone
    cases hnone

end GlyphStrip.CommandLine
