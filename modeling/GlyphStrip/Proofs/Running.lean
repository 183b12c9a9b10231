import GlyphStrip.Proofs.Conversion
import GlyphStrip.Proofs.Interruption
import GlyphStrip.Program

/-!
# How a run ends

The outcome of a run is what its acts add up to (`addUpTo_run`). A conversion that succeeds tells of
the font last of all, behind all operations on files (`Disk.exists_acts_planOn`); one that fails
does not tell of it (`Disk.filter_isWriting_convertFile`). So a run ends in exactly one of three
ways: it is declined, it fails and leaves everything as it was, or it has replaced the output and
shows glyphs of the file that is there now (`run_ends_in_one_way`).
-/

namespace GlyphStrip

/-- Whether an event tells that a font has been written. -/
def Event.isWriting : Event → Bool
  | wroteFont .. => true
  | _ => false

theorem filter_isWriting_convertImage (input : String) (image : Image) :
    (convertImage input image).1.filter Event.isWriting = [] := by
  rw [List.filter_eq_nil_iff]
  intro event hevent
  rcases List.mem_cons.1 hevent with rfl | hglyph
  · exact Bool.false_ne_true
  · obtain ⟨glyph, _, rfl⟩ := List.mem_map.1 hglyph
    exact Bool.false_ne_true

namespace Disk

/-! ## The acts of a plan -/

/-- Events are told in front of the operations. That a font has been written is told behind them,
and only where nothing fails. -/
theorem planOn_cases (disk : Disk) (device : Device) (input output : String) :
    (∃ (events : List Event) (operations : List FileOperation) (error : ConvertError),
      disk.planOn device input output =
        ⟨events.map .tell ++ operations.map .perform, .error error⟩) ∨
    ∃ (events : List Event) (operations : List FileOperation) (font : Font),
      disk.planOn device input output =
        ⟨events.map .tell ++ operations.map .perform ++ [.tell (.wroteFont input output)],
          .ok font⟩ := by
  unfold planOn
  cases disk.load input with
  | error error => exact Or.inl ⟨[], [], .load error, rfl⟩
  | ok image =>
    dsimp only
    obtain ⟨events, result⟩ := convertImage input image
    cases result with
    | error error => exact Or.inl ⟨events, [], error, by simp⟩
    | ok font =>
      dsimp only
      obtain ⟨operations, result⟩ := disk.publicationOn device output (device.cut font.bytes)
      cases result with
      | error error => exact Or.inl ⟨events, operations, .publish error, rfl⟩
      | ok _ => exact Or.inr ⟨events, operations, font, rfl⟩

/-- A plan prints and reports nothing. -/
theorem silent_planOn (disk : Disk) (device : Device) (input output : String) :
    (disk.planOn device input output).acts.filterMap Act.text? = [] ∧
      (disk.planOn device input output).acts.filterMap Act.message? = [] := by
  rcases disk.planOn_cases device input output with
    ⟨events, operations, error, hplan⟩ | ⟨events, operations, font, hplan⟩ <;>
  · rw [hplan]
    constructor <;> simp

section converted

variable {disk : Disk} {input output : String} {font : Font}

/-- One event tells of the font that a conversion has written, and none tells of one where it has
failed. -/
theorem filter_isWriting_convertFile (disk : Disk) (input output : String) :
    (disk.convertFile input output).events.filter Event.isWriting =
      match (disk.convertFile input output).result with
      | .ok _ => [.wroteFont input output]
      | .error _ => [] := by
  have hcourse := disk.course_convertFile input output
  generalize disk.convertFile input output = conversion at hcourse ⊢
  cases hcourse with
  | unloaded => rfl
  | @unpacked image | @unpublished image => exact filter_isWriting_convertImage input image
  | @published image =>
    dsimp only
    rw [List.filter_append, filter_isWriting_convertImage]
    rfl

/-- The acts in front of the one that tells of the font have put it in its place. -/
theorem exists_acts_planOn (h : (disk.convertFile input output).result = .ok font) :
    ∃ before, (disk.planOn .sound input output).acts =
        before ++ [.tell (.wroteFont input output)] ∧
      disk.performAll (before.filterMap Act.operation?) =
        (disk.convertFile input output).disk := by
  rcases disk.planOn_cases .sound input output with
    ⟨events, operations, error, hplan⟩ | ⟨events, operations, other, hplan⟩
  · rw [convertFile, convertFileOn, hplan] at h
    cases h
  · refine ⟨_, congrArg Plan.acts hplan, ?_⟩
    rw [convertFile, convertFileOn, hplan]
    simp [Plan.carryOut, List.filterMap_cons]

/-- A conversion that succeeds replaces the entry that its output path names. -/
theorem exists_replaces_of_convertFile (h : (disk.convertFile input output).result = .ok font) :
    ∃ place, disk.Names output place ∧
      disk.Replaces (disk.convertFile input output).disk place (.file font.bytes) := by
  rcases convertFile_cases output with ⟨⟨_, herror⟩, _⟩ |
    ⟨_, packed, target, _, _, htarget, hok, hafter⟩
  · cases h.symm.trans herror
  · obtain rfl : font = packed := Except.ok.inj (h.symm.trans hok)
    have hnames := names_of_replaceable htarget
    rw [hafter]
    exact ⟨target, hnames, hnames.replaces_put _⟩

end converted

end Disk

namespace Program

/-! ## Runs with and without a configuration -/

section configured

variable {disk : Disk} {config : Config}

theorem outcome_of_error {error : ConvertError}
    (h : (disk.convertFile config.input config.output).result = .error error) :
    (configured disk config).outcome disk =
      { code := .failure
        output := ""
        events := .parsedArguments config :: (disk.convertFile config.input config.output).events
        shown := Event.shown config.level
          (.parsedArguments config :: (disk.convertFile config.input config.output).events)
        error := some (report error)
        disk := (disk.convertFile config.input config.output).disk } := by
  obtain ⟨htext, hmessage⟩ := disk.silent_planOn .sound config.input config.output
  have hresult : (disk.planOn .sound config.input config.output).result = .error error := h
  rw [configured, hresult]
  simp [Script.outcome, htext, hmessage, List.filterMap_cons, Disk.convertFile, Disk.convertFileOn,
    Plan.carryOut]

theorem outcome_of_ok {font : Font}
    (h : (disk.convertFile config.input config.output).result = .ok font) :
    (configured disk config).outcome disk =
      { code := .success
        output := font.preview config.preview
        events := .parsedArguments config :: (disk.convertFile config.input config.output).events
        shown := Event.shown config.level
          (.parsedArguments config :: (disk.convertFile config.input config.output).events)
        error := none
        disk := (disk.convertFile config.input config.output).disk } := by
  obtain ⟨htext, hmessage⟩ := disk.silent_planOn .sound config.input config.output
  have hresult : (disk.planOn .sound config.input config.output).result = .ok font := h
  rw [configured, hresult]
  simp [Script.outcome, htext, hmessage, List.filterMap_cons, Disk.convertFile, Disk.convertFileOn,
    Plan.carryOut]

theorem events_configured (disk : Disk) (config : Config) :
    ((configured disk config).outcome disk).events =
      .parsedArguments config :: (disk.convertFile config.input config.output).events := by
  cases hresult : (disk.convertFile config.input config.output).result with
  | error error => rw [outcome_of_error hresult]
  | ok font => rw [outcome_of_ok hresult]

theorem shown_configured (disk : Disk) (config : Config) :
    ((configured disk config).outcome disk).shown =
      Event.shown config.level ((configured disk config).outcome disk).events := by
  cases hresult : (disk.convertFile config.input config.output).result with
  | error error => rw [outcome_of_error hresult]
  | ok font => rw [outcome_of_ok hresult]

end configured

section runs

variable (disk : Disk) {arguments : List String} {environment : CommandLine.Environment}

theorem run_of_help (h : CommandLine.parse arguments environment = .error .helpRequested) :
    run disk arguments environment =
      ⟨.success, CommandLine.help environment, [], [], none, disk⟩ := by
  rw [run, script, h]
  simp [Script.outcome, Event.shown, List.filterMap_cons]

theorem run_of_refusal {error : CommandLine.ArgumentError}
    (h : CommandLine.parse arguments environment = .error error) (hne : error ≠ .helpRequested) :
    run disk arguments environment =
      ⟨.badArguments, "", [], [], some (error.message environment), disk⟩ := by
  rw [run, script, h]
  cases error with
  | helpRequested => exact absurd rfl hne
  | _ => simp [Script.outcome, Event.shown, List.filterMap_cons]

theorem run_of_config {config : Config}
    (h : CommandLine.parse arguments environment = .ok config) :
    run disk arguments environment = (configured disk config).outcome disk := by
  rw [run, script, h]

end runs

/-- What acts add up to: events told, the disk behind the operations, the text printed, the message
reported. -/
structure AddUpTo (disk : Disk) (acts : List Act) (outcome : Outcome) : Prop where
  events : acts.filterMap Act.event? = outcome.events
  disk : disk.performAll (acts.filterMap Act.operation?) = outcome.disk
  output : String.join (acts.filterMap Act.text?) = outcome.output
  error : (acts.filterMap Act.message?).head? = outcome.error

theorem addUpTo_run (disk : Disk) (arguments : List String)
    (environment : CommandLine.Environment) :
    AddUpTo disk (acts disk arguments environment) (run disk arguments environment) :=
  ⟨rfl, rfl, rfl, rfl⟩

/-! ## Endings -/

/-- The marks of some packed rows, line by line. -/
def drawn (rows : List UInt8) : String :=
  String.ofList (rows.flatMap fun byte =>
    (List.range 8).map (fun column => if byte.toNat.testBit (7 - column) then '#' else '.') ++
      ['\n'])

/-- What is printed for a glyph of a file: a header and the picture of its seven bytes. -/
def shownGlyph (content : List UInt8) (c : UInt8) : String :=
  "glyph 0x" ++ String.ofList (Hex.ofByte c) ++ ":\n" ++
    drawn ((content.drop (7 * c.toNat)).take 7) ++ "\n"

/-- The three ways in which a run ends. -/
inductive Ending where
  | declined
  | failed
  | finished

/-- The arguments describe no conversion: only a request for help is answered. -/
structure Declined (disk : Disk) (environment : CommandLine.Environment)
    (error : CommandLine.ArgumentError) (outcome : Outcome) : Prop where
  code : outcome.code.toByte = if error = .helpRequested then 0 else 2
  output : outcome.output = if error = .helpRequested then CommandLine.help environment else ""
  events : outcome.events = [] ∧ outcome.shown = []
  disk : outcome.disk = disk

/-- The conversion fails: nothing is printed, nothing has changed and no event tells of a font. -/
structure Failed (disk : Disk) (config : Config) (outcome : Outcome) : Prop where
  cause : ∃ error, (disk.convertFile config.input config.output).result = .error error
  code : outcome.code.toByte = 1
  output : outcome.output = ""
  events : outcome.events.filter Event.isWriting = [] ∧ outcome.shown.filter Event.isWriting = []
  disk : outcome.disk = disk

/-- The font is in the file that the output path named, and what is printed is drawn from that file.
One event tells of it, behind all operations on files. -/
structure Finished (disk : Disk) (config : Config) (acts : List Act) (outcome : Outcome) :
    Prop where
  code : outcome.code.toByte = 0
  file : ∃ place font, (disk.convertFile config.input config.output).result = .ok font ∧
    disk.Names config.output place ∧ outcome.disk.find? place = some (.file font.bytes) ∧
    font.bytes.length = 1792
  output : ∀ place content, disk.Names config.output place →
    outcome.disk.find? place = some (.file content) →
      outcome.output = String.join (config.preview.map (shownGlyph content))
  events : outcome.events.filter Event.isWriting = [.wroteFont config.input config.output] ∧
    outcome.shown.filter Event.isWriting = [.wroteFont config.input config.output]
  order : ∃ before, acts = before ++
      [.tell (.wroteFont config.input config.output), .print outcome.output] ∧
    disk.performAll (before.filterMap Act.operation?) = outcome.disk

def Ending.Describes (disk : Disk) (arguments : List String)
    (environment : CommandLine.Environment) : Ending → Prop
  | .declined => ∃ error, CommandLine.parse arguments environment = .error error ∧
      Declined disk environment error (run disk arguments environment)
  | .failed => ∃ config, CommandLine.parse arguments environment = .ok config ∧
      Failed disk config (run disk arguments environment)
  | .finished => ∃ config, CommandLine.parse arguments environment = .ok config ∧
      Finished disk config (acts disk arguments environment) (run disk arguments environment)

theorem toList_drawn (font : Font) (c : UInt8) :
    (drawn ((font.bytes.drop (7 * c.toNat)).take 7)).toList = (font.glyph c).pictureChars := by
  simp only [drawn, String.toList_ofList, Glyph.pictureChars, Font.glyph, List.flatMap_map,
    Row.marks, Row.pixels, List.map_map]
  rfl

theorem toList_shownGlyph (font : Font) (c : UInt8) :
    (shownGlyph font.bytes c).toList = font.previewBlock c := by
  simp only [shownGlyph, String.toList_append, String.toList_ofList, toList_drawn]
  rfl

theorem preview_eq_join (font : Font) (chosen : List UInt8) :
    font.preview chosen = String.join (chosen.map (shownGlyph font.bytes)) := by
  apply String.toList_inj.1
  simp only [Font.preview, String.toList_ofList, String.toList_join, List.flatMap_map,
    toList_shownGlyph]

/-- The event that a font has been written is shown at every level. -/
theorem filter_isWriting_shown (level : Level) (events : List Event) :
    (Event.shown level events).filter Event.isWriting = events.filter Event.isWriting := by
  rw [Event.shown, List.filter_filter]
  apply List.filter_congr
  intro event _
  cases event with
  | wroteFont => simp [Event.isWriting, Event.level, Level.admits, Level.rank]
  | _ => rfl

section runs

variable (disk : Disk) {arguments : List String} {environment : CommandLine.Environment}

theorem declined_run {error : CommandLine.ArgumentError}
    (h : CommandLine.parse arguments environment = .error error) :
    Declined disk environment error (run disk arguments environment) := by
  by_cases hhelp : error = .helpRequested
  · subst hhelp
    rw [run_of_help disk h]
    exact ⟨rfl, rfl, ⟨rfl, rfl⟩, rfl⟩
  · rw [run_of_refusal disk h hhelp]
    exact ⟨(if_neg hhelp).symm, (if_neg hhelp).symm, ⟨rfl, rfl⟩, rfl⟩

theorem failed_run {config : Config} {error : ConvertError}
    (h : CommandLine.parse arguments environment = .ok config)
    (herror : (disk.convertFile config.input config.output).result = .error error) :
    Failed disk config (run disk arguments environment) := by
  have hwriting := disk.filter_isWriting_convertFile config.input config.output
  rw [herror] at hwriting
  rw [run_of_config disk h, outcome_of_error herror]
  refine ⟨⟨error, herror⟩, rfl, rfl, ⟨hwriting, ?_⟩, ?_⟩
  · exact (filter_isWriting_shown _ _).trans hwriting
  · rcases Disk.convertFile_cases config.output with ⟨_, hafter⟩ | ⟨_, _, _, _, _, _, hok, _⟩
    · exact hafter
    · cases herror.symm.trans hok

theorem finished_run {config : Config} {font : Font}
    (h : CommandLine.parse arguments environment = .ok config)
    (hok : (disk.convertFile config.input config.output).result = .ok font) :
    Finished disk config (acts disk arguments environment) (run disk arguments environment) := by
  have hwriting := disk.filter_isWriting_convertFile config.input config.output
  rw [hok] at hwriting
  obtain ⟨place, hnames, hreplaces⟩ := Disk.exists_replaces_of_convertFile hok
  obtain ⟨before, hbefore, hdisk⟩ := Disk.exists_acts_planOn hok
  have hacts : acts disk arguments environment = .tell (.parsedArguments config) ::
      ((disk.planOn .sound config.input config.output).acts ++
        [.print (font.preview config.preview)]) := by
    have hplan : (disk.planOn .sound config.input config.output).result = .ok font := hok
    rw [acts, script, h]
    dsimp only
    rw [configured, hplan]
    rfl
  rw [run_of_config disk h, hacts, hbefore, outcome_of_ok hok]
  refine ⟨rfl, ⟨place, font, hok, hnames, hreplaces.replaced, font.length_bytes⟩, ?_,
    ⟨hwriting, ?_⟩, ?_⟩
  · intro other content hother hcontent
    obtain rfl := hother.unique hnames
    obtain rfl : font.bytes = content :=
      Entry.file.inj (Option.some.inj (hreplaces.replaced.symm.trans hcontent))
    exact preview_eq_join font config.preview
  · exact (filter_isWriting_shown _ _).trans hwriting
  · refine ⟨.tell (.parsedArguments config) :: before, ?_, hdisk⟩
    rw [List.append_assoc, List.cons_append]
    rfl

end runs

/-- **A run ends in exactly one of three ways**, and its outcome is what its acts add up to. It
answers a request for help or refuses its arguments; or it fails, prints nothing and leaves every
file as it was; or the output holds a whole font, of which one event tells after the replacement,
and the glyphs printed are those of the file that is there now. -/
theorem run_ends_in_one_way (disk : Disk) (arguments : List String)
    (environment : CommandLine.Environment) :
    (∃! ending : Ending, ending.Describes disk arguments environment) ∧
      AddUpTo disk (acts disk arguments environment) (run disk arguments environment) := by
  refine ⟨?_, addUpTo_run disk arguments environment⟩
  cases hparse : CommandLine.parse arguments environment with
  | error error =>
    refine ⟨.declined, ⟨error, hparse, declined_run disk hparse⟩, ?_⟩
    rintro (_ | _ | _) hother
    · rfl
    all_goals
      obtain ⟨config, hconfig, _⟩ := hother
      rw [hparse] at hconfig
      cases hconfig
  | ok config =>
    have hparsed {error : CommandLine.ArgumentError} :
        CommandLine.parse arguments environment ≠ .error error := by
      rw [hparse]
      exact fun h => nomatch h
    cases hresult : (disk.convertFile config.input config.output).result with
    | error error =>
      have hfailed := failed_run disk hparse hresult
      refine ⟨.failed, ⟨config, hparse, hfailed⟩, ?_⟩
      rintro (_ | _ | _) hother
      · exact absurd hother.choose_spec.1 hparsed
      · rfl
      · obtain ⟨_, _, hfinished⟩ := hother
        exact absurd (hfailed.code.symm.trans hfinished.code) (by decide)
    | ok font =>
      have hfinished := finished_run disk hparse hresult
      refine ⟨.finished, ⟨config, hparse, hfinished⟩, ?_⟩
      rintro (_ | _ | _) hother
      · exact absurd hother.choose_spec.1 hparsed
      · obtain ⟨_, _, hfailed⟩ := hother
        exact absurd (hfailed.code.symm.trans hfinished.code) (by decide)
      · rfl

/-! ## A run for each ending -/

/-- A request for help and a glyph that there is not. -/
theorem declined_linkedStrip : ∀ argument ∈ ["--help", "-p256"],
    Ending.declined.Describes Disk.linkedStrip [argument] ⟨none, none⟩ := by
  intro argument hargument
  rcases List.mem_pair.1 hargument with rfl | rfl
  · exact ⟨.helpRequested, by rfl, declined_run Disk.linkedStrip (by rfl)⟩
  · exact ⟨.badIndex "256" (.outOfRange 256), by rfl, declined_run Disk.linkedStrip (by rfl)⟩

/-- A glyph is asked for, but the strip is missing. -/
theorem failed_linkedStrip :
    Ending.failed.Describes Disk.linkedStrip ["-inone.png", "-p65"] ⟨none, none⟩ := by
  have hparse : CommandLine.parse ["-inone.png", "-p65"] ⟨none, none⟩ =
      .ok ⟨"none.png", "lgfont.bin", [65], .info⟩ := by rfl
  exact ⟨_, hparse, failed_run Disk.linkedStrip hparse
    (by rw [Disk.convertFile_of_load_error _ Disk.load_missing_linkedStrip])⟩

/-- A black strip is converted over a link, and one of its glyphs shown twice. -/
theorem finished_linkedStrip : Ending.finished.Describes Disk.linkedStrip
    ["-istrip.png", "-olink.png", "-p65", "-p65"] ⟨none, none⟩ := by
  have hparse : CommandLine.parse ["-istrip.png", "-olink.png", "-p65", "-p65"] ⟨none, none⟩ =
      .ok ⟨"strip.png", "link.png", [65, 65], .info⟩ := by rfl
  obtain ⟨font, hfont⟩ := Disk.convertFile_linkedStrip_ok (Or.inl rfl) Disk.isName_link
    (by decide +kernel) (by decide +kernel)
  exact ⟨_, hparse, finished_run Disk.linkedStrip hparse hfont⟩

/-- Each of the three endings is that of some run, and of this run the only one. -/
theorem run_ends_in_one_way_linkedStrip :
    (∀ ending : Ending,
      ending.Describes Disk.linkedStrip ["-p256"] ⟨none, none⟩ ↔ ending = .declined) ∧
    (∀ ending : Ending,
      ending.Describes Disk.linkedStrip ["-inone.png", "-p65"] ⟨none, none⟩ ↔
        ending = .failed) ∧
    ∀ ending : Ending, ending.Describes Disk.linkedStrip
      ["-istrip.png", "-olink.png", "-p65", "-p65"] ⟨none, none⟩ ↔ ending = .finished := by
  have hone {arguments : List String} {ending other : Ending}
      (h : other.Describes Disk.linkedStrip arguments ⟨none, none⟩) :
      ending.Describes Disk.linkedStrip arguments ⟨none, none⟩ ↔ ending = other := by
    obtain ⟨hunique, _⟩ := run_ends_in_one_way Disk.linkedStrip arguments ⟨none, none⟩
    exact ⟨fun hending => hunique.unique hending h, fun hending => hending ▸ h⟩
  exact ⟨fun _ => hone (declined_linkedStrip "-p256" (by decide)), fun _ => hone failed_linkedStrip,
    fun _ => hone finished_linkedStrip⟩

end Program

end GlyphStrip
