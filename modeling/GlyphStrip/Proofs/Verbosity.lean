import GlyphStrip.Proofs.Log.Lines
import GlyphStrip.Proofs.Running
import GlyphStrip.Proofs.Strip.Faults

/-!
# Runs that differ in their level

The level of a run decides which events are shown and nothing else (`Program.run_ignores_level`).
The events themselves tell how far the run got, stage by stage (`Program.staged_configured`).
-/

namespace GlyphStrip

/-! ## Levels -/

/-- An event as a run with another level would have it: the event of the arguments names the
level. -/
def Event.withLevel (level : Level) : Event → Event
  | parsedArguments config => parsedArguments { config with level := level }
  | event => event

theorem Level.admits_trans {level other event : Level} (h : other.admits level)
    (hevent : level.admits event) : other.admits event := by
  simp only [Level.admits, decide_eq_true_eq] at h hevent ⊢
  omega

/-- What a run shows is also shown by one with more detail. -/
theorem Event.filter_shown {level other : Level} (h : other.admits level) (events : List Event) :
    (shown other events).filter (fun event => level.admits event.level) = shown level events := by
  rw [shown, shown, List.filter_filter]
  apply List.filter_congr
  intro event _
  by_cases hevent : level.admits event.level
  · simp [hevent, Level.admits_trans h hevent]
  · simp [hevent]

/-! ## The course of a conversion -/

theorem Disk.event_of_mem_convertFile {disk : Disk} {input output : String} {event : Event}
    (h : event ∈ (disk.convertFile input output).events) :
    (∃ image, event = .ofImage input image) ∨ (∃ glyph, event = .packedGlyph glyph) ∨
      event = .wroteFont input output := by
  have hconvert {image : Image} (h : event ∈ (convertImage input image).1) :
      (∃ image, event = .ofImage input image) ∨ ∃ glyph, event = .packedGlyph glyph := by
    rcases List.mem_cons.1 h with rfl | hglyph
    · exact Or.inl ⟨image, rfl⟩
    · obtain ⟨glyph, _, rfl⟩ := List.mem_map.1 hglyph
      exact Or.inr ⟨glyph, rfl⟩
  have hcourse := disk.course_convertFile input output
  generalize disk.convertFile input output = conversion at hcourse h
  cases hcourse with
  | unloaded hload => cases h
  | unpacked hload hpack => exact (hconvert h).imp_right Or.inl
  | unpublished hload hpack => exact (hconvert h).imp_right Or.inl
  | published hload hpack htarget =>
    rcases List.mem_append.1 h with hbefore | hlast
    · exact (hconvert hbefore).imp_right Or.inl
    · exact Or.inr (Or.inr (List.mem_singleton.1 hlast))

namespace Program

/-- One event tells of the picture, if it was loaded. -/
def TellsDecoded (disk : Disk) (input : String) (events : List Event) : Prop :=
  match disk.load input with
  | .ok image =>
    events = [.decodedImage input image.toGray.width image.toGray.height image.colorType]
  | .error _ => events = []

/-- One event for each glyph tells of the packing, if the picture has the shape of a strip. -/
def TellsPacked (disk : Disk) (input : String) (events : List Event) : Prop :=
  match disk.load input with
  | .ok image =>
    if image.toGray.width = 2048 ∧ image.toGray.height = 7 then
      (Source.ofGray image.toGray).Tells 256 events
    else events = []
  | .error _ => events = []

/-- One event tells of the font, if it has replaced the output; else nothing has changed. -/
def TellsWritten (disk : Disk) (config : Config) (outcome : Outcome) (events : List Event) : Prop :=
  (outcome.code = .success ∧ events = [.wroteFont config.input config.output] ∧
    ∃ place font, disk.Names config.output place ∧
      disk.Replaces outcome.disk place (.file (Font.bytes font))) ∨
  (outcome.code = .failure ∧ events = [] ∧ outcome.disk = disk)

/-- The events of a run, stage by stage, and those of them that its level admits are shown. -/
structure Staged (disk : Disk) (config : Config) (outcome : Outcome) : Prop where
  stages : ∃ decoded packed written,
    outcome.events = .parsedArguments config :: (decoded ++ packed ++ written) ∧
      TellsDecoded disk config.input decoded ∧ TellsPacked disk config.input packed ∧
      TellsWritten disk config outcome written
  shown : outcome.shown = outcome.events.filter fun event => config.level.admits event.level

/-- The picture's event and those of the packing, which are all there are before the font is
written. -/
theorem tells_convertImage {disk : Disk} {input : String} {image : Image}
    (hload : disk.load input = .ok image) : ∃ decoded packed,
      (convertImage input image).1 = decoded ++ packed ∧ TellsDecoded disk input decoded ∧
        TellsPacked disk input packed := by
  refine ⟨[.ofImage input image], _, rfl, ?_, ?_⟩
  · rw [TellsDecoded, hload]
    rfl
  · rw [TellsPacked, hload]
    dsimp only
    split
    · rename_i hshape
      obtain ⟨font, hpack⟩ := Source.exists_pack_ofGray hshape.1 hshape.2
      exact (Source.finished_of_pack hpack).2
    · rename_i hshape
      rw [Source.pack_of_not_isStrip (mt Source.isStrip_iff.1 hshape)]
      rfl

theorem staged_configured (disk : Disk) (config : Config) :
    Staged disk config ((configured disk config).outcome disk) := by
  refine ⟨?_, shown_configured disk config⟩
  have hcourse := disk.course_convertFile config.input config.output
  have hevents := events_configured disk config
  generalize hconversion : disk.convertFile config.input config.output = conversion
    at hcourse hevents
  have herror {error : ConvertError} (h : conversion.result = .error error) :
      ((configured disk config).outcome disk).code = .failure ∧
        ((configured disk config).outcome disk).disk = conversion.disk := by
    rw [outcome_of_error (hconversion ▸ h), hconversion]
    exact ⟨rfl, rfl⟩
  cases hcourse with
  | unloaded hload =>
    obtain ⟨hcode, hdisk⟩ := herror rfl
    refine ⟨[], [], [], hevents, ?_, ?_, Or.inr ⟨hcode, rfl, hdisk⟩⟩
    · rw [TellsDecoded, hload]
    · rw [TellsPacked, hload]
  | unpacked hload hpack | unpublished hload hpack =>
    obtain ⟨decoded, packed, hbefore, hdecoded, hpacked⟩ := tells_convertImage hload
    obtain ⟨hcode, hdisk⟩ := herror rfl
    refine ⟨decoded, packed, [], ?_, hdecoded, hpacked, Or.inr ⟨hcode, rfl, hdisk⟩⟩
    rw [hevents, hbefore, List.append_nil]
  | @published image font target hload hpack htarget =>
    obtain ⟨decoded, packed, hbefore, hdecoded, hpacked⟩ := tells_convertImage hload
    have hnames := Disk.names_of_replaceable htarget
    have hresult : (disk.convertFile config.input config.output).result = .ok font := by
      rw [hconversion]
    have hwritten : TellsWritten disk config ((configured disk config).outcome disk)
        [.wroteFont config.input config.output] := by
      rw [outcome_of_ok hresult, hconversion]
      exact Or.inl ⟨rfl, rfl, target, font, hnames, hnames.replaces_put _⟩
    refine ⟨decoded, packed, _, ?_, hdecoded, hpacked, hwritten⟩
    rw [hevents, hbefore]

/-! ## Two levels -/

/-- Two runs have done the same and said the same, their events apart. -/
structure SameWork (outcome other : Outcome) : Prop where
  code : outcome.code = other.code
  output : outcome.output = other.output
  error : outcome.error = other.error
  disk : outcome.disk = other.disk

/-- The level decides nothing but what is shown. -/
theorem sameWork_configured (disk : Disk) (config : Config) (level : Level) :
    SameWork ((configured disk config).outcome disk)
      ((configured disk { config with level := level }).outcome disk) := by
  cases hresult : (disk.convertFile config.input config.output).result with
  | error error =>
    rw [outcome_of_error hresult, outcome_of_error (by exact hresult)]
    exact ⟨rfl, rfl, rfl, rfl⟩
  | ok font =>
    rw [outcome_of_ok hresult, outcome_of_ok (by exact hresult)]
    exact ⟨rfl, rfl, rfl, rfl⟩

theorem map_withLevel_convertFile (level : Level) (disk : Disk) (input output : String) :
    (disk.convertFile input output).events.map (Event.withLevel level) =
      (disk.convertFile input output).events := by
  have hsame (event : Event) (h : event ∈ (disk.convertFile input output).events) :
      event.withLevel level = event := by
    rcases Disk.event_of_mem_convertFile h with ⟨image, rfl⟩ | ⟨glyph, rfl⟩ | rfl <;> rfl
  rw [List.map_congr_left hsame, List.map_id']

theorem shown_withLevel (disk : Disk) (config : Config) {level : Level}
    (h : level.admits config.level) :
    ((configured disk config).outcome disk).shown =
      (((configured disk { config with level := level }).outcome disk).shown.filter
        fun event => config.level.admits event.level).map (Event.withLevel config.level) := by
  rw [shown_configured, shown_configured, Event.filter_shown h]
  have hlevel (event : Event) : (event.withLevel config.level).level = event.level := by
    cases event <;> rfl
  have hevents : ((configured disk { config with level := level }).outcome disk).events.map
      (Event.withLevel config.level) = ((configured disk config).outcome disk).events := by
    rw [events_configured, events_configured, List.map_cons, map_withLevel_convertFile]
    rfl
  rw [← hevents, Event.shown, Event.shown, List.filter_map]
  simp only [Function.comp_def, hlevel]

/-- Where no path holds a line feed, every event takes one line, and the other lines are those of
the message. -/
theorem otherLines_configured (disk : Disk) (config : Config) (hinput : IsLine config.input)
    (houtput : IsLine config.output) :
    ((configured disk config).outcome disk).otherLines =
      (((configured disk config).outcome disk).error.map Text.lines).getD [] := by
  have hline (event : Event) (h : event ∈ ((configured disk config).outcome disk).events) :
      event.lines.tail = [] := by
    apply Event.tail_lines
    apply Event.isLine_text
    intro path hpath
    rw [events_configured] at h
    rcases List.mem_cons.1 h with rfl | hconvert
    · cases hpath
    · rcases Disk.event_of_mem_convertFile hconvert with ⟨image, rfl⟩ | ⟨glyph, rfl⟩ | rfl
      · obtain rfl := List.mem_singleton.1 hpath
        exact hinput
      · cases hpath
      · rcases List.mem_pair.1 hpath with rfl | rfl
        · exact hinput
        · exact houtput
  have hshown : ((configured disk config).outcome disk).shown.flatMap
      (fun event => event.lines.tail) = [] := by
    rw [shown_configured, Event.shown, List.flatMap_eq_nil_iff]
    intro event h
    exact hline event (List.mem_filter.1 h).1
  rw [Outcome.otherLines, hshown, List.nil_append]

/-- **The level influences nothing but which events are shown.** Two runs whose configurations
differ in the level alone end with the same code, output, message and disk. The less detailed one
shows those events of the other that its level admits, in their order. The events of any run are
those of its stages, one stage after the other; arguments that describe no conversion have none.

A line of the log starts like a report only behind a line feed that stands in a path. -/
theorem run_ignores_level (disk : Disk) :
    (∀ {arguments others : List String} {environment elsewhere : CommandLine.Environment}
      {config : Config} {level : Level}, CommandLine.parse arguments environment = .ok config →
      CommandLine.parse others elsewhere = .ok { config with level := level } →
      SameWork (run disk arguments environment) (run disk others elsewhere) ∧
        (IsLine config.input → IsLine config.output →
          (run disk arguments environment).errorLine? = (run disk others elsewhere).errorLine?) ∧
        (level.admits config.level → (run disk arguments environment).shown =
          ((run disk others elsewhere).shown.filter fun event =>
            config.level.admits event.level).map (Event.withLevel config.level))) ∧
    ∀ (arguments : List String) (environment : CommandLine.Environment),
      match CommandLine.parse arguments environment with
      | .error _ => (run disk arguments environment).events = [] ∧
          (run disk arguments environment).shown = []
      | .ok config => Staged disk config (run disk arguments environment) := by
  constructor
  · intro arguments others environment elsewhere config level hparse hother
    rw [run_of_config disk hparse, run_of_config disk hother]
    have hwork := sameWork_configured disk config level
    refine ⟨hwork, fun hinput houtput => ?_, fun h => shown_withLevel disk config h⟩
    have hlines := otherLines_configured disk config hinput houtput
    have hothers := otherLines_configured disk { config with level := level } hinput houtput
    rw [Outcome.errorLine?, Outcome.errorLine?, hlines, hothers, hwork.error]
  · intro arguments environment
    cases hparse : CommandLine.parse arguments environment with
    | error error => exact (declined_run disk hparse).events
    | ok config =>
      rw [run_of_config disk hparse]
      exact staged_configured disk config

/-- A black strip converted without and with `-vv`. -/
theorem run_ignores_level_linkedStrip :
    let quiet := run Disk.linkedStrip ["-i", "strip.png", "-o", "link.png"] ⟨none, none⟩
    let loud := run Disk.linkedStrip ["-i", "strip.png", "-vv", "-olink.png"] ⟨none, none⟩
    quiet.code = .success ∧ SameWork quiet loud ∧ quiet.errorLine? = loud.errorLine? ∧
      quiet.shown = (loud.shown.filter fun event => Level.info.admits event.level).map
        (Event.withLevel .info) ∧
      loud.events.length = 259 := by
  intro quiet loud
  have hparse : CommandLine.parse ["-i", "strip.png", "-o", "link.png"] ⟨none, none⟩ =
      .ok ⟨"strip.png", "link.png", [], .info⟩ := by rfl
  have hother : CommandLine.parse ["-i", "strip.png", "-vv", "-olink.png"] ⟨none, none⟩ =
      .ok ⟨"strip.png", "link.png", [], .trace⟩ := by rfl
  have hinput : IsLine "strip.png" := by simp [IsLine]
  have houtput : IsLine "link.png" := by simp [IsLine]
  have hcode : quiet.code = .success := by
    obtain ⟨font, hfont⟩ := Disk.convertFile_linkedStrip_ok (Or.inl rfl) Disk.isName_link
      (by decide +kernel) (by decide +kernel)
    show (run _ _ _).code = _
    rw [run_of_config _ hparse,
      @outcome_of_ok _ ⟨"strip.png", "link.png", [], .info⟩ font hfont]
  obtain ⟨hwork, hline, hshown⟩ := (run_ignores_level Disk.linkedStrip).1 hparse hother
  refine ⟨hcode, hwork, hline hinput houtput, hshown (by decide), ?_⟩
  have hstaged := (run_ignores_level Disk.linkedStrip).2 ["-i", "strip.png", "-vv", "-olink.png"]
    ⟨none, none⟩
  rw [hother] at hstaged
  obtain ⟨image, hload, hwidth, hheight⟩ := Disk.load_linkedStrip (Or.inl rfl)
  obtain ⟨decoded, packed, written, hevents, hdecoded, hpacked, hwritten⟩ := hstaged.stages
  simp only [TellsDecoded, hload] at hdecoded
  simp only [TellsPacked, hload, hwidth, hheight, and_self, if_true] at hpacked
  rcases hwritten with ⟨_, hwritten, _⟩ | ⟨hfailed, _⟩
  · show (run _ _ _).events.length = _
    rw [hevents, hdecoded, hwritten]
    simp [hpacked.1]
  · have hloud : loud.code = .success := hwork.code.symm.trans hcode
    exact absurd (hloud.symm.trans hfailed) (by decide)

end Program

end GlyphStrip
