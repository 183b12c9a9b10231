import GlyphStrip.Proofs.CommandLine.Occurrence
import Mathlib.Logic.Function.Iterate
import Mathlib.Tactic.SplitIfs

/-!
# Reading occurrences

An option is only taken in when what follows it has been seen, so a reader stands for what it is
once it has settled. On settled readers each spelling means the same (`Reader.readAll_spell`), and
reading a list of occurrences is taking them in one after the other (`Reader.readAll_occurrences`).
-/

namespace GlyphStrip.CommandLine

namespace Reader

variable {reader settled : Reader}

/-! ## Settling -/

theorem settle_of_opened (h : reader.opened = none) : reader.settle = .ok reader := by
  rw [settle, h]

theorem opened_of_store {option : ValueOption} {text : String}
    (h : reader.store option text = .ok settled) : settled.opened = reader.opened := by
  unfold store at h
  cases option with
  | path p =>
    dsimp only at h
    split_ifs at h
    obtain rfl := Except.ok.inj h
    rfl
  | preview =>
    dsimp only at h
    split at h
    · cases h
    · obtain rfl := Except.ok.inj h
      rfl

theorem opened_of_settle (h : reader.settle = .ok settled) : settled.opened = none := by
  unfold settle at h
  split at h
  · rename_i hopened
    obtain rfl := Except.ok.inj h
    exact hopened
  · cases h
  · exact opened_of_store h

theorem settle_opened (option : ValueOption) (text : String) (h : reader.opened = none) :
    { reader with opened := some ⟨option, some text⟩ }.settle = reader.store option text := by
  have hreader : { reader with opened := none } = reader := by rw [← h]
  rw [settle]
  exact congrArg (fun r : Reader => r.store option text) hreader

/-! ## One occurrence -/

/-- Takes in one occurrence, with no option open. -/
def receive (reader : Reader) : Occurrence → Except ArgumentError Reader
  | .value option _ text => reader.store option text
  | .verbose => .ok { reader with verbosity := countOn reader.verbosity }
  | .cluster more => .ok { reader with verbosity := countOn^[more + 1] reader.verbosity }

theorem opened_of_receive {o : Occurrence} (h : reader.receive o = .ok settled) :
    settled.opened = reader.opened := by
  cases o with
  | value option spelling text => exact opened_of_store h
  | verbose =>
    obtain rfl := Except.ok.inj h
    rfl
  | cluster more =>
    obtain rfl := Except.ok.inj h
    rfl

theorem raise_verbose : reader.raise .verbose =
    reader.settle.map fun r => { r with verbosity := countOn r.verbosity } := by
  rw [raise]
  cases reader.settle <;> rfl

/-- Each letter of a cluster counts. -/
theorem cluster_verbose (more : Nat) (reader : Reader) :
    reader.cluster (List.replicate (more + 1) 'v') =
      reader.settle.map fun r => { r with verbosity := countOn^[more + 1] r.verbosity } := by
  have hletter : Known.ofShort? 'v' = some (.flag .verbose) := rfl
  induction more generalizing reader with
  | zero =>
    simp only [List.replicate, cluster, hletter, raise_verbose]
    cases reader.settle <;> rfl
  | succ more ih =>
    rw [List.replicate_succ, cluster, hletter]
    dsimp only
    rw [raise_verbose]
    cases hsettle : reader.settle with
    | error error => rfl
    | ok r =>
      have hopened := opened_of_settle hsettle
      have hraised : ({ r with verbosity := countOn r.verbosity } : Reader).opened = none := hopened
      simp only [Except.map, Except.bind, ih, settle_of_opened hraised, Function.iterate_succ_apply]

theorem long_await (reader : Reader) (option : ValueOption) :
    reader.long (Known.value option).long none = reader.await option := by
  unfold long
  rw [ofLong?_value]

theorem long_give (reader : Reader) (option : ValueOption) (text : String) :
    reader.long (Known.value option).long (some text) = reader.give option text := by
  unfold long
  rw [ofLong?_value]

theorem long_verbose (reader : Reader) : reader.long "verbose" none = reader.raise .verbose :=
  rfl

theorem cluster_await (reader : Reader) (option : ValueOption) :
    reader.cluster [(Known.value option).short] = reader.await option := by
  unfold cluster
  rw [ofShort?_value]

theorem cluster_give (reader : Reader) (option : ValueOption) {text : String} (hne : text ≠ "")
    (hequals : text.toList.head? ≠ some '=') :
    reader.cluster ((Known.value option).short :: text.toList) = reader.give option text := by
  unfold cluster
  rw [ofShort?_value]
  dsimp only
  split
  · rename_i hnil
    exact absurd (String.toList_eq_nil_iff.1 hnil) hne
  · rename_i rest hrest
    rw [hrest] at hequals
    exact absurd rfl hequals
  · rw [String.ofList_toList]

/-! ## The occurrence in front -/

/-- If further arguments are read by settling first, so are they behind an occurrence. -/
theorem readAll_spell {o : Occurrence} (hform : o.WellFormed) {arguments : List String}
    {next : Reader → Except ArgumentError Reader}
    (hnext : ∀ r : Reader, r.readAll arguments = r.settle.bind next) (reader : Reader) :
    reader.readAll (o.spell ++ arguments) =
      reader.settle.bind fun r => (r.receive o).bind next := by
  -- What is taken in at once leaves nothing open; what comes next settles without effect.
  have hdone : (reader.settle.bind fun r => (r.receive o).bind fun r => r.readAll arguments) =
      reader.settle.bind fun r => (r.receive o).bind next := by
    cases hsettle : reader.settle with
    | error error => rfl
    | ok r =>
      cases hreceive : r.receive o with
      | error error => simp only [Except.bind, hreceive]
      | ok r' =>
        have hopened := (opened_of_receive hreceive).trans (opened_of_settle hsettle)
        simp only [Except.bind, hreceive, hnext, settle_of_opened hopened]
  cases o with
  | value option spelling text =>
    obtain ⟨haccepts, hadmits⟩ := hform
    have hne : text ≠ "" := by
      cases option with
      | path p => exact haccepts
      | preview => exact haccepts.1
    have hgive : ((reader.give option text).bind fun r => r.readAll arguments) =
        reader.settle.bind fun r => (r.receive (.value option spelling text)).bind next := by
      rw [← hdone, give]
      cases reader.settle <;> rfl
    have hawait (hplain : Shape.ofArgument text = .plain) :
        ((reader.await option).bind fun r => r.readAll (text :: arguments)) =
          reader.settle.bind fun r => (r.receive (.value option spelling text)).bind next := by
      rw [await]
      cases hsettle : reader.settle with
      | error error => rfl
      | ok r =>
        have hvalue := settle_opened option text (opened_of_settle hsettle)
        simp only [Except.map, Except.bind, readAll, hplain, plain, hnext, hvalue]
        rfl
    cases spelling with
    | longApart =>
      simp only [Occurrence.spell, List.cons_append, List.nil_append, readAll,
        Shape.ofArgument_longName, long_await]
      exact hawait (Shape.ofArgument_plain hadmits)
    | longJoined =>
      simp only [Occurrence.spell, List.cons_append, List.nil_append, readAll,
        Shape.ofArgument_longJoined, long_give]
      exact hgive
    | shortApart =>
      simp only [Occurrence.spell, List.cons_append, List.nil_append, readAll,
        Shape.ofArgument_shortName, cluster_await]
      exact hawait (Shape.ofArgument_plain hadmits)
    | shortJoined =>
      simp only [Occurrence.spell, List.cons_append, List.nil_append, readAll,
        Shape.ofArgument_shortJoined, cluster_give _ option hne hadmits]
      exact hgive
  | verbose =>
    rw [← hdone]
    simp only [Occurrence.spell, List.cons_append, List.nil_append, readAll,
      Shape.ofArgument_verbose, long_verbose, raise_verbose]
    cases reader.settle <;> rfl
  | cluster more =>
    rw [← hdone]
    simp only [Occurrence.spell, List.cons_append, List.nil_append, readAll,
      Shape.ofArgument_cluster, cluster_verbose]
    cases reader.settle <;> rfl

/-! ## All occurrences -/

/-- Takes in occurrences one after the other. -/
def receiveAll (reader : Reader) : List Occurrence → Except ArgumentError Reader
  | [] => .ok reader
  | o :: rest => (reader.receive o).bind fun r => r.receiveAll rest

theorem readAll_occurrences {occurrences : List Occurrence}
    (hform : ∀ o ∈ occurrences, o.WellFormed) (reader : Reader) :
    reader.readAll (occurrences.flatMap Occurrence.spell) =
      reader.settle.bind fun r => r.receiveAll occurrences := by
  induction occurrences generalizing reader with
  | nil =>
    simp only [List.flatMap_nil, readAll, receiveAll]
    cases reader.settle <;> rfl
  | cons o rest ih =>
    obtain ⟨ho, hrest⟩ := List.forall_mem_cons.1 hform
    rw [List.flatMap_cons]
    exact readAll_spell ho (ih hrest) reader

end Reader

end GlyphStrip.CommandLine
