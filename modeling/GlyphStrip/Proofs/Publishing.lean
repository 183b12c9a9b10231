import GlyphStrip.Proofs.Disk.Slot
import GlyphStrip.Publish
import Mathlib.Data.List.Nodup
import Mathlib.Data.List.Perm.Subperm
import Std.Data.String.ToNat

/-!
# Publishing replaces one entry or nothing

A scratch file is new (`find?_freshName`), so taking it away again gives the very disk that was
there before (`performAll_abandoned`). `Exit` lists the ways out of a publication, one for each step
that may fail. So it ends in one of two ways: it fails and the disk is as it was, or the entry that
the path names is replaced by the whole content (`publishOn_cases`). Which way it goes does not
depend on the scratch file, because no path leads through it (`replaceable_put_fresh`).
-/

namespace GlyphStrip

namespace Disk

/-! ## Scratch names -/

theorem scratchName_injective {m n : Nat} (h : scratchName m = scratchName n) : m = n := by
  have hrepr : Nat.repr (100000 + m) = Nat.repr (100000 + n) := (String.append_right_inj ".tmp").1 h
  have hsum := Nat.repr_injective hrepr
  omega

theorem mem_places_of_isSome {disk : Disk} {name : String} {directory : Place}
    (h : (disk.find? (name :: directory)).isSome) :
    name :: directory ∈ disk.entries.map Prod.fst := by
  rw [find?, if_neg (List.cons_ne_nil _ _)] at h
  obtain ⟨entry, hentry⟩ := Option.isSome_iff_exists.1 h
  obtain ⟨before, behind, hsplit, _⟩ := List.lookup_eq_some_iff.1 hentry
  rw [hsplit]
  simp

/-- There are more names to choose from than entries and the name to avoid, so one of them is
free. -/
theorem exists_free_name (disk : Disk) (directory : Place) (avoided : Option String) :
    ∃ name ∈ (List.range (disk.entries.length + 2)).map scratchName,
      disk.find? (name :: directory) = none ∧ avoided ≠ some name := by
  by_contra hnone
  have htaken : ∀ name ∈ (List.range (disk.entries.length + 2)).map scratchName,
      (disk.find? (name :: directory)).isSome ∨ avoided = some name := by
    intro name hname
    by_contra hfree
    rw [not_or, Bool.not_eq_true, Option.isSome_eq_false_iff, Option.isNone_iff_eq_none] at hfree
    exact hnone ⟨name, hname, hfree⟩
  let used : List Place :=
    disk.entries.map Prod.fst ++ avoided.toList.map fun name => name :: directory
  let places : List Place :=
    ((List.range (disk.entries.length + 2)).map scratchName).map fun name => name :: directory
  have hnodup : places.Nodup := by
    refine (List.nodup_range.map ?_).map ?_
    · exact fun m n h => scratchName_injective h
    · exact fun a b h => (List.cons.inj h).1
  have hsubset : places ⊆ used := by
    intro place hplace
    obtain ⟨name, hname, rfl⟩ := List.mem_map.1 hplace
    rcases htaken name hname with hsome | rfl
    · exact List.mem_append_left _ (mem_places_of_isSome hsome)
    · exact List.mem_append_right _ (by simp)
  have hle := hnodup.length_le_of_subset hsubset
  have hshort : avoided.toList.length ≤ 1 := by cases avoided <;> simp
  simp only [places, used, List.length_map, List.length_range, List.length_append] at hle
  omega

theorem freshName_free (disk : Disk) (directory : Place) (avoided : Option String) :
    disk.find? (disk.freshName directory avoided :: directory) = none ∧
      avoided ≠ some (disk.freshName directory avoided) := by
  obtain ⟨free, hfree, hnone, havoided⟩ := disk.exists_free_name directory avoided
  have hfound : (((List.range (disk.entries.length + 2)).map scratchName).find? fun name =>
      (disk.find? (name :: directory)).isNone && avoided != some name).isSome := by
    rw [List.find?_isSome]
    exact ⟨free, hfree, by simp [hnone, havoided]⟩
  obtain ⟨name, hname⟩ := Option.isSome_iff_exists.1 hfound
  have hfits := List.find?_some hname
  rw [Bool.and_eq_true, Option.isNone_iff_eq_none, bne_iff_ne] at hfits
  rw [freshName, hname, Option.getD_some]
  exact hfits

theorem find?_freshName (disk : Disk) (directory : Place) (avoided : Option String) :
    disk.find? (disk.freshName directory avoided :: directory) = none :=
  (disk.freshName_free directory avoided).1

/-! ## Files that come and go -/

theorem erase_of_find?_eq_none {disk : Disk} {place : Place} (h : disk.find? place = none) :
    disk.erase place = disk := by
  have hlookup : disk.entries.lookup place = none := by
    rwa [find?, if_neg (ne_nil_of_find?_eq_none h)] at h
  have hkeep : disk.entries.filter (fun item => item.1 ≠ place) = disk.entries := by
    rw [List.filter_eq_self]
    intro item hitem
    have hne := List.lookup_eq_none_iff.1 hlookup item hitem
    exact decide_eq_true (Ne.symm (bne_iff_ne.1 hne))
  rw [erase, hkeep]

theorem erase_put {disk : Disk} {place : Place} (h : disk.find? place = none) (entry : Entry) :
    (disk.put place entry).erase place = disk := by
  have herase := erase_of_find?_eq_none h
  have hput : (disk.put place entry).erase place = (disk.erase place).erase place := by
    simp [put, erase]
  rw [hput, herase, herase]

theorem put_put (disk : Disk) (place : Place) (entry other : Entry) :
    (disk.put place entry).put place other = disk.put place other := by
  simp [put, erase]

/-! ## Operations -/

variable {disk : Disk} {scratch : Place}

@[simp] theorem performAll_nil (disk : Disk) : disk.performAll [] = disk :=
  rfl

theorem performAll_append (disk : Disk) (first second : List FileOperation) :
    disk.performAll (first ++ second) = (disk.performAll first).performAll second :=
  List.foldl_append

/-- Appended pieces add up in the scratch file, and nothing else changes. -/
theorem performAll_appends (hscratch : scratch ≠ []) (content : List UInt8)
    (pieces : List (List UInt8)) :
    (disk.put scratch (.file content)).performAll (pieces.map (FileOperation.append scratch)) =
      disk.put scratch (.file (content ++ pieces.flatten)) := by
  induction pieces generalizing content with
  | nil => simp [performAll]
  | cons piece pieces ih =>
    have hstep : (disk.put scratch (.file content)).perform (.append scratch piece) =
        disk.put scratch (.file (content ++ piece)) := by
      rw [perform, (disk.replaces_put hscratch _).replaced]
      exact disk.put_put scratch _ _
    rw [List.map_cons, performAll, List.foldl_cons, hstep, List.flatten_cons, ← List.append_assoc]
    exact ih (content ++ piece)

theorem performAll_writing (hscratch : disk.find? scratch = none) (pieces : List (List UInt8)) :
    disk.performAll (writing scratch pieces) = disk.put scratch (.file pieces.flatten) := by
  rw [writing, performAll_append]
  show ((disk.put scratch (.file [])).performAll _).performAll [.sync scratch] = _
  rw [performAll_appends (ne_nil_of_find?_eq_none hscratch)]
  rfl

theorem performAll_writing_move (hscratch : disk.find? scratch = none)
    (pieces : List (List UInt8)) (target : Place) :
    disk.performAll (writing scratch pieces ++ [.move scratch target]) =
      disk.put target (.file pieces.flatten) := by
  have hroot := ne_nil_of_find?_eq_none hscratch
  rw [performAll_append, performAll_writing hscratch]
  show (disk.put scratch _).perform (.move scratch target) = _
  rw [perform, (disk.replaces_put hroot _).replaced]
  dsimp only
  rw [erase_put hscratch]

theorem take_prefix_writing (scratch : Place) (pieces : List (List UInt8)) (n : Nat) :
    .create scratch :: (pieces.take n).map (FileOperation.append scratch) <+:
      writing scratch pieces := by
  refine List.IsPrefix.trans ?_ (List.prefix_append _ _)
  exact List.cons_prefix_cons.2 ⟨rfl, (List.take_prefix n pieces).map _⟩

/-- Short of the move nothing has come but the scratch file. -/
theorem performAll_prefix_writing (hscratch : disk.find? scratch = none)
    {pieces : List (List UInt8)} {done : List FileOperation}
    (hdone : done <+: writing scratch pieces) :
    disk.performAll done = disk ∨
      ∃ written, disk.performAll done = disk.put scratch (.file written) := by
  have hroot := ne_nil_of_find?_eq_none hscratch
  rcases List.prefix_concat_iff.1 hdone with rfl | hdone
  · exact Or.inr ⟨_, performAll_writing hscratch pieces⟩
  rcases List.prefix_cons_iff.1 hdone with rfl | ⟨appends, rfl, happends⟩
  · exact Or.inl rfl
  obtain ⟨written, _, rfl⟩ := List.prefix_map_iff.1 happends
  exact Or.inr ⟨_, performAll_appends hroot [] written⟩

/-- Behind the removal nothing is left of the scratch file, however much of it there was. -/
theorem performAll_abandoned (hscratch : disk.find? scratch = none) {pieces : List (List UInt8)}
    {done : List FileOperation} (hdone : done <+: writing scratch pieces) :
    disk.performAll (done ++ [.remove scratch]) = disk := by
  rw [performAll_append]
  rcases performAll_prefix_writing hscratch hdone with hsame | ⟨written, hwritten⟩
  · rw [hsame]
    exact erase_of_find?_eq_none hscratch
  · rw [hwritten]
    exact erase_put hscratch _

/-! ## Publications -/

/-- In a working directory that is there a scratch file can be created. -/
theorem scratchDirectory_here {disk : Disk} (hhere : disk.find? disk.workplace = some .directory)
    (hcheck : checkPath (disk.scratchPath "." (scratchName 0)) = .ok ()) :
    disk.scratchDirectory "." = .ok disk.workplace := by
  have hdot : checkPath "." = .ok () := toOption_eq_some_iff.1 (by decide +kernel)
  have hsteps : Path.steps "." = [.stay] := by decide +kernel
  have horigin : origin "." disk.workplace = disk.workplace := if_neg (by decide +kernel)
  refine bind_eq_ok_iff.2 ⟨(), hcheck, resolveDirectory_eq_ok_iff.2 ⟨hdot, linkLimit, ?_⟩⟩
  rw [hsteps, horigin]
  exact .stay hhere (.stay hhere (.done _ _))

/-! ## Ways out -/

@[simp] theorem unless_none (operation : FileOperation) (error : DiskFault → PublishError) :
    operation.unless none error = .ok operation :=
  rfl

/-- The pieces are appended up to the first that fails to be written. -/
theorem ofSteps_appends (scratch : Place) (shown : String) (fault? : Nat → Option DiskFault)
    (pieces : List (List UInt8)) (rest : List PublishStep) :
    (∃ n fault, n < pieces.length ∧ fault? n = some fault ∧
      Publication.ofSteps scratch ((pieces.mapIdx fun n piece =>
          (FileOperation.append scratch piece).unless (fault? n) (.writing shown)) ++ rest) =
        ⟨(pieces.take n).map (FileOperation.append scratch) ++ [.remove scratch],
          .error (.writing shown fault)⟩) ∨
    (∀ n < pieces.length, fault? n = none) ∧
      Publication.ofSteps scratch ((pieces.mapIdx fun n piece =>
          (FileOperation.append scratch piece).unless (fault? n) (.writing shown)) ++ rest) =
        ⟨pieces.map (FileOperation.append scratch) ++ (Publication.ofSteps scratch rest).operations,
          (Publication.ofSteps scratch rest).result⟩ := by
  induction pieces generalizing fault? with
  | nil => exact Or.inr ⟨fun n hn => absurd hn (Nat.not_lt_zero n), rfl⟩
  | cons piece pieces ih =>
    rw [List.mapIdx_cons, List.cons_append]
    cases hfirst : fault? 0 with
    | some fault => exact Or.inl ⟨0, fault, Nat.succ_pos _, hfirst, rfl⟩
    | none =>
      rw [unless_none, Publication.ofSteps]
      rcases ih fun n => fault? (n + 1) with ⟨n, fault, hn, hfault, hsteps⟩ | ⟨hwritten, hsteps⟩
      · exact Or.inl ⟨n + 1, fault, Nat.succ_lt_succ hn, hfault, by rw [hsteps]; rfl⟩
      · refine Or.inr ⟨?_, by rw [hsteps]; rfl⟩
        rintro (_ | n) hn
        · exact hfirst
        · exact hwritten n (Nat.lt_of_succ_lt_succ hn)

/-- The ways out of a publication: its operations and its result, and what it takes to end so. -/
inductive Exit (disk : Disk) (device : Device) (path : String) (pieces : List (List UInt8)) :
    Publication → Prop
  | uncreated {fault : DiskFault}
      (hplace : disk.scratchDirectory (Path.directory path) = .error fault) :
      Exit disk device path pieces ⟨[], .error (.creating (Path.directory path) fault)⟩
  | unwritten {place : Place} {name : String} {n : Nat} {fault : DiskFault}
      (hplace : disk.scratchDirectory (Path.directory path) = .ok place)
      (hname : name = disk.freshName place (Path.fileName? path))
      (hn : n < pieces.length) (hfault : device.writeFault? n = some fault) :
      Exit disk device path pieces
        ⟨.create (name :: place) :: (pieces.take n).map (FileOperation.append (name :: place)) ++
          [.remove (name :: place)],
          .error (.writing (disk.scratchPath (Path.directory path) name) fault)⟩
  | unsynced {place : Place} {name : String} {fault : DiskFault}
      (hplace : disk.scratchDirectory (Path.directory path) = .ok place)
      (hname : name = disk.freshName place (Path.fileName? path))
      (hwritten : ∀ n < pieces.length, device.writeFault? n = none)
      (hfault : device.syncFault? = some fault) :
      Exit disk device path pieces
        ⟨.create (name :: place) :: pieces.map (FileOperation.append (name :: place)) ++
          [.remove (name :: place)],
          .error (.syncing (disk.scratchPath (Path.directory path) name) fault)⟩
  | unmoved {place : Place} {name : String} {fault : DiskFault}
      (hplace : disk.scratchDirectory (Path.directory path) = .ok place)
      (hname : name = disk.freshName place (Path.fileName? path))
      (hwritten : ∀ n < pieces.length, device.writeFault? n = none)
      (hsynced : device.syncFault? = none)
      (htarget : (disk.put (name :: place) (.file pieces.flatten)).replaceable path =
        .error fault) :
      Exit disk device path pieces
        ⟨writing (name :: place) pieces ++ [.remove (name :: place)],
          .error (.persisting path fault)⟩
  | moved {place target : Place} {name : String}
      (hplace : disk.scratchDirectory (Path.directory path) = .ok place)
      (hname : name = disk.freshName place (Path.fileName? path))
      (hwritten : ∀ n < pieces.length, device.writeFault? n = none)
      (hsynced : device.syncFault? = none)
      (htarget : disk.replaceable path = .ok target) :
      Exit disk device path pieces
        ⟨writing (name :: place) pieces ++ [.move (name :: place) target], .ok ()⟩

/-- The scratch file is filled unless a piece or the syncing fails, and then moved if it can be. -/
theorem exit_publicationOn (disk : Disk) (device : Device) (path : String)
    (pieces : List (List UInt8)) :
    disk.Exit device path pieces (disk.publicationOn device path pieces) := by
  unfold publicationOn
  dsimp only
  cases hplace : disk.scratchDirectory (Path.directory path) with
  | error fault => exact .uncreated hplace
  | ok place =>
    dsimp only
    have hfresh := disk.find?_freshName place (Path.fileName? path)
    generalize hname : disk.freshName place (Path.fileName? path) = name at hfresh
    rw [List.cons_append, Publication.ofSteps, performAll_writing hfresh]
    rcases ofSteps_appends (name :: place) (disk.scratchPath (Path.directory path) name)
      device.writeFault? pieces
      [(FileOperation.sync (name :: place)).unless device.syncFault?
          (.syncing (disk.scratchPath (Path.directory path) name)),
        (disk.put (name :: place) (.file pieces.flatten)).movingStep path (name :: place)] with
      ⟨n, fault, hn, hfault, hsteps⟩ | ⟨hwritten, hsteps⟩
    · rw [hsteps]
      exact .unwritten hplace hname.symm hn hfault
    · rw [hsteps]
      cases hsync : device.syncFault? with
      | some fault => exact .unsynced hplace hname.symm hwritten hsync
      | none =>
        cases htarget : (disk.put (name :: place) (.file pieces.flatten)).replaceable path with
        | error fault =>
          have hexit : disk.Exit device path pieces _ :=
            .unmoved hplace hname.symm hwritten hsync htarget
          simpa [Publication.ofSteps, movingStep, htarget, writing] using hexit
        | ok target =>
          have hexit : disk.Exit device path pieces _ :=
            .moved hplace hname.symm hwritten hsync ((replaceable_put_fresh hfresh _).1 htarget)
          simpa [Publication.ofSteps, movingStep, htarget, writing] using hexit

/-- How a publication can go where no write fails: the directory is not found, or a new scratch file
in it is filled and then taken away or moved over the entry that the path names. -/
theorem publication_cases (disk : Disk) (path : String) (pieces : List (List UInt8)) :
    (∃ fault, disk.scratchDirectory (Path.directory path) = .error fault ∧
      disk.publication path pieces = ⟨[], .error (.creating (Path.directory path) fault)⟩) ∨
    ∃ place scratch, disk.scratchDirectory (Path.directory path) = .ok place ∧
      scratch = disk.freshName place (Path.fileName? path) :: place ∧
      disk.find? scratch = none ∧
      ((∃ fault, (disk.put scratch (.file pieces.flatten)).replaceable path = .error fault ∧
        disk.publication path pieces =
          ⟨writing scratch pieces ++ [.remove scratch], .error (.persisting path fault)⟩) ∨
      ∃ target, disk.replaceable path = .ok target ∧
        disk.publication path pieces =
          ⟨writing scratch pieces ++ [.move scratch target], .ok ()⟩) := by
  have hexit := disk.exit_publicationOn .sound path pieces
  rw [publication]
  generalize disk.publicationOn .sound path pieces = publication at hexit
  cases hexit with
  | uncreated hplace => exact Or.inl ⟨_, hplace, rfl⟩
  | unwritten _ _ _ hfault => cases hfault
  | unsynced _ _ _ hfault => cases hfault
  | unmoved hplace hname _ _ htarget =>
    exact Or.inr ⟨_, _, hplace, by rw [hname], hname ▸ disk.find?_freshName _ _,
      Or.inl ⟨_, htarget, rfl⟩⟩
  | moved hplace hname _ _ htarget =>
    exact Or.inr ⟨_, _, hplace, by rw [hname], hname ▸ disk.find?_freshName _ _,
      Or.inr ⟨_, htarget, rfl⟩⟩

theorem publication_of_replaceable {disk : Disk} {path : String} (pieces : List (List UInt8))
    {place target : Place} (hplace : disk.scratchDirectory (Path.directory path) = .ok place)
    (htarget : disk.replaceable path = .ok target) :
    ∃ scratch, disk.find? scratch = none ∧ disk.publication path pieces =
      ⟨writing scratch pieces ++ [.move scratch target], .ok ()⟩ := by
  rcases disk.publication_cases path pieces with ⟨fault, hfault, _⟩ |
    ⟨_, scratch, _, _, hscratch, ⟨fault, hfault, _⟩ | ⟨other, hother, hplan⟩⟩
  · rw [hplace] at hfault
    cases hfault
  · rw [(replaceable_put_fresh hscratch _).2 htarget] at hfault
    cases hfault
  · obtain rfl : target = other := Except.ok.inj (htarget.symm.trans hother)
    exact ⟨scratch, hscratch, hplan⟩

section publish

variable {disk : Disk} {path : String} (font : Font)

/-- Publishing fails and leaves the disk as it was, whichever step fails, or replaces the entry that
the path names. -/
theorem publishOn_cases (device : Device) :
    (∃ error, disk.publishOn device path font = (.error error, disk)) ∨
    ∃ target, disk.replaceable path = .ok target ∧
      disk.publishOn device path font = (.ok (), disk.put target (.file font.bytes)) := by
  have hexit := disk.exit_publicationOn device path (device.cut font.bytes)
  rw [publishOn]
  generalize disk.publicationOn device path (device.cut font.bytes) = publication at hexit
  have hfresh {place : Place} {name : String}
      (hname : name = disk.freshName place (Path.fileName? path)) :
      disk.find? (name :: place) = none := hname ▸ disk.find?_freshName _ _
  cases hexit with
  | uncreated hplace => exact Or.inl ⟨_, rfl⟩
  | unwritten hplace hname =>
    exact Or.inl ⟨_, by rw [performAll_abandoned (hfresh hname) (take_prefix_writing _ _ _)]⟩
  | unsynced hplace hname =>
    exact Or.inl ⟨_, by rw [performAll_abandoned (hfresh hname) (List.prefix_append _ _)]⟩
  | unmoved hplace hname =>
    exact Or.inl ⟨_, by rw [performAll_abandoned (hfresh hname) (List.prefix_refl _)]⟩
  | moved hplace hname _ _ htarget =>
    refine Or.inr ⟨_, htarget, ?_⟩
    rw [performAll_writing_move (hfresh hname), device.flatten_cut]

/-- Where no write fails, publishing is one publication of all bytes at once. -/
theorem publish_eq (disk : Disk) (path : String) (font : Font) : disk.publish path font =
    ((disk.publication path [font.bytes]).result,
      disk.performAll (disk.publication path [font.bytes]).operations) :=
  rfl

theorem publish_of_no_directory {fault : DiskFault}
    (hfault : disk.scratchDirectory (Path.directory path) = .error fault) :
    disk.publish path font = (.error (.creating (Path.directory path) fault), disk) := by
  rcases disk.publication_cases path [font.bytes] with
    ⟨other, hother, hplan⟩ | ⟨place, _, hplace, _⟩
  · obtain rfl : fault = other := Except.error.inj (hfault.symm.trans hother)
    rw [publish_eq, hplan]
    rfl
  · rw [hfault] at hplace
    cases hplace

theorem publish_of_not_replaceable {place : Place}
    (hplace : disk.scratchDirectory (Path.directory path) = .ok place)
    (htarget : ∀ target, disk.replaceable path ≠ .ok target) :
    ∃ fault, disk.publish path font = (.error (.persisting path fault), disk) := by
  rcases disk.publication_cases path [font.bytes] with ⟨fault, hfault, _⟩ |
    ⟨_, scratch, _, _, hscratch, ⟨fault, _, hplan⟩ | ⟨target, hok, _⟩⟩
  · rw [hplace] at hfault
    cases hfault
  · refine ⟨fault, ?_⟩
    rw [publish_eq, hplan]
    dsimp only
    rw [performAll_abandoned hscratch (List.prefix_refl _)]
  · exact absurd hok (htarget target)

theorem publish_of_replaceable {place target : Place}
    (hplace : disk.scratchDirectory (Path.directory path) = .ok place)
    (htarget : disk.replaceable path = .ok target) :
    disk.publish path font = (.ok (), disk.put target (.file font.bytes)) := by
  obtain ⟨scratch, hscratch, hplan⟩ := publication_of_replaceable [font.bytes] hplace htarget
  rw [publish_eq, hplan]
  dsimp only
  rw [performAll_writing_move hscratch, List.flatten_singleton]

end publish

end Disk

end GlyphStrip
