import GlyphStrip.Disk.Basic

/-!
# Finding places

A path is walked step by step. Every step starts in a directory, and a link on the way is replaced
by the steps of its target. Names, paths and chains of links have a greatest length.
-/

namespace GlyphStrip

open GlyphStrip.Path (Step)

/-- The most links that one walk follows. -/
abbrev linkLimit : Nat := 40

/-- The most bytes in a name. -/
abbrev nameLimit : Nat := 255

/-- The number of bytes that a path must not reach. -/
abbrev pathBound : Nat := 4096

namespace Disk

/-- The place where the walk along a path or the target of a link starts. -/
def origin (path : String) (base : Place) : Place :=
  if Path.isAbsolute path then [] else base

/-- Where a walk ends, and how many more links it might have followed. -/
structure Arrival where
  place : Place
  links : Nat
deriving DecidableEq

/-- The path of a place from the root. -/
def pathOf (place : Place) : String :=
  String.join (place.reverse.map fun name => "/" ++ name)

/-- A path that means the same as another one, whatever the working directory. -/
def absolute (disk : Disk) (path : String) : String :=
  if Path.isAbsolute path then path else pathOf disk.workplace ++ "/" ++ path

/-- Walks some steps from a place, following at most a number of links. -/
def walk (disk : Disk) (links : Nat) (place : Place) (steps : List Step) :
    Except DiskFault Arrival :=
  match steps with
  | [] => .ok ⟨place, links⟩
  | step :: rest =>
    match disk.find? place with
    | some .directory =>
      match step with
      | .stay => disk.walk links place rest
      | .up => disk.walk links place.tail rest
      | .enter name =>
        if nameLimit < name.utf8ByteSize then .error .invalidFilename
        else
          match disk.find? (name :: place) with
          | none => .error .notFound
          | some (.link target) =>
            match links with
            | 0 => .error .filesystemLoop
            | links + 1 =>
              if target.isEmpty then .error .notFound
              else disk.walk links (origin target place) (Path.allSteps target ++ rest)
          | some _ => disk.walk links (name :: place) rest
    | _ => .error .notADirectory
termination_by (links, steps.length)

/-- Refuses a path that no walk can start on. -/
def checkPath (path : String) : Except DiskFault Unit :=
  if path.toList.contains '\x00' then .error .invalidInput
  else if path.isEmpty then .error .notFound
  else if pathBound ≤ path.utf8ByteSize then .error .invalidFilename
  else .ok ()

/-- The place that a path names, all links followed. -/
def resolve (disk : Disk) (path : String) : Except DiskFault Place :=
  (checkPath path).bind fun _ =>
    (disk.walk linkLimit (origin path disk.workplace) (Path.allSteps path)).map Arrival.place

/-- The place of the directory that a path names. -/
def resolveDirectory (disk : Disk) (path : String) : Except DiskFault Place :=
  (checkPath path).bind fun _ =>
    (disk.walk linkLimit (origin path disk.workplace) (Path.steps path ++ [.stay])).map
      Arrival.place

/-- Where a path ends if its last step is not taken: at a name in a directory, or at something that
has no name there. -/
inductive Slot where
  | named (directory : Place) (name : String)
  | nameless
deriving DecidableEq

/-- The slot that the last of some steps leads to from a directory. -/
def Slot.ofSteps (steps : List Step) (directory : Place) : Slot :=
  match steps.getLast? with
  | some (.enter name) => .named directory name
  | _ => .nameless

/-- Walks all steps but the last, which must lead to a directory. -/
def approach (disk : Disk) (links : Nat) (start : Place) (steps : List Step) :
    Except DiskFault Arrival :=
  disk.walk links start (steps.dropLast ++ [.stay])

/-- The slot of a path. -/
def slot (disk : Disk) (path : String) : Except DiskFault Slot :=
  let steps := Path.steps path
  (checkPath path).bind fun _ =>
    (disk.approach linkLimit (origin path disk.workplace) steps).map fun arrival =>
      .ofSteps steps arrival.place

/-- The place that a file can be moved to over a path. A link there is not followed. -/
def replaceable (disk : Disk) (path : String) : Except DiskFault Place :=
  (disk.slot path).bind fun slot =>
    match slot with
    | .nameless => .error .resourceBusy
    | .named directory name =>
      if nameLimit < name.utf8ByteSize then .error .invalidFilename
      else if Path.endsWithSlash path then .error .notADirectory
      else if disk.find? (name :: directory) = some .directory then .error .isADirectory
      else .ok (name :: directory)

end Disk

end GlyphStrip
