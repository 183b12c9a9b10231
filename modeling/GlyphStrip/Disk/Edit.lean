import GlyphStrip.Disk.Access
import GlyphStrip.Path.Parent

/-!
# Editing a disk

Writing, making, removing and listing entries by path. No run does these; they set up the disk that
a run finds, and show the one that it leaves.
-/

namespace GlyphStrip.Disk

/-- The place that a file is written to over a path: links are followed, also to a name that is not
there yet. No more than `links` links are followed in all, so as many rounds and one suffice. -/
def writable (disk : Disk) : Nat → Nat → Place → String → Except DiskFault Place
  | 0, _, _, _ => .error .filesystemLoop
  | rounds + 1, links, base, path =>
    let steps := Path.steps path
    (disk.approach links (origin path base) steps).bind fun arrival =>
      match Slot.ofSteps steps arrival.place with
      | .nameless => .error .isADirectory
      | .named directory name =>
        if Path.endsWithSlash path then .error .isADirectory
        else if nameLimit < name.utf8ByteSize then .error .invalidFilename
        else
          match disk.find? (name :: directory), arrival.links with
          | some .directory, _ => .error .isADirectory
          | some (.link _), 0 => .error .filesystemLoop
          | some (.link target), links + 1 => disk.writable rounds links directory target
          | _, _ => .ok (name :: directory)

/-- Writes a file, over the old one if there is one. -/
def write (disk : Disk) (path : String) (content : List UInt8) : Except DiskFault Disk :=
  (checkPath path).bind fun _ =>
    (disk.writable (linkLimit + 1) linkLimit disk.workplace path).map fun place =>
      disk.put place (.file content)

/-- Makes a directory inside one that is there. -/
def makeDirectory (disk : Disk) (path : String) : Except DiskFault Disk :=
  (disk.slot path).bind fun slot =>
    match slot with
    | .nameless => .error .alreadyExists
    | .named directory name =>
      if nameLimit < name.utf8ByteSize then .error .invalidFilename
      else if (disk.find? (name :: directory)).isSome then .error .alreadyExists
      else .ok (disk.put (name :: directory) .directory)

/-- Whether a path names a directory, links followed. -/
def hasDirectory (disk : Disk) (path : String) : Bool :=
  match disk.resolve path with
  | .ok place => disk.find? place == some .directory
  | .error _ => false

/-- Makes sure that a path names a directory, in one that is there. -/
def ensureDirectory (disk : Disk) (path : String) : Except DiskFault Disk :=
  match disk.makeDirectory path with
  | .ok disk => .ok disk
  | .error fault => if disk.hasDirectory path then .ok disk else .error fault

/-- Makes sure that paths, each inside the one behind it, name directories. A failure keeps the
directories made before it. -/
def ensureAll (disk : Disk) : List String → Except DiskFault Unit × Disk
  | [] => (.ok (), disk)
  | path :: around =>
    match disk.ensureDirectory path with
    | .ok disk => (.ok (), disk)
    | .error .notFound =>
      match disk.ensureAll around with
      | (.error fault, disk) => (.error fault, disk)
      | (.ok _, disk) =>
        match disk.ensureDirectory path with
        | .ok disk => (.ok (), disk)
        | .error fault => (.error fault, disk)
    | .error fault => (.error fault, disk)

/-- Makes a directory and those around it. -/
def makeDirectories (disk : Disk) (path : String) : Except DiskFault Unit × Disk :=
  if path.isEmpty then (.ok (), disk) else disk.ensureAll (path :: Path.enclosing path)

/-- Makes a link. Its target need not exist. -/
def link (disk : Disk) (path target : String) : Except DiskFault Disk :=
  (checkPath target).bind fun _ =>
    (disk.slot path).bind fun slot =>
      match slot with
      | .nameless => .error .alreadyExists
      | .named directory name =>
        if nameLimit < name.utf8ByteSize then .error .invalidFilename
        else if (disk.find? (name :: directory)).isSome then .error .alreadyExists
        else if Path.endsWithSlash path then .error .notFound
        else .ok (disk.put (name :: directory) (.link target))

/-- Removes a file or a link. -/
def remove (disk : Disk) (path : String) : Except DiskFault Disk :=
  (disk.slot path).bind fun slot =>
    match slot with
    | .nameless => .error .isADirectory
    | .named directory name =>
      if nameLimit < name.utf8ByteSize then .error .invalidFilename
      else
        match disk.find? (name :: directory) with
        | none => .error .notFound
        | some .directory => .error .isADirectory
        | some _ =>
          if Path.endsWithSlash path then .error .notADirectory
          else .ok (disk.erase (name :: directory))

/-! ## Listing -/

/-- The names that lead from a directory to a place inside it, outermost first. -/
def namesFrom? (directory place : Place) : Option (List String) :=
  let depth := place.length - directory.length
  if depth ≠ 0 ∧ place.drop depth = directory then some (place.take depth).reverse else none

/-- The order of a listing: name by name, each directory in front of what it holds. -/
def precedes : List String → List String → Bool
  | [], _ => true
  | _ :: _, [] => false
  | a :: as, b :: bs => if a = b then precedes as bs else a < b

/-- What the working directory holds, in order, with the names that lead there. -/
def listing (disk : Disk) : List (List String × Entry) :=
  (disk.entries.filterMap fun (place, entry) =>
    (namesFrom? disk.workplace place).map fun names => (names, entry)).mergeSort
      fun a b => precedes a.1 b.1

end GlyphStrip.Disk
