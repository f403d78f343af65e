import SceneAudit.DiskPath
import SceneAudit.FileTree
import SceneAudit.Source

/-!
# Disks

A disk is a tree of files together with a working directory. A path is followed part by part.
Whatever follows the name of a file makes the path wrong, even a slash at its end; a double dot
leads to the directory above, and from the root of the disk to the root itself. A file is a
source if its content is UTF-8.

The system may refuse what is asked for in some places, for a reason that it gives: it opens no
closed file or directory, and lets no path lead on from a barred directory. A directory that is
closed can be passed nevertheless, and one that is barred can be listed. There are no links.

The working directory may be removed. It is then an empty directory that no path from the root
leads to any more, not even if another directory is made in its place, while the double dot still
leads from it to the directory above.

## Main definitions

* `Disk`: a tree of files and a working directory.
* `Disk.Place`: a place that a path leads to.
* `Disk.Fault`, `Disk.Fault.reason`: why nothing is read at a path.
* `Disk.find`: what is at a path.
* `Disk.openFault?`: why what is at a path cannot be opened.
* `Disk.read`: the source at a path.
* `Disk.put`, `Disk.makeDirectory`, `Disk.remove`: the disk with one place changed.
* `Disk.close`, `Disk.bar`: the disk with a place that the system refuses.

## Main results

* `Disk.read_eq_of_find`: a text that can be opened is read.
-/

namespace SceneAudit

/-- A tree of files and a working directory, and what the system refuses. -/
structure Disk where
  tree : FileTree
  /-- The names on the way to the working directory. -/
  workingDirectory : List String
  /-- How many of the directories at the end of this way have been removed. -/
  lost : Nat := 0
  /-- Why the file or directory at the end of a way cannot be opened, if it cannot. -/
  closed? : List String → Option String := fun _ => none
  /-- Why no path leads on from the directory at the end of a way, if none does. -/
  barred? : List String → Option String := fun _ => none

namespace Disk

/-- A place on a disk: the place at the end of a way from the root or, if `lost` is not zero, a
removed directory as many levels below it. -/
structure Place where
  way : List String
  lost : Nat := 0
  deriving DecidableEq, Repr

/-- Why nothing is read at a path. -/
inductive Fault where
  | notFound
  | notDirectory
  | isDirectory
  | nameTooLong
  | nulInPath
  | notText
  /-- The system refuses it. -/
  | refused (reason : String)
  deriving DecidableEq, Repr

/-- The reason as it is reported. -/
def Fault.reason : Fault → String
  | notFound => "No such file or directory (os error 2)"
  | notDirectory => "Not a directory (os error 20)"
  | isDirectory => "Is a directory (os error 21)"
  | nameTooLong => "File name too long (os error 36)"
  | nulInPath => "file name contained an unexpected NUL byte"
  | notText => "stream did not contain valid UTF-8"
  | refused reason => reason

/-- The greatest number of bytes of a name. -/
def nameBytes : Nat := 255

/-- The greatest number of bytes of a path. -/
def pathBytes : Nat := 4095

/-! ### Places -/

/-- The way to the working directory as a path. -/
def workingPath (disk : Disk) : String :=
  "/" ++ Text.joinSegments disk.workingDirectory

/-- The directory above a place. -/
def Place.above : Place → Place
  | ⟨way, 0⟩ => ⟨way.dropLast, 0⟩
  | ⟨way, lost + 1⟩ => ⟨way, lost⟩

/-- The names on the way to the last directory on the way to the working directory that has not
been removed. -/
def keptWay (disk : Disk) : List String :=
  disk.workingDirectory.take (disk.workingDirectory.length - disk.lost)

/-- The working directory. -/
def here (disk : Disk) : Place :=
  ⟨disk.keptWay, disk.lost⟩

/-- What the system refuses at a place, for the reason that it has there. In a removed directory it
refuses nothing. -/
def Place.refusal? (place : Place) (reason? : List String → Option String) : Option Fault :=
  if place.lost = 0 then (reason? place.way).map .refused else none

/-- What is at a place. A removed directory is empty. -/
def treeAt (disk : Disk) (place : Place) : Option FileTree :=
  if place.lost = 0 then disk.tree.get? place.way else some (.directory [])

/-- The place one part further. -/
def step (disk : Disk) (place : Place) (part : String) : Except Fault Place :=
  match disk.treeAt place with
  | none => .error .notFound
  | some (.file _) => .error .notDirectory
  | some (.directory entries) =>
    if part = "" then .ok place
    else
      match place.refusal? disk.barred? with
      | some fault => .error fault
      | none =>
        if part = "." then .ok place
        else if part = ".." then .ok place.above
        else if place.lost ≠ 0 then .error .notFound
        else if nameBytes < part.utf8ByteSize then .error .nameTooLong
        else if entries.any (fun entry => entry.1 == part) then .ok ⟨place.way ++ [part], 0⟩
        else .error .notFound

/-- The place that a path leads to. -/
@[irreducible]
def follow (disk : Disk) (path : String) : Except Fault Place :=
  if '\x00' ∈ path.toList then .error .nulInPath
  else if pathBytes < path.utf8ByteSize then .error .nameTooLong
  else if path = "" then .error .notFound
  else
    (Text.segments path).foldlM disk.step
      (if DiskPath.isAbsolute path then ⟨[], 0⟩ else disk.here)

/-- What is at a path. -/
def find (disk : Disk) (path : String) : Except Fault FileTree :=
  match disk.follow path with
  | .error fault => .error fault
  | .ok place =>
    match disk.treeAt place with
    | none => .error .notFound
    | some tree => .ok tree

/-- Why what is at a path cannot be opened. -/
def openFault? (disk : Disk) (path : String) : Option Fault :=
  match disk.follow path with
  | .error fault => some fault
  | .ok place => place.refusal? disk.closed?

/-! ### Sources -/

/-- The text at a path. -/
def text (disk : Disk) (path : String) : Except Fault String :=
  match disk.openFault? path with
  | some fault => .error fault
  | none =>
    match disk.find path with
    | .error fault => .error fault
    | .ok (.directory _) => .error .isDirectory
    | .ok (.file content) =>
      match String.fromUTF8? content with
      | none => .error .notText
      | some text => .ok text

/-- The source at a path. -/
def read (disk : Disk) (path : String) : Source :=
  match disk.text path with
  | .ok text => .loaded text
  | .error .notFound => .missing
  | .error fault => .unreadable fault.reason

/-- A file that holds a text is read, if it can be opened. -/
theorem text_eq_of_find {disk : Disk} {path text : String} (opens : disk.openFault? path = none)
    (found : disk.find path = .ok (.file text.toUTF8)) : disk.text path = .ok text := by
  have decoded : String.fromUTF8? text.toUTF8 = some text := by
    unfold String.fromUTF8?
    split
    · rfl
    · rename_i invalid
      exact absurd text.isValidUTF8 invalid
  simp only [Disk.text, opens, found, decoded]

theorem read_eq_of_find {disk : Disk} {path text : String} (opens : disk.openFault? path = none)
    (found : disk.find path = .ok (.file text.toUTF8)) : disk.read path = .loaded text := by
  rw [read, text_eq_of_find opens found]

/-! ### Changes -/

/-- The way one part further, whether or not anything is there. -/
def advance (way : List String) (part : String) : List String :=
  if part = "" ∨ part = "." then way
  else if part = ".." then way.dropLast
  else way ++ [part]

/-- Where the way to a place that a path names begins. -/
def startOf (disk : Disk) (path : String) : List String :=
  if DiskPath.isAbsolute path then [] else disk.workingDirectory

/-- The way to the place that a path names. The place need not be there: a double dot takes back
the part before it. -/
def wayTo (disk : Disk) (path : String) : List String :=
  (Text.segments path).foldl advance (disk.startOf path)

/-- The tree with directories wherever some parts lead, one after the other. A directory is made
even if a double dot takes it back. -/
def makeDirectories (tree : FileTree) (way : List String) : List String → FileTree
  | [] => tree
  | part :: parts =>
    makeDirectories (tree.makeDirectory (advance way part)) (advance way part) parts

/-- The disk with a directory at a path and at all places on the way to it. -/
def makeDirectory (disk : Disk) (path : String) : Disk :=
  { disk with tree := makeDirectories disk.tree (disk.startOf path) (Text.segments path) }

/-- The disk with a tree of files at a path and with directories at all places on the way to it. -/
def put (disk : Disk) (path : String) (new : FileTree) : Disk :=
  let tree := makeDirectories disk.tree (disk.startOf path) (Text.segments path).dropLast
  { disk with tree := tree.put (disk.wayTo path) new }

/-- The disk on which the file or directory at the end of a way cannot be opened. -/
def close (disk : Disk) (way : List String) (reason : String) : Disk :=
  { disk with closed? := fun other => if other = way then some reason else disk.closed? other }

/-- The disk on which no path leads on from the directory at the end of a way. -/
def bar (disk : Disk) (way : List String) (reason : String) : Disk :=
  { disk with barred? := fun other => if other = way then some reason else disk.barred? other }

/-- Whether a path ends with a single or a double dot. -/
def endsWithDots (path : String) : Bool :=
  ((Text.segments path).filter fun part => part ≠ "").getLast?.any fun part =>
    part == "." || part == ".."

/-- The disk without the file or directory at a path. If the path ends with dots, the directory is
emptied, since it cannot be removed by such a name. -/
def remove (disk : Disk) (path : String) : Disk :=
  let way := disk.wayTo path
  let kept := if endsWithDots path then way else way.dropLast
  { disk with
    tree := if endsWithDots path then disk.tree.put way (.directory []) else disk.tree.remove way
    lost :=
      if way.isPrefixOf disk.keptWay then disk.workingDirectory.length - kept.length
      else disk.lost }

end Disk

end SceneAudit
