import SceneAudit.CommandLine.Run

/-!
# The program

The program takes a picture of the files that a run may read, lets the run come to its outcome on
this picture, and does what the outcome says. What the system refuses is part of the picture. A link
is not: the search for scenes does not follow it. Only a link to a file that is no scene is taken
for the file, which may be a script.

The run itself needs no threads but its own, so any number of them is taken to be started.

## Main definitions

* `SceneAudit.Snapshot.ofPlaces`: the disk as far as it can be found at some paths.
* `main`: the program.
-/

namespace SceneAudit.Snapshot

/-- The reason of the system as it is reported. -/
def reasonOf : IO.Error → String
  | .permissionDenied .. => "Permission denied (os error 13)"
  | error => toString error

/-- Notes whether paths lead on from the directory at a path, which lies at the end of a way. -/
def notePassage (path : String) (way : List String) : StateT Disk IO Unit := do
  try
    discard (System.mkFilePath [path, "."]).metadata
  catch error => modify (Disk.bar · way (reasonOf error))

/-- Whether the entry at a path is no part of the picture. -/
def leavesOut (path name : String) : IO Bool := do
  let place := System.mkFilePath [path]
  try
    match (← place.symlinkMetadata).type with
    | .symlink => return isSceneName name || (← place.isDir)
    | .other => return true
    | _ => return false
  catch _ => return false

/-- The tree of files at a path, which lies at the end of a way. What the system does not open is
noted and taken to be empty. -/
partial def readTree (path : String) (way : List String) : StateT Disk IO FileTree := do
  let place := System.mkFilePath [path]
  if ← place.isDir then
    notePassage path way
    try
      let mut entries := []
      for entry in ← place.readDir do
        let name := entry.fileName
        unless ← leavesOut entry.path.toString name do
          entries := (name, ← readTree entry.path.toString (way ++ [name])) :: entries
      return .directory entries
    catch error =>
      modify (Disk.close · way (reasonOf error))
      return .directory []
  else
    try
      return .file (← IO.FS.readBinFile place)
    catch error =>
      modify (Disk.close · way (reasonOf error))
      return .file .empty

/-- The disk with the directories on the way to a path, as far as they are there, and with what is
found at the path. -/
def addPlace (disk : Disk) (path : String) : IO Disk := do
  let mut disk := disk
  let parts := Text.segments path
  for n in List.range parts.length do
    let front := Text.joinSegments (parts.take (n + 1))
    if ← (System.mkFilePath [front]).isDir then
      let (_, noted) ← (notePassage front (disk.wayTo front)).run disk
      disk := noted.makeDirectory front
  if ← (System.mkFilePath [path]).pathExists then
    let (tree, noted) ← (readTree path (disk.wayTo path)).run disk
    disk := noted.put path tree
  return disk

/-- The disk with nothing but the working directory on it, if this has not been removed. -/
def ofWorkingDirectory : IO Disk := do
  try
    let directory := (← IO.currentDir).toString
    let names := (Text.segments directory).filter fun name => name ≠ ""
    let empty : Disk := { tree := .directory [], workingDirectory := names }
    return empty.makeDirectory "."
  catch _ =>
    return { tree := .directory [], workingDirectory := ["removed"], lost := 1 }

/-- The disk as far as it can be found at the paths where a run looks. -/
def ofPlaces (arguments : List String) : IO Disk := do
  let mut disk ← ofWorkingDirectory
  for path in CommandLine.places disk arguments do
    disk ← addPlace disk path
  return disk

end SceneAudit.Snapshot

/-- The program. -/
def main (arguments : List String) : IO UInt32 := do
  let disk ← SceneAudit.Snapshot.ofPlaces arguments
  let outcome := SceneAudit.CommandLine.run disk arguments
  IO.print outcome.output
  return outcome.exitCode.toUInt32
