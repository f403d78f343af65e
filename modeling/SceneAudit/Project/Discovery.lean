import SceneAudit.Project

/-!
# Discovery of scenes

The scenes of a project are the files with the extension `tscn` in the scenes directory and in the
directories below it, except those in a directory with an excluded name. A project without a
scenes directory has no scenes. The scenes directory may be given by an absolute path; a scene file
found there has to be below the root of the project nevertheless.

A directory that cannot be listed, because its path is too long or the system refuses it, hides the
scenes below it. It is reported in place of them, by its path from the root, or as the scenes
directory if it is not below the root.

## Main definitions

* `CheckOptions`: where scenes are looked for, and on how many threads they are checked.
* `CheckOptions.walk`: what is met in search of scenes.
* `CheckOptions.discover`: the project with the scenes that were found.
* `CheckOptions.check`: the report on this project.

## Main results

* `CheckOptions.check_of_starts`: where the threads are started, the report is on what was found.
* `CheckOptions.exists_of_check`: any report is on what was found.
-/

namespace SceneAudit

/-- Where scenes are looked for, and how they are checked. -/
structure CheckOptions where
  /-- The root of the project. -/
  root : String
  /-- The scenes directory, as seen from the root. -/
  scenesDirectory : String := "scenes"
  /-- Names of directories that are not entered. -/
  excluded : List String := []
  /-- The number of threads, if one is asked for. -/
  jobs : Option Nat := none
  deriving DecidableEq, Repr

/-- Whether a name is that of a scene file. -/
def isSceneName (name : String) : Bool :=
  DiskPath.extension? name.toList = some "tscn".toList

namespace CheckOptions

/-- The path of the scenes directory. -/
def start (options : CheckOptions) : String :=
  DiskPath.join options.root options.scenesDirectory

/-! ### The walk -/

/-- The path at which the end of a way from the scenes directory is met. -/
def walkedPath (options : CheckOptions) (way : List String) : String :=
  way.foldl DiskPath.join options.start

/-- Whether the directory at the end of a way is not excluded. The scenes directory never is. -/
def keeps (options : CheckOptions) (way : List String) : Bool :=
  way.getLast?.all (· ∉ options.excluded)

/-- Why the directory at the end of a way cannot be listed. -/
def obstacle? (options : CheckOptions) (disk : Disk) (way : List String) : Option Disk.Fault :=
  disk.openFault? (options.walkedPath way)

/-- What is met in search of scenes. Directories are entered unless they are excluded or cannot be
listed. -/
def walk (options : CheckOptions) (disk : Disk) (directory : FileTree) :
    List (List String × FileTree) :=
  directory.walk (fun way => options.keeps way && (options.obstacle? disk way).isNone) []

/-- The ways from the scenes directory to the scene files in it. -/
def sceneWays (options : CheckOptions) (disk : Disk) (directory : FileTree) :
    List (List String) :=
  ((options.walk disk directory).filter fun met =>
    !met.2.isDirectory && met.1.getLast?.any isSceneName).map Prod.fst

/-- The path from the root of the project to the file at the end of a way. -/
def sceneFile (options : CheckOptions) (way : List String) : Except ProjectFault String :=
  match DiskPath.below? options.root (options.walkedPath way) with
  | none => .error (.outsideRoot (options.walkedPath way))
  | some names => .ok (Text.joinSegments names)

/-- The place where no scenes are found because the directory at the end of a way cannot be
listed. -/
def unreadablePlace (options : CheckOptions) (way : List String) (fault : Disk.Fault) :
    UnreadablePlace where
  path :=
    match DiskPath.below? options.root (options.walkedPath way) with
    | none => options.scenesDirectory
    | some names => Text.joinSegments names
  reason := "IO error for operation on " ++ options.walkedPath way ++ ": " ++ fault.reason

/-- The places where no scenes are found because a directory cannot be listed. -/
def unreadablePlaces (options : CheckOptions) (disk : Disk) (directory : FileTree) :
    List UnreadablePlace :=
  (options.walk disk directory).filterMap fun met =>
    if met.2.isDirectory && options.keeps met.1 then
      (options.obstacle? disk met.1).map (options.unreadablePlace met.1)
    else none

/-- The project with the scenes that are found on a disk. -/
def discover (options : CheckOptions) (disk : Disk) : Except ProjectFault Project := do
  match disk.find options.root with
  | .error _ => throw (.rootMissing options.root)
  | .ok (.file _) => throw (.rootNotDirectory options.root)
  | .ok (.directory _) =>
    match disk.find options.start with
    | .ok directory@(.directory _) =>
      return .ofScenes options.root
        (← (options.sceneWays disk directory).mapM options.sceneFile)
        (options.unreadablePlaces disk directory)
    | _ => return .ofScenes options.root [] []

/-- The report on the project with the scenes that are found on a disk. -/
def check (options : CheckOptions) (disk : Disk) (pool : ThreadPool := .unbounded) :
    Except ProjectFault ProjectReport :=
  match options.discover disk with
  | .error fault => .error fault
  | .ok project => project.checkOn disk options.jobs pool

variable {options : CheckOptions} {disk : Disk} {pool : ThreadPool}

/-- Where the threads are started, the report is on what was found. -/
theorem check_of_starts (starts : pool.Starts options.jobs) :
    options.check disk pool = (options.discover disk).map (Project.check · disk) := by
  rw [check]
  cases options.discover disk with
  | error fault => rfl
  | ok project => exact Project.checkOn_of_starts starts

theorem check_of_discover {project : Project} (starts : pool.Starts options.jobs)
    (found : options.discover disk = .ok project) :
    options.check disk pool = .ok (project.check disk) := by
  rw [check_of_starts starts, found]
  rfl

/-- A check that comes to a report has found a project, which the report is on. -/
theorem exists_of_check {report : ProjectReport} (h : options.check disk pool = .ok report) :
    ∃ project, options.discover disk = .ok project ∧ project.check disk = report := by
  rw [check] at h
  cases found : options.discover disk with
  | error fault =>
    rw [found] at h
    contradiction
  | ok project =>
    rw [found] at h
    exact ⟨project, rfl, Project.check_of_checkOn h⟩

end CheckOptions

end SceneAudit
