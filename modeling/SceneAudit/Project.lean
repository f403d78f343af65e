import SceneAudit.Analysis
import SceneAudit.Disk
import SceneAudit.Failure
import SceneAudit.ProjectPath

/-!
# Projects

A project is a directory, its root, together with the scene files in it and with what could not
be read in search of them. The scene files are in order, each one once, and are named by their
normal paths from the root.

The scenes of a project can be checked on a given number of threads, which the system may not be
able to start. The report does not show on how many threads it was made.

## Main definitions

* `Project`, `Project.ofScenes`: a project with given scene files.
* `Project.checkScene`, `Project.check`: the report on one scene, and on all of them.
* `ThreadPool`: the threads that the system can start.
* `Project.checkOn`: the report, made on a given number of threads.
* `Project.analyze`: the analysis of one scene.

## Main results

* `UnreadablePlace.le_antisymm`: places that could not be read are ordered by all that is known.
* `Project.checkOn_of_starts`: where the threads are started, there is a report.
* `Project.checkScene_congr`: the report on a scene depends on nothing but what is read at the
  scene and at its script.
* `Project.checkScene_eq_checkTexts`: where both are read it is made from their texts.
-/

namespace SceneAudit

/-- A place in which scene files could not be looked for. -/
structure UnreadablePlace where
  path : String
  reason : String
  deriving DecidableEq, Repr

/-- The order of such places: by path, then by reason. -/
def UnreadablePlace.le (left right : UnreadablePlace) : Bool :=
  if left.path = right.path then left.reason ≤ right.reason else left.path ≤ right.path

namespace UnreadablePlace

theorem le_iff {left right : UnreadablePlace} :
    left.le right = true ↔
      left.path < right.path ∨ left.path = right.path ∧ left.reason ≤ right.reason := by
  by_cases same : left.path = right.path
  · simp [le, same]
  · have lt_iff : left.path ≤ right.path ↔ left.path < right.path :=
      ⟨fun le => String.not_le.1 fun ge => same (String.le_antisymm le ge),
        fun lt => String.not_lt.1 fun gt => String.lt_irrefl _ (String.lt_trans lt gt)⟩
    simp [le, same, lt_iff]

theorem le_trans (a b c : UnreadablePlace) (hab : a.le b = true) (hbc : b.le c = true) :
    a.le c = true := by
  rw [le_iff] at *
  rcases hab with hab | ⟨eab, rab⟩ <;> rcases hbc with hbc | ⟨ebc, rbc⟩
  · exact .inl (String.lt_trans hab hbc)
  · exact .inl (ebc ▸ hab)
  · exact .inl (eab ▸ hbc)
  · exact .inr ⟨eab.trans ebc, String.le_trans rab rbc⟩

theorem le_total (a b : UnreadablePlace) : (a.le b || b.le a) = true := by
  simp only [le, Bool.or_eq_true]
  by_cases same : a.path = b.path
  · simpa [same] using String.le_total a.reason b.reason
  · simpa [same, Ne.symm same] using String.le_total a.path b.path

theorem le_antisymm {a b : UnreadablePlace} (hab : a.le b = true) (hba : b.le a = true) :
    a = b := by
  rw [le_iff] at *
  rcases hab with hab | ⟨eab, rab⟩ <;> rcases hba with hba | ⟨eba, rba⟩
  · exact absurd (String.lt_trans hab hba) (String.lt_irrefl a.path)
  · exact absurd (eba ▸ hab) (String.lt_irrefl a.path)
  · exact absurd (eab ▸ hba) (String.lt_irrefl a.path)
  · obtain ⟨path, reason⟩ := a
    obtain ⟨path', reason'⟩ := b
    rw [mk.injEq]
    exact ⟨eab, String.le_antisymm rab rba⟩

end UnreadablePlace

/-- The threads that the system can start. -/
structure ThreadPool where
  /-- Why a number of threads cannot be started, if they cannot. -/
  refusal? : Nat → Option String

namespace ThreadPool

/-- Any number of threads can be started. -/
def unbounded : ThreadPool where
  refusal? _ := none

/-- The threads that are asked for can be started. -/
def Starts (pool : ThreadPool) (jobs : Option Nat) : Prop :=
  ∀ threads, jobs = some threads → pool.refusal? threads = none

theorem starts_unbounded (jobs : Option Nat) : unbounded.Starts jobs := fun _ _ => rfl

end ThreadPool

/-- A root, the scene files below it, and what could not be read in search of them. -/
structure Project where
  root : String
  sceneFiles : List String
  unreadable : List UnreadablePlace
  deriving DecidableEq, Repr

namespace Project

/-- The project with the given scene files, in any order and with repetitions. -/
def ofScenes (root : String) (sceneFiles : List String) (unreadable : List UnreadablePlace) :
    Project where
  root
  sceneFiles :=
    ((sceneFiles.map ProjectPath.normalize).mergeSort fun left right => left ≤ right).eraseReps
  unreadable :=
    (unreadable.map fun place =>
      { place with path := ProjectPath.normalize place.path }).mergeSort UnreadablePlace.le

/-- The place on a disk of a file of the project. -/
def pathOf (project : Project) (file : String) : String :=
  DiskPath.join project.root file

/-- The script attached to the root of a scene, and what is found in its place. -/
def attachedScript (project : Project) (disk : Disk) (analysis : Analysis) :
    Option AttachedScript :=
  analysis.attachedScript?.map fun script =>
    let file := ProjectPath.ofScript analysis.scene script
    { file, source := disk.read (project.pathOf file) }

/-- The report on a scene. -/
def checkScene (project : Project) (disk : Disk) (scene : String) : PairReport :=
  match disk.read (project.pathOf scene) with
  | .missing => .unreadableScene scene "file not found"
  | .unreadable reason => .unreadableScene scene reason
  | .loaded text =>
    let analysis := Analysis.ofText scene text
    analysis.link (project.attachedScript disk analysis)

/-- The report on all scenes of a project. What could not be read counts as a scene. -/
def check (project : Project) (disk : Disk) : ProjectReport :=
  .ofPairs (project.sceneFiles.map (project.checkScene disk) ++
    project.unreadable.map fun place => .unreadableScene place.path place.reason)

/-- The report on all scenes of a project, made on a number of threads if one is given. -/
def checkOn (project : Project) (disk : Disk) (jobs : Option Nat) (pool : ThreadPool) :
    Except ProjectFault ProjectReport :=
  match jobs.bind pool.refusal? with
  | some reason => .error (.threadPool reason)
  | none => .ok (project.check disk)

/-- The analysis of a scene. -/
def analyze (project : Project) (disk : Disk) (scene : String) : Except ProjectFault Analysis :=
  match disk.read (project.pathOf scene) with
  | .missing => .error (.sceneMissing scene)
  | .unreadable reason => .error (.sceneUnreadable scene reason)
  | .loaded text => .ok (.ofText scene text)

/-- Where the threads are started, there is a report. -/
theorem checkOn_of_starts {project : Project} {disk : Disk} {jobs : Option Nat} {pool : ThreadPool}
    (starts : pool.Starts jobs) : project.checkOn disk jobs pool = .ok (project.check disk) := by
  rw [checkOn, Option.bind_eq_none_iff.2 starts]

/-- A report is the one on all scenes, on however many threads it was made. -/
theorem check_of_checkOn {project : Project} {disk : Disk} {jobs : Option Nat} {pool : ThreadPool}
    {report : ProjectReport} (h : project.checkOn disk jobs pool = .ok report) :
    project.check disk = report := by
  rw [checkOn] at h
  split at h
  · contradiction
  · exact Except.ok.inj h

/-- The report on a scene depends on nothing but what is read at the scene and at its script. -/
theorem checkScene_congr {project : Project} {disk other : Disk} {scene : String}
    (hscene : disk.read (project.pathOf scene) = other.read (project.pathOf scene))
    (hscript : ∀ text, disk.read (project.pathOf scene) = .loaded text →
      project.attachedScript disk (.ofText scene text) =
        project.attachedScript other (.ofText scene text)) :
    project.checkScene disk scene = project.checkScene other scene := by
  simp only [checkScene]
  generalize hsource : disk.read (project.pathOf scene) = source at hscene hscript
  generalize other.read (project.pathOf scene) = found at hscene
  subst hscene
  cases source with
  | loaded text => simp only [hscript text rfl]
  | missing => rfl
  | unreadable reason => rfl

/-- Where a scene and the script attached to it are read, the report on the scene is made from their
texts. -/
theorem checkScene_eq_checkTexts {project : Project} {disk : Disk}
    {scene text written code : String} (read : disk.read (project.pathOf scene) = .loaded text)
    (attached : (Analysis.ofText scene text).attachedScript? = some written)
    (scripted : disk.read (project.pathOf (ProjectPath.ofScript scene written)) = .loaded code) :
    project.checkScene disk scene =
      checkTexts scene text (some (ProjectPath.ofScript scene written, code)) := by
  have own : (Analysis.ofText scene text).scene = scene := rfl
  rw [checkScene, read]
  simp only [attachedScript, attached, Option.map_some, own, scripted, checkTexts]

end Project

end SceneAudit
