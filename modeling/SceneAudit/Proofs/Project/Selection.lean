import SceneAudit.Proofs.Project.Checked

/-!
# Selection of scene files

A walk through the scenes directory selects the files with the extension `tscn`, unless a directory
on the way to them has an excluded name. The directories on the way are those below the scenes
directory: its own name and the names of files may be excluded to no effect. The files have to be
below the root by the components of their paths, or discovery fails; otherwise the scene files of
the project are the normal forms of what follows the root. All this is about the set of the excluded
names, and the more of them there are, the fewer scenes are found.

No file is selected below a directory that cannot be listed. Such directories are what is unreadable
in the project.

## Main definitions

* `CheckOptions.IsSceneWay`: the ways to the selected files.
* `CheckOptions.IsBelowRoot`: the path of a file has the components of the root as its first ones.
* `CheckOptions.IsSceneFile`: the names that selected files have in the project.

## Main results

* `isSceneName_iff`: the names of scene files.
* `CheckOptions.mem_sceneWays_iff_isSceneWay`: discovery meets the selected files.
* `CheckOptions.discover_congr`, `CheckOptions.exists_discover_of_subset`: the same excluded names,
  and more of them.
* `CheckOptions.discover_selects`: what discovery finds and when it fails.
* `CheckOptions.mem_unreadable_iff`, `CheckOptions.unreadableScene_mem_pairs`: what is unreadable in
  a discovered project, and that it is reported.
-/

namespace SceneAudit

/-- The name of a scene file has something in front of the extension. -/
theorem isSceneName_iff {name : String} :
    isSceneName name = true ↔ ∃ stem, stem ≠ "" ∧ name = stem ++ ".tscn" := by
  have plain : '.' ∉ "tscn".toList := by decide
  rw [isSceneName, decide_eq_true_eq, DiskPath.extension?_eq_some_iff]
  constructor
  · rintro ⟨stem, nonempty, -, eq⟩
    refine ⟨String.ofList stem, fun empty => nonempty ?_, ?_⟩
    · rw [← @String.toList_ofList stem, empty, String.toList_empty]
    · rw [← String.toList_inj, String.toList_append, String.toList_ofList, eq]
      rfl
  · rintro ⟨stem, nonempty, rfl⟩
    refine ⟨stem.toList, fun empty => nonempty (String.toList_inj.1 empty), plain, ?_⟩
    rw [String.toList_append]
    rfl

namespace CheckOptions

variable {options : CheckOptions} {disk : Disk} {directory : FileTree}
  {top entries : List (String × FileTree)} {way excluded : List String} {file : String}
  {fault : ProjectFault} {project : Project} {pool : ThreadPool} {obstacle : Disk.Fault}

/-! ### Selected files -/

/-- The way goes to a file with the extension of scenes, and through no directory that is excluded
or cannot be listed. -/
structure IsSceneWay (options : CheckOptions) (disk : Disk) (directory : FileTree)
    (way : List String) : Prop where
  isFile : ∃ content, directory.get? way = some (.file content)
  named : ∃ stem, stem ≠ "" ∧ way.getLast? = some (stem ++ ".tscn")
  entered : ∀ folder ∈ way.dropLast, folder ∉ options.excluded
  listed : options.IsListed disk way

/-- The path at which the end of a way is met begins with the components of the root. -/
def IsBelowRoot (options : CheckOptions) (way : List String) : Prop :=
  DiskPath.components options.root <+: DiskPath.components (options.walkedPath way)

/-- The file is the normal form of what follows the root in the path of a selected file. -/
def IsSceneFile (options : CheckOptions) (disk : Disk) (directory : FileTree) (file : String) :
    Prop :=
  ∃ way names, options.IsSceneWay disk directory way ∧
    DiskPath.components (options.walkedPath way) = DiskPath.components options.root ++ names ∧
      ProjectPath.normalize (Text.joinSegments names) = file

/-- Discovery meets the selected files and no others. -/
theorem mem_sceneWays_iff_isSceneWay (legal : directory.IsLegal) :
    way ∈ options.sceneWays disk directory ↔ options.IsSceneWay disk directory way := by
  have named : way.getLast?.any isSceneName = true ↔
      ∃ stem, stem ≠ "" ∧ way.getLast? = some (stem ++ ".tscn") := by
    cases way.getLast? with
    | none => simp
    | some name => simp [isSceneName_iff]
  rw [mem_sceneWays_iff legal]
  constructor
  · rintro ⟨content, found, entered, listed, scene⟩
    exact ⟨⟨content, found⟩, named.1 scene, entered, listed⟩
  · rintro ⟨⟨content, found⟩, scene, entered, listed⟩
    exact ⟨content, found, entered, listed, named.2 scene⟩

/-! ### Paths from the root -/

theorem isBelowRoot_iff :
    options.IsBelowRoot way ↔ ∃ names,
      DiskPath.components (options.walkedPath way) = DiskPath.components options.root ++ names :=
  exists_congr fun _ => eq_comm

theorem sceneFile_eq_ok_iff :
    options.sceneFile way = .ok file ↔
      ∃ names, DiskPath.components (options.walkedPath way) =
        DiskPath.components options.root ++ names ∧ Text.joinSegments names = file := by
  simp only [sceneFile, ← DiskPath.below?_eq_some_iff]
  cases DiskPath.below? options.root (options.walkedPath way) with
  | none => simp
  | some names => simp

private theorem sceneFile_eq_error_iff :
    options.sceneFile way = .error fault ↔
      ¬options.IsBelowRoot way ∧ fault = .outsideRoot (options.walkedPath way) := by
  simp only [sceneFile, isBelowRoot_iff, ← DiskPath.below?_eq_some_iff]
  cases DiskPath.below? options.root (options.walkedPath way) with
  | none => simp [eq_comm]
  | some names => simp

/-! ### Discovery -/

/-- Only the set of the excluded names counts. -/
theorem discover_congr (same : ∀ name, name ∈ excluded ↔ name ∈ options.excluded) :
    discover { options with excluded } disk = options.discover disk := by
  have kept (way : List String) : keeps { options with excluded } way = options.keeps way := by
    simp only [keeps, same]
  have walked (directory : FileTree) :
      walk { options with excluded } disk directory = options.walk disk directory := by
    simp only [walk, kept]
    rfl
  simp only [discover, sceneWays, unreadablePlaces, walked, kept]
  rfl

private theorem IsSceneWay.of_subset (more : options.excluded ⊆ excluded)
    (selected : IsSceneWay { options with excluded } disk directory way) :
    options.IsSceneWay disk directory way where
  isFile := selected.isFile
  named := selected.named
  entered folder mem out := selected.entered folder mem (more out)
  listed := selected.listed

section Found

variable (start : disk.find options.start = .ok (.directory entries))
  (root : disk.find options.root = .ok (.directory top))

include start root

/-- A discovered project is made of the paths of all files that are met. -/
theorem exists_files_of_discover (found : options.discover disk = .ok project) :
    ∃ files, (options.sceneWays disk (.directory entries)).map options.sceneFile =
        files.map .ok ∧
      .ofScenes options.root files (options.unreadablePlaces disk (.directory entries)) =
        project := by
  rw [discover_of_directory root start] at found
  cases listed : (options.sceneWays disk (.directory entries)).mapM options.sceneFile with
  | error fault =>
    rw [listed] at found
    contradiction
  | ok files =>
    rw [listed] at found
    exact ⟨files, mapM_eq_ok_iff.1 listed, Except.ok.inj found⟩

variable (legal : (FileTree.directory entries).IsLegal)

include legal

/-- The scene files of a discovered project are the normal forms of the selected files. -/
theorem mem_sceneFiles_of_discover (found : options.discover disk = .ok project) :
    file ∈ project.sceneFiles ↔ options.IsSceneFile disk (.directory entries) file := by
  obtain ⟨files, listed, rfl⟩ := exists_files_of_discover start root found
  have source (file : String) : file ∈ files ↔
      ∃ way ∈ options.sceneWays disk (.directory entries), options.sceneFile way = .ok file := by
    rw [← List.mem_map, listed]
    simp
  simp only [Project.mem_sceneFiles_iff, source, sceneFile_eq_ok_iff,
    mem_sceneWays_iff_isSceneWay legal, IsSceneFile]
  constructor
  · rintro ⟨_, ⟨way, selected, names, path, rfl⟩, rfl⟩
    exact ⟨way, names, selected, path, rfl⟩
  · rintro ⟨way, names, selected, path, rfl⟩
    exact ⟨_, ⟨way, selected, names, path, rfl⟩, rfl⟩

/-- All selected files of a discovered project are below the root. -/
theorem isBelowRoot_of_discover (found : options.discover disk = .ok project)
    (selected : options.IsSceneWay disk (.directory entries) way) : options.IsBelowRoot way := by
  obtain ⟨files, listed, -⟩ := exists_files_of_discover start root found
  have met := (mem_sceneWays_iff_isSceneWay legal).2 selected
  have mem : options.sceneFile way ∈ files.map .ok := listed ▸ List.mem_map_of_mem met
  obtain ⟨file, -, eq⟩ := List.mem_map.1 mem
  obtain ⟨names, path, -⟩ := sceneFile_eq_ok_iff.1 eq.symm
  exact isBelowRoot_iff.2 ⟨names, path⟩

/-- Discovery fails at a selected file that is not below the root. -/
theorem exists_of_discover_eq_error (failed : options.discover disk = .error fault) :
    ∃ way, options.IsSceneWay disk (.directory entries) way ∧ ¬options.IsBelowRoot way ∧
      fault = .outsideRoot (options.walkedPath way) := by
  rw [discover_of_directory root start] at failed
  cases listed : (options.sceneWays disk (.directory entries)).mapM options.sceneFile with
  | error fault' =>
    rw [listed] at failed
    obtain rfl := Except.error.inj failed
    obtain ⟨way, met, outside⟩ := exists_of_mapM_eq_error listed
    exact ⟨way, (mem_sceneWays_iff_isSceneWay legal).1 met, sceneFile_eq_error_iff.1 outside⟩
  | ok files =>
    rw [listed] at failed
    contradiction

/-- What is unreadable in a discovered project are the directories that cannot be listed. -/
theorem mem_unreadable_iff (found : options.discover disk = .ok project)
    {place : UnreadablePlace} :
    place ∈ project.unreadable ↔
      ∃ way fault, options.Misses disk (.directory entries) way fault ∧
        ⟨ProjectPath.normalize (options.unreadablePlace way fault).path,
          (options.unreadablePlace way fault).reason⟩ = place := by
  obtain ⟨files, -, rfl⟩ := exists_files_of_discover start root found
  simp only [Project.mem_unreadable_iff, mem_unreadablePlaces_iff legal]
  constructor
  · rintro ⟨_, ⟨way, fault, missed, rfl⟩, rfl⟩
    exact ⟨way, fault, missed, rfl⟩
  · rintro ⟨way, fault, missed, rfl⟩
    exact ⟨_, ⟨way, fault, missed, rfl⟩, rfl⟩

/-- For each of them there is a pair in the report. -/
theorem unreadableScene_mem_pairs {report : ProjectReport}
    (checked : options.check disk pool = .ok report)
    (missed : options.Misses disk (.directory entries) way obstacle) :
    .unreadableScene (ProjectPath.normalize (options.unreadablePlace way obstacle).path)
      (options.unreadablePlace way obstacle).reason ∈ report.pairs := by
  obtain ⟨project, found, rfl⟩ := exists_of_check checked
  have unread := (mem_unreadable_iff start root legal found).2 ⟨way, obstacle, missed, rfl⟩
  have reported : _ ∈ (project.check disk).pairs := Project.unreadableScene_mem_pairs_check unread
  exact reported

/-- With more excluded names discovery succeeds too, and finds nothing else. -/
theorem exists_discover_of_subset (more : options.excluded ⊆ excluded)
    (found : options.discover disk = .ok project) :
    ∃ fewer, discover { options with excluded } disk = .ok fewer ∧
      fewer.sceneFiles ⊆ project.sceneFiles := by
  have place : disk.find (CheckOptions.start { options with excluded }) =
      .ok (.directory entries) := start
  cases again : discover { options with excluded } disk with
  | error fault =>
    obtain ⟨way, selected, outside, -⟩ := exists_of_discover_eq_error place root legal again
    exact absurd (isBelowRoot_of_discover start root legal found (selected.of_subset more)) outside
  | ok fewer =>
    refine ⟨fewer, rfl, fun file mem => ?_⟩
    obtain ⟨way, names, selected, path, normal⟩ :=
      (mem_sceneFiles_of_discover place root legal again).1 mem
    exact (mem_sceneFiles_of_discover start root legal found).2
      ⟨way, names, selected.of_subset more, path, normal⟩

end Found

/-- **Selection of scene files.** If discovery succeeds, the scene files increase strictly, so that
none is there twice, and they are the normal forms of what follows the root in the paths of the
selected files. It fails if and only if the path of a selected file does not begin with the
components of the root, and the failure names the path of such a file. The order of the excluded
names and their repetitions are of no consequence, and with more of them no other scene is found. -/
theorem discover_selects (options : CheckOptions) (disk : Disk)
    {top entries : List (String × FileTree)} (legal : disk.tree.IsLegal)
    (root : disk.find options.root = .ok (.directory top))
    (start : disk.find options.start = .ok (.directory entries)) :
    (∀ project, options.discover disk = .ok project →
      project.sceneFiles.Pairwise (· < ·) ∧ project.sceneFiles.Nodup ∧
        ∀ file, file ∈ project.sceneFiles ↔ options.IsSceneFile disk (.directory entries) file) ∧
    ((∃ fault, options.discover disk = .error fault ∧ fault.failure.code = "SOURCE_SCAN") ↔
      ∃ way, options.IsSceneWay disk (.directory entries) way ∧ ¬options.IsBelowRoot way) ∧
    (∀ fault, options.discover disk = .error fault →
      ∃ way, options.IsSceneWay disk (.directory entries) way ∧ ¬options.IsBelowRoot way ∧
        fault = .outsideRoot (options.walkedPath way)) ∧
    (∀ excluded, (∀ name, name ∈ excluded ↔ name ∈ options.excluded) →
      discover { options with excluded } disk = options.discover disk) ∧
    ∀ excluded, options.excluded ⊆ excluded →
      ∀ project, options.discover disk = .ok project →
        ∃ fewer, discover { options with excluded } disk = .ok fewer ∧
          fewer.sceneFiles ⊆ project.sceneFiles := by
  have legalStart := Disk.isLegal_of_find legal start
  refine ⟨fun project found => ?_, ⟨?_, ?_⟩,
    fun fault => exists_of_discover_eq_error start root legalStart,
    fun excluded => discover_congr,
    fun excluded more project => exists_discover_of_subset start root legalStart more⟩
  · have ordered : project.sceneFiles.Pairwise (· < ·) := by
      obtain ⟨files, -, rfl⟩ := exists_files_of_discover start root found
      exact Project.pairwise_sceneFiles _ _ _
    exact ⟨ordered, nodup_of_pairwise_lt ordered, fun file =>
      mem_sceneFiles_of_discover start root legalStart found⟩
  · rintro ⟨fault, failed, -⟩
    obtain ⟨way, selected, outside, -⟩ := exists_of_discover_eq_error start root legalStart failed
    exact ⟨way, selected, outside⟩
  · rintro ⟨way, selected, outside⟩
    cases found : options.discover disk with
    | error fault =>
      obtain ⟨way', -, -, rfl⟩ := exists_of_discover_eq_error start root legalStart found
      exact ⟨_, rfl, rfl⟩
    | ok project =>
      exact absurd (isBelowRoot_of_discover start root legalStart found selected) outside

/-- Scenes in a directory of an excluded name, with a directory of this name in it. -/
def archive : FileTree :=
  .directory [("hud.tscn", .file .empty), (".tscn", .file .empty),
    ("old", .directory [("map.tscn", .file .empty)])]

/-- A project with these scenes, and a library beside it. -/
def besideLibrary : Disk where
  tree := .directory [("game", .directory [("old", archive)]),
    ("lib", .directory [("button.tscn", .file .empty)])]
  workingDirectory := []

/-- The scenes directory is searched although its name is excluded, while the directory in it is
not entered. The scenes of the library cannot be found from the project. -/
theorem discover_selects_besideLibrary :
    (∀ file, file ∈ ["old/hud.tscn"] ↔
        IsSceneFile ⟨"game", "old", ["old"], none⟩ besideLibrary archive file) ∧
      ∃ fault, discover ⟨"game", "/lib", [], none⟩ besideLibrary = .error fault ∧
        fault.failure.code = "SOURCE_SCAN" := by
  have legal : besideLibrary.tree.IsLegal := by decide +kernel
  constructor
  · have found : discover ⟨"game", "old", ["old"], none⟩ besideLibrary =
        .ok ⟨"game", ["old/hud.tscn"], []⟩ := by with_unfolding_all rfl
    obtain ⟨selects, -⟩ := discover_selects ⟨"game", "old", ["old"], none⟩ besideLibrary legal
      (by with_unfolding_all rfl) (by with_unfolding_all rfl)
    exact (selects _ found).2.2
  · obtain ⟨-, fails, -⟩ := discover_selects ⟨"game", "/lib", [], none⟩ besideLibrary legal
      (by with_unfolding_all rfl) (by with_unfolding_all rfl)
    refine fails.2 ⟨["button.tscn"], ⟨⟨.empty, rfl⟩, ⟨"button", by decide, rfl⟩, by simp,
      isListed_singleton_iff.2 (by with_unfolding_all rfl)⟩, ?_⟩
    rw [IsBelowRoot]
    decide +kernel

end CheckOptions

end SceneAudit
