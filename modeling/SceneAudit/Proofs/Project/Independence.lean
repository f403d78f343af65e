import SceneAudit.Proofs.Project.SceneFiles

/-!
# Independence of scenes

A check of a project goes over many files, yet what it says about one scene depends on two of them
only: the scene itself and the script attached to its root. Two checks below one root, on disks that
may differ in everything else, with scenes looked for in different places, say the same about every
scene that both of them discover.

## Main definitions

* `Disk.AgreesOn`: two disks hold the same scene with the same script.
* `CheckOptions.Discovers`: a scene is among those that are found on a disk.

## Main results

* `Project.checkScene_eq_of_agreesOn`: projects with one root come to the same report on the scene.
* `CheckOptions.exists_ofScenes_of_discover`: a discovered project has the given root, and its
  scenes in order.
* `CheckOptions.check_independent`: the report on a scene is the same in both checks, whatever the
  other files are and whatever could not be read.
-/

namespace SceneAudit

/-- Two disks hold the same at a scene of a project, and at the script attached to its root: the
same content, nothing, or something that cannot be read for the same reason. -/
structure Disk.AgreesOn (disk other : Disk) (root scene : String) : Prop where
  file : disk.read (DiskPath.join root scene) = other.read (DiskPath.join root scene)
  script : ∀ text script, disk.read (DiskPath.join root scene) = .loaded text →
    (Analysis.ofText scene text).attachedScript? = some script →
      disk.read (DiskPath.join root (ProjectPath.ofScript scene script)) =
        other.read (DiskPath.join root (ProjectPath.ofScript scene script))

namespace Project

variable {project changed : Project} {disk other : Disk} {scene : String}

/-- Projects with one root come to the same report on a scene that their disks agree on. -/
theorem checkScene_eq_of_agreesOn (root : changed.root = project.root)
    (agree : disk.AgreesOn other project.root scene) :
    changed.checkScene other scene = project.checkScene disk scene := by
  have rooted : changed.checkScene other scene = project.checkScene other scene := by
    simp only [checkScene, attachedScript, pathOf, root]
  rw [rooted]
  refine (checkScene_congr agree.file fun text loaded => ?_).symm
  have own : (Analysis.ofText scene text).scene = scene := rfl
  simp only [attachedScript, pathOf, own]
  cases attached : (Analysis.ofText scene text).attachedScript? with
  | none => rfl
  | some script => simp only [Option.map_some, agree.script text script loaded attached]

end Project

namespace CheckOptions

variable {options changed : CheckOptions} {disk other : Disk} {pool pool' : ThreadPool}
  {project : Project} {scene : String}

/-- The scene is among those that are found on a disk. -/
def Discovers (options : CheckOptions) (disk : Disk) (scene : String) : Prop :=
  ∃ project, options.discover disk = .ok project ∧ scene ∈ project.sceneFiles

/-- A discovered project has the given root, and its scenes in order. -/
theorem exists_ofScenes_of_discover (found : options.discover disk = .ok project) :
    ∃ files places, project = .ofScenes options.root files places := by
  unfold discover at found
  split at found
  · contradiction
  · contradiction
  · split at found
    · rename_i entries _
      cases listed : (options.sceneWays disk (.directory entries)).mapM options.sceneFile with
      | error fault =>
        rw [listed] at found
        contradiction
      | ok files =>
        rw [listed] at found
        exact ⟨files, _, (Except.ok.inj found).symm⟩
    · exact ⟨[], [], (Except.ok.inj found).symm⟩

/-- The report on a discovered scene is the first one about it, before those on places that could
not be read, should one of them have the same name. -/
private theorem filter_pairs_of_discover (found : options.discover disk = .ok project)
    (mem : scene ∈ project.sceneFiles) (places : List UnreadablePlace) :
    (Project.check ⟨project.root, project.sceneFiles, places⟩ disk).pairs.filter
        (fun pair => pair.scene = scene) =
      project.checkScene disk scene ::
        (places.filter fun place => place.path = scene).map fun place =>
          .unreadableScene place.path place.reason := by
  obtain ⟨files, unread, rfl⟩ := exists_ofScenes_of_discover found
  exact @Project.filter_pairs_check scene ⟨_, _, places⟩ disk
    (Project.pairwise_sceneFiles options.root files unread) mem

/-- **Scenes are checked independently.** If two checks with one root succeed, discover the same
scene, and find the same in its place and in the place of the script attached to its root, then the
report on this scene is the same in both, and is the only one about it, unless a directory that
could not be listed has its name. This is so whatever the other files are, wherever scenes are
looked for, on however many threads they are checked, and whatever places turn out not to be
readable in search of them. -/
theorem check_independent {report report' : ProjectReport} (root : changed.root = options.root)
    (checked : options.check disk pool = .ok report)
    (checked' : changed.check other pool' = .ok report')
    (discovers : options.Discovers disk scene) (discovers' : changed.Discovers other scene)
    (agree : disk.AgreesOn other options.root scene) :
    ∃ pair : PairReport,
      (∀ project, options.discover disk = .ok project →
        report.pairs.filter (fun made => made.scene = scene) =
          pair :: (project.unreadable.filter fun place => place.path = scene).map fun place =>
            .unreadableScene place.path place.reason) ∧
      (∀ project, changed.discover other = .ok project →
        report'.pairs.filter (fun made => made.scene = scene) =
          pair :: (project.unreadable.filter fun place => place.path = scene).map fun place =>
            .unreadableScene place.path place.reason) ∧
      (∀ project places, options.discover disk = .ok project →
        (Project.check ⟨project.root, project.sceneFiles, places⟩ disk).pairs.find?
          (fun made => made.scene = scene) = some pair) ∧
      ∀ project places, changed.discover other = .ok project →
        (Project.check ⟨project.root, project.sceneFiles, places⟩ other).pairs.find?
          (fun made => made.scene = scene) = some pair := by
  obtain ⟨project, found, mem⟩ := discovers
  obtain ⟨project', found', mem'⟩ := discovers'
  obtain ⟨_, again, rfl⟩ := exists_of_check checked
  obtain ⟨_, again', rfl⟩ := exists_of_check checked'
  obtain rfl := Except.ok.inj (found.symm.trans again)
  obtain rfl := Except.ok.inj (found'.symm.trans again')
  have same : project'.checkScene other scene = project.checkScene disk scene := by
    obtain ⟨files, places, rfl⟩ := exists_ofScenes_of_discover found
    obtain ⟨files', places', rfl⟩ := exists_ofScenes_of_discover found'
    exact Project.checkScene_eq_of_agreesOn root agree
  have pairs := filter_pairs_of_discover found mem
  have pairs' := filter_pairs_of_discover found' mem'
  rw [same] at pairs'
  refine ⟨project.checkScene disk scene, fun _ again => ?_, fun _ again => ?_,
    fun _ places again => ?_, fun _ places again => ?_⟩
  · obtain rfl := Except.ok.inj (found.symm.trans again)
    exact pairs project.unreadable
  · obtain rfl := Except.ok.inj (found'.symm.trans again)
    exact pairs' project'.unreadable
  · obtain rfl := Except.ok.inj (found.symm.trans again)
    rw [← List.head?_filter, pairs places, List.head?_cons]
  · obtain rfl := Except.ok.inj (found'.symm.trans again)
    rw [← List.head?_filter, pairs' places, List.head?_cons]

/-! ### A project that changes -/

/-- A scene with a script at its root. -/
def scriptedScene : String :=
  "[ext_resource path=\"res://hud.gd\" id=\"1\"]\n[node name=\"Hud\"]\n" ++
    "script = ExtResource(\"1\")\n"

/-- A project with this scene, its script, and other files. One directory cannot be listed, if it is
there. -/
def scriptedDisk (others scenes : List (String × FileTree)) : Disk where
  tree := .directory (("hud.gd", .file "var title = $Title\n".toUTF8) ::
    ("scenes", .directory (("hud.tscn", .file scriptedScene.toUTF8) :: scenes)) :: others)
  workingDirectory := []
  closed? way := if way = ["scenes", "drafts"] then some "Permission denied (os error 13)" else none

private theorem agreesOn_scriptedDisk (others others' scenes scenes' : List (String × FileTree)) :
    (scriptedDisk others scenes).AgreesOn (scriptedDisk others' scenes') "." "scenes/hud.tscn" := by
  have loaded (others scenes : List (String × FileTree)) :
      (scriptedDisk others scenes).read (DiskPath.join "." "scenes/hud.tscn") =
        .loaded scriptedScene := by
    apply Disk.read_eq_of_find
    · with_unfolding_all rfl
    · with_unfolding_all rfl
  have scripted (others scenes : List (String × FileTree)) :
      (scriptedDisk others scenes).read (DiskPath.join "." "hud.gd") =
        .loaded "var title = $Title\n" := by
    apply Disk.read_eq_of_find
    · with_unfolding_all rfl
    · with_unfolding_all rfl
  refine ⟨(loaded others scenes).trans (loaded others' scenes').symm, ?_⟩
  intro text script found attached
  rw [loaded, Source.loaded.injEq] at found
  subst found
  have written : (Analysis.ofText "scenes/hud.tscn" scriptedScene).attachedScript? =
      some "res://hud.gd" := by decide +kernel
  rw [written, Option.some.injEq] at attached
  subst attached
  have file : ProjectPath.ofScript "scenes/hud.tscn" "res://hud.gd" = "hud.gd" := by
    decide +kernel
  rw [file, scripted, scripted]

/-- The scenes of the other project besides this one: a broken one, one that is left out, and one in
the directory that cannot be listed. -/
def otherScenes : List (String × FileTree) :=
  [("a.tscn", .file ⟨#[255]⟩), ("old", .directory [("b.tscn", .file .empty)]),
    ("drafts", .directory [("c.tscn", .file .empty)])]

/-- How the directory that cannot be listed is reported. -/
def unreadDrafts : UnreadablePlace where
  path := "scenes/drafts"
  reason := "IO error for operation on ././scenes/drafts: Permission denied (os error 13)"

/-- A scene with a script. In the other project there are other scenes beside it, and one script
less. -/
theorem check_independent_scripted :
    ∃ report report' pair,
      CheckOptions.check ⟨".", "scenes", [], none⟩
        (scriptedDisk [("menu.gd", .file .empty)] []) = .ok report ∧
      CheckOptions.check ⟨".", "./scenes", ["old"], some 2⟩ (scriptedDisk [] otherScenes) =
        .ok report' ∧
      report.pairs.filter (fun made => made.scene = "scenes/hud.tscn") = [pair] ∧
      report'.pairs.filter (fun made => made.scene = "scenes/hud.tscn") = [pair] := by
  have found : CheckOptions.discover ⟨".", "scenes", [], none⟩
      (scriptedDisk [("menu.gd", .file .empty)] []) =
        .ok (.ofScenes "." ["scenes/hud.tscn"] []) := by
    with_unfolding_all rfl
  have found' : CheckOptions.discover ⟨".", "./scenes", ["old"], some 2⟩
      (scriptedDisk [] otherScenes) =
        .ok (.ofScenes "." ["scenes/hud.tscn", "scenes/a.tscn"] [unreadDrafts]) := by
    with_unfolding_all rfl
  have checked := check_of_discover (ThreadPool.starts_unbounded none) found
  have checked' := check_of_discover (ThreadPool.starts_unbounded (some 2)) found'
  have normal : ProjectPath.normalize "scenes/hud.tscn" = "scenes/hud.tscn" := by decide +kernel
  have root : (CheckOptions.mk "." "./scenes" ["old"] (some 2)).root =
      (CheckOptions.mk "." "scenes" [] none).root := rfl
  obtain ⟨pair, pairs, pairs', -, -⟩ := check_independent root checked checked'
    ⟨_, found, Project.mem_sceneFiles_iff.2 ⟨_, List.mem_cons_self, normal⟩⟩
    ⟨_, found', Project.mem_sceneFiles_iff.2 ⟨_, List.mem_cons_self, normal⟩⟩
    (agreesOn_scriptedDisk _ _ _ _)
  have readable : (Project.ofScenes "." ["scenes/hud.tscn"] []).unreadable = [] :=
    List.mergeSort_nil
  have unread : (Project.ofScenes "." ["scenes/hud.tscn", "scenes/a.tscn"]
      [unreadDrafts]).unreadable.filter (fun place => place.path = "scenes/hud.tscn") = [] := by
    decide +kernel
  refine ⟨_, _, pair, checked, checked', (pairs _ found).trans ?_, (pairs' _ found').trans ?_⟩
  · rw [readable, List.filter_nil, List.map_nil]
  · rw [unread, List.map_nil]

end CheckOptions

end SceneAudit
