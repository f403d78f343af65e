import SceneAudit.Proofs.Project.SceneFiles
import SceneAudit.Proofs.Project.SceneNames

/-!
# Every discovered scene is checked

A scene file is met on a walk below the scenes directory, and it is read at the place where its name
leads from the root of the project. The two are the same file if the name is faithful: no backslash
is read as a slash, and no double dot of the scenes directory leads above the root, where the name
has nothing to take back. Then every scene file has a pair of its own in the report, made from its
own content. With a backslash in a name, or with a scenes directory beside the root, the pair may be
about another file or about none.

Scenes below a directory that cannot be listed are not met. The report has a pair for this directory
in place of them, which a backslash in its name may give the name of a scene.

## Main definitions

* `CheckOptions.IsListed`: every directory on a way can be listed.
* `CheckOptions.Selects`: the scene files that are to be checked.
* `CheckOptions.Misses`: the directories that cannot be listed.
* `CheckOptions.reportOn`: the pair for a file with a given content.
* `CheckOptions.ChecksEach`: every selected file has its own pair.
* `CheckOptions.IsFaithful`: names lead back to the files that they are made from.

## Main results

* `CheckOptions.mem_walk_iff`: what is met in search of scenes.
* `CheckOptions.mem_sceneWays_iff`: discovery meets the selected files.
* `CheckOptions.mem_unreadablePlaces_iff`: it reports the directories that cannot be listed.
* `CheckOptions.discover_eq`: the project with the discovered scenes.
* `CheckOptions.checkScene_sceneName`: the pair for the name of a scene is about its content.
* `CheckOptions.checksEach_of_isFaithful`: with faithful names every selected file is checked.
-/

namespace SceneAudit

open Text

namespace CheckOptions

variable {options : CheckOptions} {disk : Disk} {pool : ThreadPool} {directory found : FileTree}
  {entries : List (String × FileTree)} {way other : List String} {content content' : ByteArray}
  {fault : Disk.Fault}

/-! ### Selected files -/

/-- Every directory on a way can be listed. -/
def IsListed (options : CheckOptions) (disk : Disk) (way : List String) : Prop :=
  ∀ front, front <+: way → front ≠ way → options.obstacle? disk front = none

/-- The file at the end of a way is a scene file, and no directory on the way is excluded or cannot
be listed. -/
def Selects (options : CheckOptions) (disk : Disk) (directory : FileTree) (way : List String)
    (content : ByteArray) : Prop :=
  directory.get? way = some (.file content) ∧ (∀ name ∈ way.dropLast, name ∉ options.excluded) ∧
    options.IsListed disk way ∧ way.getLast?.any isSceneName = true

/-- The directory at the end of a way cannot be listed. It is not excluded, and no directory on the
way is, nor is there another one that cannot be listed. -/
def Misses (options : CheckOptions) (disk : Disk) (directory : FileTree) (way : List String)
    (fault : Disk.Fault) : Prop :=
  (∃ entries, directory.get? way = some (.directory entries)) ∧
    (∀ name ∈ way, name ∉ options.excluded) ∧ options.IsListed disk way ∧
      options.obstacle? disk way = some fault

/-- The pair for a scene file with the given content. The system does not open a file whose path
from the root is too long, nor a file that it refuses. -/
def reportOn (options : CheckOptions) (disk : Disk) (scene : String) (content : ByteArray) :
    PairReport :=
  if Disk.pathBytes < (DiskPath.join options.root scene).utf8ByteSize then
    .unreadableScene scene Disk.Fault.nameTooLong.reason
  else
    match disk.refusalBelow? options.root (segments scene) with
    | some reason => .unreadableScene scene reason
    | none =>
      match String.fromUTF8? content with
      | none => .unreadableScene scene Disk.Fault.notText.reason
      | some text =>
        let analysis := Analysis.ofText scene text
        analysis.link (Project.attachedScript ⟨options.root, [], []⟩ disk analysis)

/-- The pair for a file that is there and is not refused does not say that the file was not
found. -/
theorem reportOn_ne_notFound {scene : String}
    (opens : disk.refusalBelow? options.root (segments scene) = none) (other : String) :
    options.reportOn disk scene content ≠ .unreadableScene other "file not found" := by
  have unread {reason : String} (differs : reason ≠ "file not found") :
      PairReport.unreadableScene scene reason ≠ .unreadableScene other "file not found" := by
    intro same
    have messages := congrArg (fun pair => pair.diagnostics.map Diagnostic.message) same
    exact differs ((String.append_right_inj _).1 (List.singleton_inj.1 messages))
  rw [reportOn, opens]
  split
  · exact unread (by decide)
  · dsimp only
    split
    · exact unread (by decide)
    · intro same
      have verdict : (Analysis.ofText scene _).verdict = .unreadable :=
        congrArg PairReport.verdict same
      rw [Analysis.verdict] at verdict
      split at verdict <;> contradiction

/-- Every selected file has a pair of its own, which is made from its content. -/
def ChecksEach (options : CheckOptions) (disk : Disk) (directory : FileTree)
    (report : ProjectReport) : Prop :=
  ∃ name : List String → String,
    (∀ way content other content', options.Selects disk directory way content →
      options.Selects disk directory other content' → name way = name other → way = other) ∧
    ∀ way content, options.Selects disk directory way content →
      report.pairs.filter (fun pair => pair.scene = name way) =
        [options.reportOn disk (name way) content]

/-- Names lead back to the files that they are made from: there are no backslashes in them, nor in
the names of directories that cannot be listed, and the scenes directory is not reached by a way
above the root. -/
structure IsFaithful (options : CheckOptions) (disk : Disk) (directory : FileTree) : Prop where
  scenes : '\\' ∉ options.scenesDirectory.toList
  names : ∀ way content, options.Selects disk directory way content →
    ∀ name ∈ way, '\\' ∉ name.toList
  unread : ∀ way fault, options.Misses disk directory way fault → ∀ name ∈ way, '\\' ∉ name.toList
  inside : DiskPath.staysInside 0 (segments options.scenesDirectory) = true ∨
    disk.follow options.root = .ok ⟨[], 0⟩

/-! ### The walk -/

/-- On the way to a file in the scenes directory there is no other directory. -/
theorem isListed_singleton_iff {name : String} :
    options.IsListed disk [name] ↔ options.obstacle? disk [] = none :=
  FileTree.forall_front_cons_iff.trans (and_iff_left FileTree.forall_front_nil)

/-- The names of the directories on a way are the last names of its fronts. -/
theorem forall_mem_dropLast_iff {p : String → Prop} :
    (∀ name ∈ way.dropLast, p name) ↔
      ∀ front, front <+: way → front ≠ way → ∀ name, front.getLast? = some name → p name := by
  constructor
  · intro all front short other name last
    refine all name ?_
    rcases List.eq_nil_or_concat way with rfl | ⟨init, final, rfl⟩
    · exact absurd (List.prefix_nil.1 short) other
    · rw [List.concat_eq_append] at short other ⊢
      rw [List.dropLast_concat]
      exact ((List.prefix_concat_iff.1 short).resolve_left other).subset
        (List.mem_of_getLast? last)
  · intro all name mem
    obtain ⟨before, after, eq⟩ := List.append_of_mem mem
    have short : before ++ [name] <+: way.dropLast := ⟨after, by rw [eq, ← List.append_cons]⟩
    refine all (before ++ [name]) (short.trans (List.dropLast_prefix way)) ?_ name
      List.getLast?_concat
    rintro rfl
    have fewer := short.length_le
    rw [List.length_dropLast, List.length_append, List.length_singleton] at fewer
    omega

theorem forall_mem_iff {p : String → Prop} :
    (∀ name ∈ way, p name) ↔
      (∀ name ∈ way.dropLast, p name) ∧ ∀ name, way.getLast? = some name → p name := by
  rcases List.eq_nil_or_concat way with rfl | ⟨init, final, rfl⟩
  · simp
  · simp [or_imp, forall_and]

theorem keeps_iff :
    options.keeps way = true ↔ ∀ name, way.getLast? = some name → name ∉ options.excluded := by
  simp [keeps, Option.all_eq_true]

/-- What is met in search of scenes: all that is found, unless a directory on the way is excluded or
cannot be listed. -/
theorem mem_walk_iff (legal : directory.IsLegal) :
    (way, found) ∈ options.walk disk directory ↔ directory.get? way = some found ∧
      (∀ name ∈ way.dropLast, name ∉ options.excluded) ∧ options.IsListed disk way := by
  rw [walk, FileTree.mem_walk_iff legal, forall_mem_dropLast_iff, IsListed, ← forall_and]
  refine and_congr_right fun _ => forall_congr' fun front => ?_
  rw [Bool.and_eq_true, keeps_iff, Option.isNone_iff_eq_none]
  exact ⟨fun entered => ⟨fun short other => (entered short other).1,
    fun short other => (entered short other).2⟩,
    fun ⟨kept, listed⟩ short other => ⟨kept short other, listed short other⟩⟩

/-- Discovery meets the selected files and no others. -/
theorem mem_sceneWays_iff (legal : directory.IsLegal) :
    way ∈ options.sceneWays disk directory ↔
      ∃ content, options.Selects disk directory way content := by
  rw [sceneWays, List.mem_map]
  constructor
  · rintro ⟨⟨_, found⟩, met, rfl⟩
    obtain ⟨mem, kind⟩ := List.mem_filter.1 met
    obtain ⟨reached, entered, listed⟩ := (mem_walk_iff legal).1 mem
    rw [Bool.and_eq_true] at kind
    cases found with
    | file content => exact ⟨content, reached, entered, listed, kind.2⟩
    | directory entries => exact absurd kind.1 (by simp [FileTree.isDirectory])
  · rintro ⟨content, reached, entered, listed, scene⟩
    refine ⟨(way, .file content), List.mem_filter.2 ⟨?_, ?_⟩, rfl⟩
    · exact (mem_walk_iff legal).2 ⟨reached, entered, listed⟩
    · rw [Bool.and_eq_true]
      exact ⟨rfl, scene⟩

/-- Discovery reports the directories that cannot be listed and no others. -/
theorem mem_unreadablePlaces_iff (legal : directory.IsLegal) {place : UnreadablePlace} :
    place ∈ options.unreadablePlaces disk directory ↔
      ∃ way fault, options.Misses disk directory way fault ∧
        options.unreadablePlace way fault = place := by
  rw [unreadablePlaces, List.mem_filterMap]
  constructor
  · rintro ⟨⟨way, found⟩, met, made⟩
    obtain ⟨reached, entered, listed⟩ := (mem_walk_iff legal).1 met
    split at made
    · rename_i kind
      rw [Bool.and_eq_true, keeps_iff] at kind
      obtain ⟨fault, obstacle, rfl⟩ := Option.map_eq_some_iff.1 made
      cases found with
      | file content => exact absurd kind.1 (by simp [FileTree.isDirectory])
      | directory entries =>
        exact ⟨way, fault,
          ⟨⟨entries, reached⟩, forall_mem_iff.2 ⟨entered, kind.2⟩, listed, obstacle⟩, rfl⟩
    · contradiction
  · rintro ⟨way, fault, ⟨⟨entries, reached⟩, kept, listed, obstacle⟩, rfl⟩
    obtain ⟨entered, last⟩ := forall_mem_iff.1 kept
    refine ⟨(way, .directory entries), (mem_walk_iff legal).2 ⟨reached, entered, listed⟩, ?_⟩
    have kind : ((FileTree.directory entries).isDirectory && options.keeps way) = true :=
      Bool.and_eq_true_iff.2 ⟨rfl, keeps_iff.2 last⟩
    simp only [kind, ↓reduceIte, obstacle, Option.map_some]

/-! ### Places -/

section Places

variable {place : Disk.Place}

theorem way_ne_nil (selected : options.Selects disk (.directory entries) way content) :
    way ≠ [] := by
  rintro rfl
  exact FileTree.noConfusion (Option.some.inj selected.1)

/-- The root is in the tree if there is a selected file below it. -/
theorem lost_eq_zero (relative : DiskPath.isAbsolute options.scenesDirectory = false)
    (rooted : disk.follow options.root = .ok place)
    (start : disk.find options.start = .ok (.directory entries))
    (faithful : options.IsFaithful disk (.directory entries))
    (selected : options.Selects disk (.directory entries) way content) : place.lost = 0 := by
  obtain ⟨scenes, reached, found⟩ := Disk.find_eq_ok_iff.1 start
  obtain ⟨-, -, walked⟩ := (Disk.follow_join_iff rooted relative).1 reached
  apply Classical.byContradiction
  intro lost
  have inside : DiskPath.staysInside 0 (segments options.scenesDirectory) = true := by
    refine faithful.inside.resolve_right fun disk => lost ?_
    rw [Except.ok.inj (rooted.symm.trans disk)]
  obtain rfl := Disk.foldlM_step_of_lost lost inside walked
  have empty : entries = [] :=
    FileTree.directory.inj (Option.some.inj (found.symm.trans (if_neg lost)))
  cases way with
  | nil => exact absurd rfl (way_ne_nil selected)
  | cons name way =>
    rw [empty] at selected
    exact absurd selected.1 (by simp [FileTree.get?, FileTree.child?, FileTree.entries])

/-- A selected file lies below the root where its name says. -/
theorem get?_sceneName {top : List String}
    (relative : DiskPath.isAbsolute options.scenesDirectory = false)
    (rooted : disk.follow options.root = .ok ⟨top, 0⟩)
    (start : disk.find options.start = .ok (.directory entries))
    (faithful : options.IsFaithful disk (.directory entries))
    (selected : options.Selects disk (.directory entries) way content) :
    disk.tree.get? (top ++ ((segments options.scenesDirectory).foldl Disk.advance [] ++ way)) =
      some (.file content) := by
  obtain ⟨scenes, reached, found⟩ := Disk.find_eq_ok_iff.1 start
  obtain ⟨-, -, walked⟩ := (Disk.follow_join_iff rooted relative).1 reached
  obtain rfl := Disk.foldlM_step_eq_ok walked
  have below : (segments options.scenesDirectory).foldl Disk.advance top =
      top ++ (segments options.scenesDirectory).foldl Disk.advance [] := by
    rcases faithful.inside with inside | disk
    · have inner := Disk.foldl_advance_append top [] inside
      rwa [List.append_nil] at inner
    · obtain rfl : top = [] := by simpa using rooted.symm.trans disk
      rw [List.nil_append]
  have reached : disk.tree.get? ((segments options.scenesDirectory).foldl Disk.advance top) =
      some (.directory entries) := found
  rw [← List.append_assoc, ← below, FileTree.get?_append, reached]
  exact selected.1

/-- The pair for the name of a selected file is made from its content. -/
theorem checkScene_sceneName (legal : disk.tree.IsLegal)
    (relative : DiskPath.isAbsolute options.scenesDirectory = false)
    (rooted : disk.follow options.root = .ok place)
    (start : disk.find options.start = .ok (.directory entries))
    (faithful : options.IsFaithful disk (.directory entries))
    (selected : options.Selects disk (.directory entries) way content) (sceneFiles : List String)
    (unreadable : List UnreadablePlace) :
    (Project.mk options.root sceneFiles unreadable).checkScene disk (options.sceneName way) =
      options.reportOn disk (options.sceneName way) content := by
  have lost := lost_eq_zero relative rooted start faithful selected
  obtain ⟨top, _⟩ := place
  obtain rfl := lost
  have reached := get?_sceneName relative rooted start faithful selected
  have proper := (legal.of_get? reached).2
  have named : segments (options.sceneName way) =
      (segments options.scenesDirectory).foldl Disk.advance [] ++ way :=
    segments_sceneName (way_ne_nil selected) fun name mem =>
      proper name (List.mem_append_right _ (List.mem_append_right _ mem))
  have source := Disk.read_join_names rooted
    (List.append_ne_nil_of_right_ne_nil _ (way_ne_nil selected))
    (fun name mem => proper name (List.mem_append_right _ mem)) reached
  rw [← sceneName, ← named] at source
  rw [Project.checkScene, reportOn, Project.pathOf, source]
  by_cases long : Disk.pathBytes <
      (DiskPath.join options.root (options.sceneName way)).utf8ByteSize
  · rw [if_pos long, if_pos long]
  · rw [if_neg long, if_neg long]
    cases disk.refusalBelow? options.root (segments (options.sceneName way)) with
    | some reason => rfl
    | none =>
      cases String.fromUTF8? content with
      | none => rfl
      | some text => rfl

end Places

/-! ### The report -/

/-- The project with the scenes in a directory. -/
def discovered (options : CheckOptions) (disk : Disk) (directory : FileTree) : Project :=
  .ofScenes options.root ((options.sceneWays disk directory).map options.scenePath)
    (options.unreadablePlaces disk directory)

/-- Discovery finds the scenes in the scenes directory. -/
theorem discover_eq {top : List (String × FileTree)} (legal : disk.tree.IsLegal)
    (relative : DiskPath.isAbsolute options.scenesDirectory = false)
    (root : disk.find options.root = .ok (.directory top))
    (start : disk.find options.start = .ok (.directory entries)) :
    options.discover disk = .ok (options.discovered disk (.directory entries)) := by
  obtain ⟨place, rooted, -⟩ := Disk.find_eq_ok_iff.1 root
  obtain ⟨-, -, nonempty, -⟩ := Disk.follow_eq_ok_iff.1 rooted
  have legalStart := Disk.isLegal_of_find legal start
  have files : (options.sceneWays disk (.directory entries)).mapM options.sceneFile =
      .ok ((options.sceneWays disk (.directory entries)).map options.scenePath) := by
    refine mapM_sceneFile nonempty relative fun way mem => ?_
    obtain ⟨content, selected⟩ := (mem_sceneWays_iff legalStart).1 mem
    exact (legalStart.of_get? selected.1).2
  rw [discover_of_directory root start, files]
  rfl

/-- The name of a selected file is that of a scene of the project. -/
private theorem sceneName_mem_sceneFiles (legal : (FileTree.directory entries).IsLegal)
    (faithful : options.IsFaithful disk (.directory entries))
    (selected : options.Selects disk (.directory entries) way content) :
    options.sceneName way ∈ (options.discovered disk (.directory entries)).sceneFiles := by
  have met : way ∈ options.sceneWays disk (.directory entries) :=
    (mem_sceneWays_iff legal).2 ⟨content, selected⟩
  refine Project.mem_sceneFiles_iff.2 ⟨_, List.mem_map_of_mem met, ?_⟩
  exact normalize_scenePath (way_ne_nil selected) (legal.of_get? selected.1).2 faithful.scenes
    (faithful.names way content selected)

/-- Different ways below a legal tree make different names. -/
theorem sceneName_injective {tree : FileTree} (legal : directory.IsLegal)
    (reached : directory.get? way = some found) (reached' : directory.get? other = some tree)
    (some : way ≠ []) (some' : other ≠ [])
    (same : options.sceneName way = options.sceneName other) : way = other := by
  have left := @segments_sceneName options way some (legal.of_get? reached).2
  have right := @segments_sceneName options other some' (legal.of_get? reached').2
  exact List.append_cancel_left (left.symm.trans ((congrArg segments same).trans right))

/-- A directory that cannot be listed does not have the name of a selected file. -/
theorem path_ne_sceneName {place : UnreadablePlace} (rooted : options.root ≠ "")
    (legal : (FileTree.directory entries).IsLegal)
    (relative : DiskPath.isAbsolute options.scenesDirectory = false)
    (faithful : options.IsFaithful disk (.directory entries))
    (selected : options.Selects disk (.directory entries) way content)
    (unread : place ∈ (options.discovered disk (.directory entries)).unreadable) :
    place.path ≠ options.sceneName way := by
  obtain ⟨source, met, rfl⟩ := Project.mem_unreadable_iff.1 unread
  obtain ⟨other, fault, missed, rfl⟩ := (mem_unreadablePlaces_iff legal).1 met
  have names := faithful.unread other fault missed
  obtain ⟨⟨inner, reached⟩, -, -, obstacle⟩ := missed
  have proper := (legal.of_get? reached).2
  intro same
  by_cases empty : other = []
  · -- If the scenes directory itself cannot be listed, no file is selected.
    subst empty
    have listed := selected.2.2.1 [] List.nil_prefix (way_ne_nil selected).symm
    exact Option.some_ne_none fault (obstacle.symm.trans listed)
  · dsimp only at same
    rw [path_unreadablePlace rooted relative proper,
      normalize_scenePath empty proper faithful.scenes names] at same
    obtain rfl := sceneName_injective legal reached selected.1 empty (way_ne_nil selected) same
    exact FileTree.noConfusion (Option.some.inj (reached.symm.trans selected.1))

/-- **Every selected file is checked.** If the names lead back to the files and the threads that are
asked for can be started, the report has a pair for each selected file, another one for every other
such file, and it is made from the content of the file itself. -/
theorem checksEach_of_isFaithful (options : CheckOptions) (disk : Disk) (pool : ThreadPool)
    (starts : pool.Starts options.jobs) (legal : disk.tree.IsLegal)
    (relative : DiskPath.isAbsolute options.scenesDirectory = false)
    {top entries : List (String × FileTree)}
    (root : disk.find options.root = .ok (.directory top))
    (start : disk.find options.start = .ok (.directory entries))
    (faithful : options.IsFaithful disk (.directory entries)) :
    ∃ report, options.check disk pool = .ok report ∧
      options.ChecksEach disk (.directory entries) report := by
  obtain ⟨place, rooted, -⟩ := Disk.find_eq_ok_iff.1 root
  obtain ⟨-, -, nonempty, -⟩ := Disk.follow_eq_ok_iff.1 rooted
  have legalStart := Disk.isLegal_of_find legal start
  rw [check_of_starts starts, discover_eq legal relative root start]
  refine ⟨_, rfl, options.sceneName, ?_, ?_⟩
  · intro way content other content' selected selected' same
    exact sceneName_injective legalStart selected.1 selected'.1 (way_ne_nil selected)
      (way_ne_nil selected') same
  · intro way content selected
    have ordered : (options.discovered disk (.directory entries)).sceneFiles.Pairwise (· < ·) :=
      Project.pairwise_sceneFiles _ _ _
    have others : (options.discovered disk (.directory entries)).unreadable.filter
        (fun place => place.path = options.sceneName way) = [] := by
      refine List.filter_eq_nil_iff.2 fun place unread => ?_
      rw [decide_eq_true_eq]
      exact path_ne_sceneName nonempty legalStart relative faithful selected unread
    change ((options.discovered disk (.directory entries)).check disk).pairs.filter
      (fun pair => pair.scene = options.sceneName way) = _
    rw [Project.filter_pairs_check ordered (sceneName_mem_sceneFiles legalStart faithful selected),
      others, List.map_nil, discovered, Project.ofScenes,
      checkScene_sceneName legal relative rooted start faithful selected]

/-! ### Two projects -/

/-- A scenes directory with a current scene, an old one, and one in a directory of its own. -/
def shelf : FileTree :=
  .directory [("hud.tscn", .file "[node name=\"Hud\"]\n".toUTF8),
    ("old", .directory [("hud.tscn", .file .empty)]),
    ("drafts", .directory [("map.tscn", .file .empty)])]

/-- A project with this scenes directory. One directory in it cannot be listed. -/
def shelfDisk : Disk where
  tree := .directory [("game", .directory [("scenes", shelf), ("levels", .directory [])])]
  workingDirectory := ["game"]
  closed? way :=
    if way = ["game", "scenes", "drafts"] then some "Permission denied (os error 13)" else none

/-- A check in which the scenes directory is given by a detour and old scenes are excluded. -/
def shelfOptions : CheckOptions where
  root := "."
  scenesDirectory := "levels/../scenes"
  excluded := ["old"]
  jobs := some 4

/-- The current scene is checked. -/
theorem checksEach_shelf :
    ∃ report, shelfOptions.check shelfDisk = .ok report ∧
      shelfOptions.ChecksEach shelfDisk shelf report := by
  have legal : shelfDisk.tree.IsLegal := by decide +kernel
  have legalStart : shelf.IsLegal := by decide +kernel
  have met : (shelfOptions.walk shelfDisk shelf).map Prod.fst =
      [[], ["hud.tscn"], ["old"], ["drafts"]] := by decide +kernel
  have plain {way : List String} {found : FileTree}
      (walked : (way, found) ∈ shelfOptions.walk shelfDisk shelf) :
      ∀ name ∈ way, '\\' ∉ name.toList := by
    have names : ∀ way ∈ [[], ["hud.tscn"], ["old"], ["drafts"]],
        ∀ name ∈ way, '\\' ∉ name.toList := by decide +kernel
    exact names way (met ▸ List.mem_map_of_mem walked)
  refine checksEach_of_isFaithful shelfOptions shelfDisk .unbounded
    (ThreadPool.starts_unbounded _) legal (by decide +kernel) (by with_unfolding_all rfl)
    (by with_unfolding_all rfl)
    { scenes := by decide +kernel
      names := fun way content selected => plain ((mem_walk_iff legalStart).2
        ⟨selected.1, selected.2.1, selected.2.2.1⟩)
      unread := fun way fault missed => ?_
      inside := .inl (by decide +kernel) }
  obtain ⟨⟨entries, reached⟩, kept, listed, -⟩ := missed
  exact plain ((mem_walk_iff legalStart).2 ⟨reached, (forall_mem_iff.1 kept).1, listed⟩)

/-- A scenes directory with one scene, in whose name there is a backslash. -/
def renamed : FileTree :=
  .directory [("a\\b.tscn", .file .empty)]

/-- A project with this scenes directory. -/
def renamedDisk : Disk where
  tree := .directory [("scenes", renamed)]
  workingDirectory := []

/-- A backslash in the name of a scene is read as a slash: the scene is discovered, but then it is
not found. -/
theorem not_checksEach_renamed :
    renamedDisk.tree.IsLegal ∧ DiskPath.isAbsolute "scenes" = false ∧
    renamedDisk.find (CheckOptions.start ⟨".", "scenes", [], none⟩) = .ok renamed ∧
    CheckOptions.check ⟨".", "scenes", [], none⟩ renamedDisk =
      .ok (.ofPairs [.unreadableScene "scenes/a/b.tscn" "file not found"]) ∧
    ¬ CheckOptions.ChecksEach ⟨".", "scenes", [], none⟩ renamedDisk renamed
      (.ofPairs [.unreadableScene "scenes/a/b.tscn" "file not found"]) := by
  refine ⟨by decide +kernel, by decide +kernel, by with_unfolding_all rfl,
    by with_unfolding_all rfl, ?_⟩
  rintro ⟨name, -, each⟩
  have listed : IsListed ⟨".", "scenes", [], none⟩ renamedDisk ["a\\b.tscn"] :=
    isListed_singleton_iff.2 (by with_unfolding_all rfl)
  have own := each ["a\\b.tscn"] .empty
    ⟨by with_unfolding_all rfl, by simp, listed, by decide +kernel⟩
  have reported := List.mem_filter.1 (own ▸ List.mem_singleton_self _)
  have pairs : (ProjectReport.ofPairs
      [.unreadableScene "scenes/a/b.tscn" "file not found"]).pairs =
        [.unreadableScene "scenes/a/b.tscn" "file not found"] := by with_unfolding_all rfl
  refine reportOn_ne_notFound ?_ _ (List.mem_singleton.1 (pairs ▸ reported.1))
  exact Disk.refusalBelow?_of_open (fun _ => rfl) (fun _ => rfl) _ _

end CheckOptions

end SceneAudit
