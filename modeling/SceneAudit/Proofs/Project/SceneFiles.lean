import SceneAudit.Project.Discovery
import SceneAudit.Proofs.StableSort

/-!
# Scene files of a project

The scene files of a project are brought into normal form, put in order and freed from repetitions,
so that they increase strictly. The report on a project then has one pair for each of them, besides
those for places that were unreadable in search of them.

## Main results

* `Project.pairwise_sceneFiles`: the scene files of a project increase strictly.
* `Project.mem_sceneFiles_iff`: they are the normal forms of the given files.
* `Project.mem_unreadable_iff`: the unreadable places are the given ones, by their normal forms.
* `Project.mem_pairs_check`, `Project.unreadableScene_mem_pairs_check`: what the pairs of the report
  on a project are about, and that what is unreadable is reported.
* `Project.filter_pairs_check`: the report on a project has one pair for each scene file.
-/

namespace SceneAudit

/-! ### Repetitions -/

section Repetitions

variable {files : List String} {file : String}

private theorem loop_eraseReps (first : String) (rest kept : List String) :
    List.eraseRepsBy.loop (· == ·) first rest kept =
      kept.reverse ++ (first :: rest).eraseReps := by
  have step (first : String) (rest kept : List String) :
      List.eraseRepsBy.loop (· == ·) first rest kept =
        kept.reverse ++ List.eraseRepsBy.loop (· == ·) first rest [] := by
    induction rest generalizing first kept with
    | nil => simp [List.eraseRepsBy.loop]
    | cons next rest ih =>
      rw [List.eraseRepsBy.loop, List.eraseRepsBy.loop]
      split
      · exact ih first kept
      · rw [ih next (first :: kept), ih next [first]]
        simp
  exact step first rest kept

theorem eraseReps_cons_cons (first next : String) (rest : List String) :
    (first :: next :: rest).eraseReps =
      if first = next then (first :: rest).eraseReps
      else first :: (next :: rest).eraseReps := by
  have unfolded : (first :: next :: rest).eraseReps =
      List.eraseRepsBy.loop (· == ·) first (next :: rest) [] := rfl
  rw [unfolded, List.eraseRepsBy.loop]
  by_cases same : first = next
  · simp only [same, beq_self_eq_true, ↓reduceIte]
    rfl
  · simp only [beq_eq_false_iff_ne.2 same, if_neg same]
    exact loop_eraseReps next rest [first]

theorem mem_eraseReps : file ∈ files.eraseReps ↔ file ∈ files := by
  cases files with
  | nil => rfl
  | cons first rest =>
    induction rest generalizing first with
    | nil => rfl
    | cons next rest ih =>
      rw [eraseReps_cons_cons]
      split
      · rename_i same
        rw [ih, same]
        simp
      · simp only [List.mem_cons, ih]

theorem nodup_of_pairwise_lt (ordered : files.Pairwise fun left right => left < right) :
    files.Nodup := by
  refine List.nodup_iff_pairwise_ne.2 (ordered.imp fun {left right} lt same => ?_)
  exact String.lt_irrefl right (same ▸ lt)

/-- In order and without repetitions, files increase strictly. -/
theorem pairwise_eraseReps (ordered : files.Pairwise fun left right => left ≤ right) :
    files.eraseReps.Pairwise fun left right => left < right := by
  cases files with
  | nil => exact .nil
  | cons first rest =>
    induction rest generalizing first with
    | nil => exact List.pairwise_singleton _ first
    | cons next rest ih =>
      obtain ⟨below, later⟩ := List.pairwise_cons.1 ordered
      rw [eraseReps_cons_cons]
      split
      · rename_i same
        exact ih first (same ▸ later)
      · rename_i differs
        refine List.pairwise_cons.2 ⟨fun file mem => ?_, ih next later⟩
        have notLe : ¬next ≤ first := fun ge =>
          differs (String.le_antisymm (below next List.mem_cons_self) ge)
        have above : next ≤ file := by
          rcases List.mem_cons.1 (mem_eraseReps.1 mem) with rfl | further
          · exact String.le_refl file
          · exact (List.pairwise_cons.1 later).1 file further
        exact String.not_le.1 fun ge => notLe (String.le_trans above ge)

end Repetitions

/-! ### Scene files -/

/-- A single finding is in order. -/
theorem PairReport.sorted_unreadableScene (scene reason : String) :
    (unreadableScene scene reason).sorted = unreadableScene scene reason := by
  rw [sorted, unreadableScene, Diagnostic.sort, List.mergeSort_singleton]

namespace Project

variable {root file : String} {sceneFiles : List String} {unreadable : List UnreadablePlace}
  {project : Project} {disk : Disk}

/-- The scene files of a project increase strictly. -/
theorem pairwise_sceneFiles (root : String) (sceneFiles : List String)
    (unreadable : List UnreadablePlace) :
    (ofScenes root sceneFiles unreadable).sceneFiles.Pairwise fun left right => left < right := by
  refine pairwise_eraseReps ?_
  have ordered := @List.pairwise_mergeSort String (fun left right => left ≤ right)
    (fun a b c => by simpa using String.le_trans) (fun a b => by simpa using String.le_total a b)
    (sceneFiles.map ProjectPath.normalize)
  exact ordered.imp fun le => of_decide_eq_true le

/-- The scene files of a project are the normal forms of the given files. -/
theorem mem_sceneFiles_iff :
    file ∈ (ofScenes root sceneFiles unreadable).sceneFiles ↔
      ∃ source ∈ sceneFiles, ProjectPath.normalize source = file := by
  rw [ofScenes, mem_eraseReps, List.mem_mergeSort, List.mem_map]

/-- The unreadable places of a project are the given ones with the normal forms of their paths. -/
theorem mem_unreadable_iff {place : UnreadablePlace} :
    place ∈ (ofScenes root sceneFiles unreadable).unreadable ↔
      ∃ source ∈ unreadable, { source with path := ProjectPath.normalize source.path } = place := by
  rw [ofScenes, List.mem_mergeSort, List.mem_map]

/-! ### Reports -/

theorem scene_checkScene : (project.checkScene disk file).scene = file := by
  rw [checkScene]
  split
  · rfl
  · rfl
  · rfl

/-- The findings of a report on a scene are in order. -/
theorem sorted_checkScene :
    (project.checkScene disk file).sorted = project.checkScene disk file := by
  rw [checkScene]
  split
  · exact PairReport.sorted_unreadableScene file _
  · exact PairReport.sorted_unreadableScene file _
  · exact PairReport.sorted_sorted _

/-- What a pair of the report on a project is about. -/
theorem mem_pairs_check {pair : PairReport} (h : pair ∈ (project.check disk).pairs) :
    (∃ file ∈ project.sceneFiles, project.checkScene disk file = pair) ∨
      ∃ place ∈ project.unreadable, .unreadableScene place.path place.reason = pair := by
  obtain ⟨made, mem, rfl⟩ := List.mem_map.1 h
  rcases List.mem_append.1 (List.mem_mergeSort.1 mem) with checked | unread
  · obtain ⟨file, listed, rfl⟩ := List.mem_map.1 checked
    exact .inl ⟨file, listed, sorted_checkScene.symm⟩
  · obtain ⟨place, met, rfl⟩ := List.mem_map.1 unread
    exact .inr ⟨place, met, (PairReport.sorted_unreadableScene place.path place.reason).symm⟩

/-- What is unreadable in a project is reported as a scene that cannot be read. -/
theorem unreadableScene_mem_pairs_check {place : UnreadablePlace}
    (mem : place ∈ project.unreadable) :
    .unreadableScene place.path place.reason ∈ (project.check disk).pairs := by
  have made : PairReport.unreadableScene place.path place.reason ∈
      project.sceneFiles.map (project.checkScene disk) ++
        project.unreadable.map fun place => .unreadableScene place.path place.reason :=
    List.mem_append_right _ (List.mem_map_of_mem mem)
  rw [check, ProjectReport.ofPairs, ← PairReport.sorted_unreadableScene place.path place.reason]
  exact List.mem_map_of_mem (List.mem_mergeSort.2 made)

/-- What holds of the report on any scene, and of a scene that cannot be read, holds of each pair of
the report on a project. -/
theorem of_mem_pairs_check {P : PairReport → Prop}
    (unread : ∀ scene reason, P (.unreadableScene scene reason))
    (linked : ∀ scene text script, P ((Analysis.ofText scene text).link script))
    {pair : PairReport} (h : pair ∈ (project.check disk).pairs) : P pair := by
  rcases mem_pairs_check h with ⟨file, -, rfl⟩ | ⟨place, -, rfl⟩
  · rw [checkScene]
    split
    · exact unread file _
    · exact unread file _
    · exact linked file _ _
  · exact unread place.path place.reason

/-- In the report made of some pairs, those on one scene stand in their given order. -/
theorem filter_pairs_ofPairs (pairs : List PairReport) (scene : String) :
    (ProjectReport.ofPairs pairs).pairs.filter (fun pair => pair.scene = scene) =
      (pairs.filter fun pair => pair.scene = scene).map PairReport.sorted := by
  have kept : (pairs.mergeSort PairReport.le).filter (fun pair => pair.scene = scene) =
      pairs.filter fun pair => pair.scene = scene := by
    refine StableSort.filter_mergeSort PairReport.le_trans PairReport.le_total
      (List.pairwise_of_forall_mem_list fun left mem right mem' => ?_)
    have here := of_decide_eq_true (List.mem_filter.1 mem).2
    have there := of_decide_eq_true (List.mem_filter.1 mem').2
    exact decide_eq_true (here.trans there.symm ▸ String.le_refl _)
  have named : (fun pair : PairReport => decide (pair.scene = scene)) ∘ PairReport.sorted =
      fun pair => decide (pair.scene = scene) := rfl
  rw [ProjectReport.ofPairs, List.filter_map, named, kept]

/-- The report on a project has one pair for each scene file, before those on unreadable places of
the same name. -/
theorem filter_pairs_check
    (ordered : project.sceneFiles.Pairwise fun left right => left < right)
    (mem : file ∈ project.sceneFiles) :
    ((project.check disk).pairs.filter fun pair => pair.scene = file) =
      project.checkScene disk file ::
        (project.unreadable.filter fun place => place.path = file).map fun place =>
          .unreadableScene place.path place.reason := by
  have once : project.sceneFiles.filter (· == file) = [file] := by
    rw [List.filter_beq, (nodup_of_pairwise_lt ordered).count, if_pos mem, List.replicate_one]
  have own : (project.sceneFiles.map (project.checkScene disk)).filter
      (fun pair => pair.scene = file) = [project.checkScene disk file] := by
    have named : (fun pair : PairReport => decide (pair.scene = file)) ∘ project.checkScene disk =
        (· == file) := funext fun scene => by
      rw [Function.comp_apply, scene_checkScene]
      rfl
    rw [List.filter_map, named, once, List.map_singleton]
  have unread (places : List UnreadablePlace) :
      ((places.map fun place => PairReport.unreadableScene place.path place.reason).filter
        fun pair => pair.scene = file).map PairReport.sorted =
        (places.filter fun place => place.path = file).map fun place =>
          .unreadableScene place.path place.reason := by
    rw [List.filter_map, List.map_map]
    exact List.map_congr_left fun place _ => PairReport.sorted_unreadableScene _ _
  rw [check, filter_pairs_ofPairs, List.filter_append, List.map_append, own, unread,
    List.map_singleton, sorted_checkScene, List.singleton_append]

end Project

namespace CheckOptions

variable {options : CheckOptions} {disk : Disk}

/-- Where there is a scenes directory, discovery looks for the files in it. -/
theorem discover_of_directory {top entries : List (String × FileTree)}
    (root : disk.find options.root = .ok (.directory top))
    (start : disk.find options.start = .ok (.directory entries)) :
    options.discover disk =
      ((options.sceneWays disk (.directory entries)).mapM options.sceneFile).map fun files =>
        .ofScenes options.root files (options.unreadablePlaces disk (.directory entries)) := by
  rw [discover, root, start]
  dsimp only
  cases (options.sceneWays disk (.directory entries)).mapM options.sceneFile with
  | error fault => rfl
  | ok files => rfl

end CheckOptions

end SceneAudit
