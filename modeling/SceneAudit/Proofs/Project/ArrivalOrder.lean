import SceneAudit.Proofs.Project.SceneFiles

/-!
# The order of arrival

Scenes are met in the order of a directory walk, some of them more than once, and their reports are
finished in any order. None of this can be seen in the report on the project: scene files are put in
order and freed from repetitions before they are checked, and reports are put in order afterwards.
Reports on different scenes do not tie, and those on one scene, which unreadable places may add,
stay in the order in which they are given.

## Main results

* `ProjectReport.ofPairs_append_of_perm`: reports on different scenes may come in any order.
* `Project.ofScenes_congr`: the project is the same in whatever order and however often its scenes
  are listed.
* `Project.report_independent_of_order`: the report on a project does not depend on any order.
-/

namespace SceneAudit

namespace ProjectReport

variable {pairs arrived : List PairReport}

private theorem ties_le_iff {left right : PairReport} :
    StableSort.ties PairReport.le left right = true ↔ left.scene = right.scene := by
  rw [StableSort.ties_iff, PairReport.le, PairReport.le, decide_eq_true_eq, decide_eq_true_eq]
  exact ⟨fun both => String.le_antisymm both.1 both.2, fun same => same ▸ ⟨String.le_refl _,
    String.le_refl _⟩⟩

/-- Of reports on different scenes, no two are about the scene of a third one. -/
theorem filter_ties_eq_of_perm (distinct : (pairs.map PairReport.scene).Nodup)
    (perm : arrived.Perm pairs) (pair : PairReport) :
    arrived.filter (StableSort.ties PairReport.le pair) =
      pairs.filter (StableSort.ties PairReport.le pair) := by
  have alone {list : List PairReport} (distinct : (list.map PairReport.scene).Nodup) :
      (list.filter (StableSort.ties PairReport.le pair)).Pairwise fun _ _ => False := by
    have scenes := List.pairwise_map.1 (List.nodup_iff_pairwise_ne.1 distinct)
    refine (scenes.filter _).imp_of_mem fun {left right} mem mem' differ => differ ?_
    have here := ties_le_iff.1 (List.mem_filter.1 mem).2
    have there := ties_le_iff.1 (List.mem_filter.1 mem').2
    exact here.symm.trans there
  refine List.Perm.eq_of_pairwise (fun _ _ _ _ impossible => impossible.elim)
    (alone ?_) (alone distinct) (perm.filter _)
  exact ((perm.map PairReport.scene).nodup_iff).2 distinct

/-- Reports on different scenes may come in any order, whatever else is added to them. -/
theorem ofPairs_append_of_perm (distinct : (pairs.map PairReport.scene).Nodup)
    (perm : arrived.Perm pairs) (others : List PairReport) :
    ofPairs (arrived ++ others) = ofPairs (pairs ++ others) := by
  have sorted : (arrived ++ others).mergeSort PairReport.le =
      (pairs ++ others).mergeSort PairReport.le := by
    refine (StableSort.mergeSort_eq_mergeSort_iff PairReport.le_trans PairReport.le_total).2
      fun pair => ?_
    rw [List.filter_append, List.filter_append, filter_ties_eq_of_perm distinct perm]
  rw [ofPairs, ofPairs, sorted]

end ProjectReport

namespace Project

variable {listed walked : List String} {unreadable met : List UnreadablePlace}

/-- The scene files of a project are determined by the normal forms of the given files. -/
theorem sceneFiles_congr
    (same : ∀ file, file ∈ walked.map ProjectPath.normalize ↔
      file ∈ listed.map ProjectPath.normalize)
    (root : String) (met unreadable : List UnreadablePlace) :
    (ofScenes root walked met).sceneFiles = (ofScenes root listed unreadable).sceneFiles := by
  have ordered := pairwise_sceneFiles root walked met
  have ordered' := pairwise_sceneFiles root listed unreadable
  have perm := (List.perm_ext_iff_of_nodup (nodup_of_pairwise_lt ordered)
    (nodup_of_pairwise_lt ordered')).2 fun file => by
      rw [mem_sceneFiles_iff, mem_sceneFiles_iff]
      simpa only [List.mem_map] using same file
  refine List.Perm.eq_of_pairwise (fun a b _ _ lt gt => ?_) ordered ordered' perm
  exact absurd (String.lt_trans lt gt) (String.lt_irrefl a)

/-- Places that could not be read may be met in any order. -/
private theorem unreadable_congr (perm : met.Perm unreadable) (root : String)
    (walked listed : List String) :
    (ofScenes root walked met).unreadable = (ofScenes root listed unreadable).unreadable :=
  StableSort.mergeSort_eq_mergeSort_of_perm UnreadablePlace.le_trans UnreadablePlace.le_total
    (perm.map _) fun _ _ _ _ tie =>
      UnreadablePlace.le_antisymm (StableSort.ties_iff.1 tie).1 (StableSort.ties_iff.1 tie).2

/-- The project is the same in whatever order and however often its scenes are listed. -/
theorem ofScenes_congr
    (same : ∀ file, file ∈ walked.map ProjectPath.normalize ↔
      file ∈ listed.map ProjectPath.normalize)
    (perm : met.Perm unreadable) (root : String) :
    ofScenes root walked met = ofScenes root listed unreadable :=
  (mk.injEq ..).mpr
    ⟨rfl, sceneFiles_congr same root met unreadable, unreadable_congr perm root walked listed⟩

/-- The reports on the scenes of a project are about different scenes. -/
private theorem nodup_map_scene_checkScene (root : String) (listed : List String)
    (unreadable : List UnreadablePlace) (disk : Disk) :
    (((ofScenes root listed unreadable).sceneFiles.map
      ((ofScenes root listed unreadable).checkScene disk)).map PairReport.scene).Nodup := by
  have own : PairReport.scene ∘ (ofScenes root listed unreadable).checkScene disk = id :=
    funext fun _ => scene_checkScene
  rw [List.map_map, own, List.map_id]
  exact nodup_of_pairwise_lt (pairwise_sceneFiles root listed unreadable)

/-- **The report on a project does not depend on any order.** Reports on different scenes may come
in any order, whatever is added to them, and putting a report in order once more changes nothing.
Two listings with the same files, up to their normal forms, in any order and with any repetitions,
make the same project, in whatever order the unreadable places were met; and its report is the same
in whatever order the scenes are finished. -/
theorem report_independent_of_order :
    (∀ pairs arrived others : List PairReport, (pairs.map PairReport.scene).Nodup →
      arrived.Perm pairs →
        ProjectReport.ofPairs (arrived ++ others) = ProjectReport.ofPairs (pairs ++ others)) ∧
    (∀ pairs : List PairReport,
      ProjectReport.ofPairs (ProjectReport.ofPairs pairs).pairs = ProjectReport.ofPairs pairs) ∧
    ∀ (root : String) (listed walked : List String) (unreadable met : List UnreadablePlace),
      (∀ file, file ∈ walked.map ProjectPath.normalize ↔
        file ∈ listed.map ProjectPath.normalize) → met.Perm unreadable →
      let project := ofScenes root walked met
      project = ofScenes root listed unreadable ∧
      ∀ (disk : Disk) (finished : List PairReport),
        finished.Perm (project.sceneFiles.map (project.checkScene disk)) →
          ProjectReport.ofPairs (finished ++ project.unreadable.map fun place =>
            .unreadableScene place.path place.reason) =
              (ofScenes root listed unreadable).check disk := by
  refine ⟨fun pairs arrived others distinct perm =>
    ProjectReport.ofPairs_append_of_perm distinct perm others, ProjectReport.ofPairs_pairs, ?_⟩
  intro root listed walked unreadable met same perm project
  have congr : project = ofScenes root listed unreadable := ofScenes_congr same perm root
  refine ⟨congr, fun disk finished done => ?_⟩
  rw [← congr, check]
  exact ProjectReport.ofPairs_append_of_perm
    (nodup_map_scene_checkScene root walked met disk) done _

/-- Two menus are listed in any order, one of them twice, and finished in the reverse order. A
further report on the first menu does not mix with the others. -/
theorem report_independent_of_order_menus :
    let first := PairReport.unreadableScene "menus/a.tscn" "file not found"
    let second := PairReport.unreadableScene "menus/b.tscn" "file not found"
    let further := PairReport.unreadableScene "menus/a.tscn" "stream did not contain valid UTF-8"
    let disk : Disk :=
      { tree := .directory [("game", .directory [])], workingDirectory := ["game"] }
    let walked := ofScenes "." ["menus\\b.tscn", "./menus/a.tscn", "menus/b.tscn"] []
    ProjectReport.ofPairs [second, first, further] =
      ProjectReport.ofPairs [first, second, further] ∧
    walked = ofScenes "." ["menus/a.tscn", "menus/b.tscn"] [] ∧
    ProjectReport.ofPairs (walked.sceneFiles.map (walked.checkScene disk)).reverse =
      (ofScenes "." ["menus/a.tscn", "menus/b.tscn"] []).check disk := by
  intro first second further disk walked
  have normal : ["menus\\b.tscn", "./menus/a.tscn", "menus/b.tscn"].map ProjectPath.normalize =
      ["menus/b.tscn", "menus/a.tscn", "menus/b.tscn"] := by decide +kernel
  have normal' : ["menus/a.tscn", "menus/b.tscn"].map ProjectPath.normalize =
      ["menus/a.tscn", "menus/b.tscn"] := by decide +kernel
  have same (file : String) :
      file ∈ ["menus\\b.tscn", "./menus/a.tscn", "menus/b.tscn"].map ProjectPath.normalize ↔
        file ∈ ["menus/a.tscn", "menus/b.tscn"].map ProjectPath.normalize := by
    rw [normal, normal']
    simp only [List.mem_cons, List.not_mem_nil, or_false]
    grind
  have listings := report_independent_of_order.2.2 "." ["menus/a.tscn", "menus/b.tscn"]
    ["menus\\b.tscn", "./menus/a.tscn", "menus/b.tscn"] [] [] same .rfl
  refine ⟨report_independent_of_order.1 [first, second] [second, first] [further]
    (by decide +kernel) (List.Perm.swap first second []), listings.1, ?_⟩
  have report := listings.2 disk (walked.sceneFiles.map (walked.checkScene disk)).reverse
    (List.reverse_perm _)
  have readable : walked.unreadable = [] := List.mergeSort_nil
  rwa [readable, List.map_nil, List.append_nil] at report

end Project

end SceneAudit
