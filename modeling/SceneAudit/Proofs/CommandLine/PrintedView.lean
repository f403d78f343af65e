import SceneAudit.Proofs.CommandLine.PrintedReport
import SceneAudit.Proofs.Report.Coherence
import SceneAudit.Proofs.Scene.Placement

/-!
# The view of a scene that is printed

The view of a single scene and the report on it without its script are made from one analysis, and
they say the same of it: the verdict, the canonical paths and the findings are the same. The report
has its findings in the order of their locations. The view has them in the order in which they are
made, which is three runs: the issues, the nodes that name no parent, and the reason why there is no
tree. Each run is in the order of the lines, so that the two orders differ exactly if two runs
overlap.

## Main definitions

* `Analysis.FollowsLines`: the findings about a scene are made in the order of its lines.

## Main results

* `Diagnostic.sort_eq_self_iff`: findings that sorting leaves as they are.
* `Analysis.pairwise_sceneDiagnostics_iff`: when findings are made in the order of their locations.
* `CommandLine.Outcome.parse?_output_ofView`: the JSON of the view is read from the output.
* `CommandLine.run_index`: what is printed of a scene, compared with the report on it.
* `CommandLine.not_view_agrees_menu`: a scene of which the two have different orders.
-/

namespace SceneAudit

open Scene

/-! ### The order of findings -/

theorem Location.le_of_file {file : String} {line other : Option Nat} :
    le ⟨file, line⟩ ⟨file, other⟩ = lineLe line other := by
  rw [Bool.eq_iff_iff, le_iff]
  exact ⟨fun h => (h.resolve_left (String.lt_irrefl file)).2, fun h => .inr ⟨rfl, h⟩⟩

/-- Sorting leaves findings as they are if they are in order already. -/
theorem Diagnostic.sort_eq_self_iff {diagnostics : List Diagnostic} :
    sort diagnostics = diagnostics ↔
      diagnostics.Pairwise fun left right => left.le right = true := by
  constructor
  · intro same
    rw [← same]
    exact pairwise_sort diagnostics
  · exact List.mergeSort_of_pairwise

/-- The nodes other than the first one that name no parent. -/
def SceneFile.implicitChildren (file : SceneFile) : List NodeRecord :=
  (file.records.drop 1).filter fun record => record.parent = .absent

namespace Analysis

/-- The findings about a scene are made in the order of its lines: no issue stands below a node that
names no parent, the first node apart, and the reason why there is no tree stands above neither of
them. A reason without a line stands above all lines. -/
structure FollowsLines (analysis : Analysis) : Prop where
  issue_implicit : ∀ issue ∈ analysis.file.issues, ∀ record ∈ analysis.file.implicitChildren,
    issue.line ≤ record.line
  issue_error : ∀ issue ∈ analysis.file.issues, ∀ error ∈ analysis.error?,
    Location.lineLe (some issue.line) error.line? = true
  implicit_error : ∀ record ∈ analysis.file.implicitChildren, ∀ error ∈ analysis.error?,
    Location.lineLe (some record.line) error.line? = true

instance : DecidablePred FollowsLines := fun analysis =>
  decidable_of_iff
    ((∀ issue ∈ analysis.file.issues, ∀ record ∈ analysis.file.implicitChildren,
        issue.line ≤ record.line) ∧
      (∀ issue ∈ analysis.file.issues, ∀ error ∈ analysis.error?,
        Location.lineLe (some issue.line) error.line? = true) ∧
      ∀ record ∈ analysis.file.implicitChildren, ∀ error ∈ analysis.error?,
        Location.lineLe (some record.line) error.line? = true)
    ⟨fun ⟨first, second, third⟩ => ⟨first, second, third⟩,
      fun ⟨first, second, third⟩ => ⟨first, second, third⟩⟩

variable {scene text : String}

/-- Findings about lines of a scene are in order if the lines are. -/
private theorem pairwise_map_of_line {α : Type} {items : List α} {line : α → Nat}
    {make : α → Diagnostic} (placed : ∀ item, (make item).location = ⟨scene, some (line item)⟩)
    (increase : items.Pairwise fun one other => line one < line other) :
    (items.map make).Pairwise fun left right => left.le right = true := by
  refine List.pairwise_map.2 (increase.imp fun {one other} lt => ?_)
  rw [Diagnostic.le, placed, placed, Location.le_of_file]
  exact decide_eq_true (Nat.le_of_lt lt)

/-- The findings about a scene are made in the order of their locations exactly if they are made in
the order of its lines. -/
theorem pairwise_sceneDiagnostics_iff :
    (ofText scene text).sceneDiagnostics.Pairwise (fun left right => left.le right = true) ↔
      (ofText scene text).FollowsLines := by
  have runs : (ofText scene text).sceneDiagnostics =
      (ofText scene text).file.issues.map (ofIssue scene) ++
        (ofText scene text).file.implicitChildren.map (implicitChild scene) ++
        ((ofText scene text).error?.map (ofError scene)).toList := rfl
  have issues : ((ofText scene text).file.issues.map (ofIssue scene)).Pairwise fun left right =>
      left.le right = true :=
    pairwise_map_of_line (fun _ => rfl) (SceneFile.pairwise_line_issues text)
  have implicit : ((ofText scene text).file.implicitChildren.map
      (implicitChild scene)).Pairwise fun left right => left.le right = true :=
    pairwise_map_of_line (fun _ => rfl) ((SceneFile.pairwise_line_records text).drop.filter _)
  have error : ((ofText scene text).error?.map (ofError scene)).toList.Pairwise fun left right =>
      left.le right = true := by
    cases (ofText scene text).error? with
    | none => exact List.Pairwise.nil
    | some error => exact List.pairwise_singleton _ _
  have above (line : Nat) (other : Option Nat) :
      (Location.ofLine scene line).le ⟨scene, other⟩ = Location.lineLe (some line) other :=
    Location.le_of_file
  rw [runs, List.pairwise_append, List.pairwise_append]
  simp only [issues, implicit, error, true_and, List.forall_mem_append, List.forall_mem_map,
    Option.mem_toList, Option.map_eq_some_iff, forall_exists_index, and_imp,
    forall_apply_eq_imp_iff₂]
  constructor
  · rintro ⟨first, second, third⟩
    exact ⟨fun issue read record listed =>
        of_decide_eq_true ((above _ _).symm.trans (first issue read record listed)),
      fun issue read error fails => (above _ _).symm.trans (second issue read error fails),
      fun record listed error fails => (above _ _).symm.trans (third record listed error fails)⟩
  · rintro ⟨first, second, third⟩
    exact ⟨fun issue read record listed =>
        (above _ _).trans (decide_eq_true (first issue read record listed)),
      fun issue read error fails => (above _ _).trans (second issue read error fails),
      fun record listed error fails => (above _ _).trans (third record listed error fails)⟩

/-- The report without a script has the findings about the scene, sorted. -/
theorem sort_sceneDiagnostics (scene text : String) :
    Diagnostic.sort (ofText scene text).sceneDiagnostics =
      (checkTexts scene text none).diagnostics :=
  congrArg Diagnostic.sort (List.append_nil _).symm

private theorem sceneDiagnostics_eq_iff :
    (ofText scene text).sceneDiagnostics = (checkTexts scene text none).diagnostics ↔
      (ofText scene text).FollowsLines := by
  rw [← sort_sceneDiagnostics, eq_comm, Diagnostic.sort_eq_self_iff]
  exact pairwise_sceneDiagnostics_iff

end Analysis

/-! ### What is printed -/

theorem SceneView.isPlain_toJson (view : SceneView) : view.toJson.IsPlain := by
  refine .record ?_
  simp only [List.forall_mem_cons]
  exact ⟨.text _, Json.isPlain_ofOption _, view.verdict.isPlain_toJson, Json.isPlain_texts _,
    Json.isPlain_list fun diagnostic _ => diagnostic.isPlain_toJson, List.forall_mem_nil _⟩

namespace CommandLine

open Json

/-- The JSON of the view is read from the output. -/
theorem Outcome.parse?_output_ofView (view : SceneView) :
    parse? (ofView .json view).output = some view.toJson :=
  parse?_output_ofLines _ view.isPlain_toJson

variable {arguments : List String} {root place scene text : String} {format : Format}

/-- What is printed of a scene that can be read is its view. -/
theorem run_eq_ofView {disk : Disk} {pool : ThreadPool}
    (accepted : Invocation.ofArguments? arguments = some (.index root scene format))
    (resolved : resolveRoot disk root = .ok place)
    (readable : disk.read (DiskPath.join place scene) = .loaded text) :
    run disk arguments pool = .ofView format (Analysis.ofText scene text).view := by
  have analyzed : sceneAnalysis disk root scene = .ok (.ofText scene text) := by
    have read : disk.read ((Project.ofScenes place [] []).pathOf scene) = .loaded text := readable
    rw [sceneAnalysis, resolved]
    dsimp only
    rw [Project.analyze, read]
    rfl
  rw [run, accepted]
  change Invocation.run disk pool (.index root scene format) = _
  rw [Invocation.run, analyzed]

/-- **What is printed of a scene.** For a command line that asks for the view of a scene that can
be read: what is printed is the view of its text, and if it is to be JSON, the view is read from it.
The view names the same scene as the report on the text without a script, it has the same verdict,
the same canonical paths in the same order, and the same findings, which the report has sorted by
location and the view has in the order in which they are made. The two orders are the same exactly
if the findings are made in the order of the lines. -/
theorem run_index (disk : Disk) (pool : ThreadPool)
    (accepted : Invocation.ofArguments? arguments = some (.index root scene format))
    (resolved : resolveRoot disk root = .ok place)
    (readable : disk.read (DiskPath.join place scene) = .loaded text) :
    let view := (Analysis.ofText scene text).view
    let report := checkTexts scene text none
    run disk arguments pool = .ofView format view ∧
      (format = .json → parse? (run disk arguments pool).output = some view.toJson) ∧
      view.scene = report.scene ∧ view.verdict = report.verdict ∧
      view.canonicalPaths = report.canonicalPaths ∧
      Diagnostic.sort view.diagnostics = report.diagnostics ∧
      (view.diagnostics = report.diagnostics ↔ (Analysis.ofText scene text).FollowsLines) := by
  intro view report
  have printed : run disk arguments pool = .ofView format view :=
    run_eq_ofView accepted resolved readable
  refine ⟨printed, ?_, rfl, rfl, rfl, Analysis.sort_sceneDiagnostics scene text,
    Analysis.sceneDiagnostics_eq_iff⟩
  rintro rfl
  rw [printed, Outcome.parse?_output_ofView]

/-- The disk with one file, a scene, in the working directory. -/
def sceneDisk (text : String) : Disk where
  tree := .directory [("menu.tscn", .file text.toUTF8)]
  workingDirectory := []

theorem read_sceneDisk (text : String) :
    (sceneDisk text).read (DiskPath.join "/." "menu.tscn") = .loaded text := by
  have found : (sceneDisk text).find (DiskPath.join "/." "menu.tscn") =
      .ok (.file text.toUTF8) := by with_unfolding_all rfl
  refine Disk.read_eq_of_find ?_ found
  with_unfolding_all rfl

/-- A header that is left out, a node that names no parent, and one that names a parent in vain,
from above to below. -/
def orderedScene : String :=
  "[node name=\"Menu\"]\n[node]\n[node name=\"Start\"]\n[node name=\"Quit\" parent=\"Box\"]\n"

theorem run_index_ordered :
    run (sceneDisk orderedScene) ["index", "--scene", "menu.tscn"] =
        .ofView .text (Analysis.ofText "menu.tscn" orderedScene).view ∧
      (Analysis.ofText "menu.tscn" orderedScene).view.diagnostics =
        (checkTexts "menu.tscn" orderedScene none).diagnostics ∧
      (checkTexts "menu.tscn" orderedScene none).diagnostics.map
        (fun finding => finding.location.line) = [some 2, some 3, some 4] := by
  have accepted : Invocation.ofArguments? ["index", "--scene", "menu.tscn"] =
      some (.index "." "menu.tscn" .text) := by decide +kernel
  have follows : (Analysis.ofText "menu.tscn" orderedScene).FollowsLines := by decide +kernel
  obtain ⟨printed, -, -, -, -, -, agrees⟩ :=
    run_index (sceneDisk orderedScene) .unbounded accepted rfl (read_sceneDisk _)
  refine ⟨printed, agrees.2 follows, ?_⟩
  rw [← agrees.2 follows]
  decide +kernel

/-- A node that names no parent above a header that is left out. -/
def overlappingScene : String :=
  "[node name=\"Menu\"]\n[node name=\"Start\"]\n[node]\n"

/-- The view has the finding on line 3 first, the report has the one on line 2 first. -/
theorem not_view_agrees_menu :
    let leftOut := Analysis.ofIssue "menu.tscn" (.malformed 3 "node declaration has no name")
    let implicit := Analysis.implicitChild "menu.tscn" ⟨"Start", none, .absent, none, 2⟩
    run (sceneDisk overlappingScene) ["index", "--scene", "menu.tscn"] =
        .ofView .text (Analysis.ofText "menu.tscn" overlappingScene).view ∧
      (Analysis.ofText "menu.tscn" overlappingScene).view.diagnostics = [leftOut, implicit] ∧
      (checkTexts "menu.tscn" overlappingScene none).diagnostics = [implicit, leftOut] ∧
      leftOut ≠ implicit := by
  intro leftOut implicit
  have accepted : Invocation.ofArguments? ["index", "--scene", "menu.tscn"] =
      some (.index "." "menu.tscn" .text) := by decide +kernel
  have made : (Analysis.ofText "menu.tscn" overlappingScene).sceneDiagnostics =
      [leftOut, implicit] := by decide +kernel
  have swapped : Diagnostic.sort [leftOut, implicit] = Diagnostic.sort [implicit, leftOut] :=
    StableSort.mergeSort_eq_mergeSort_of_perm Diagnostic.le_trans Diagnostic.le_total
      (List.Perm.swap implicit leftOut []) (by decide +kernel)
  have ordered : Diagnostic.sort [implicit, leftOut] = [implicit, leftOut] :=
    Diagnostic.sort_eq_self_iff.2 (by decide +kernel)
  refine ⟨run_eq_ofView accepted rfl (read_sceneDisk _), made, ?_, by decide +kernel⟩
  rw [← Analysis.sort_sceneDiagnostics, made, swapped, ordered]

end CommandLine

end SceneAudit
