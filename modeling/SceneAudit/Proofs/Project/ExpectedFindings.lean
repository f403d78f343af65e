import SceneAudit.Proofs.Project.SceneFiles
import SceneAudit.Proofs.Report.Coherence
import SceneAudit.Proofs.Report.Suggestion
import SceneAudit.Proofs.StableSort
import SceneAudit.TestCase

/-!
# Expected findings

A test case passes if what it expects and what is found are the same once both are in order. The
order looks at locations and codes, while the comparison looks at suggestions as well. Expectations
that differ in their suggestions alone are therefore compared in the order in which they are
written, and a test case that expects just what is found may fail. This needs two findings of one
kind in one place with different suggestions, which two scenes with the same script can make.

## Main definitions

* `Expectation.IsDiscerned`: no two expectations differ in their suggestions alone.
* `PairReport.SuggestsByLine`: what is suggested for a reference is told by its line.

## Main results

* `Expectation.sort_eq_sort_iff`: when two lists of expectations are the same in order.
* `Expectation.isDiscerned_iff`: when the order in which expectations are written does not matter.
* `Project.isDiscerned_check`: it does not if no script is attached to two scenes.
* `TestCase.verify_eq_ok_iff`: when a test case passes.
* `TestCase.not_verify_sharedDisk`: a test case that expects just what is found and fails.
-/

namespace SceneAudit

/-! ### Expectations in order -/

namespace Expectation

variable {left right expected observed : List Expectation} {a b : Expectation}

/-- Whether something with the given code is expected in the given place. -/
def isAt (location : Location) (code : String) (expectation : Expectation) : Bool :=
  location = expectation.location ∧ code = expectation.code

theorem isAt_iff {location : Location} {code : String} :
    isAt location code a = true ↔ location = a.location ∧ code = a.code :=
  decide_eq_true_iff

/-- No two expectations differ in their suggestions alone. -/
def IsDiscerned (expectations : List Expectation) : Prop :=
  ∀ a ∈ expectations, ∀ b ∈ expectations, a.location = b.location → a.code = b.code → a = b

/-- The order does not look at suggestions. -/
theorem ties_le (a : Expectation) : StableSort.ties le a = isAt a.location a.code := by
  funext b
  refine Bool.eq_iff_iff.2 (StableSort.ties_iff.trans (Iff.trans ?_ isAt_iff.symm))
  constructor
  · rintro ⟨before, after⟩
    by_cases same : a.location = b.location
    · rw [le, if_pos same, decide_eq_true_eq] at before
      rw [le, if_pos same.symm, decide_eq_true_eq] at after
      exact ⟨same, String.le_antisymm before after⟩
    · rw [le, if_neg same] at before
      rw [le, if_neg (Ne.symm same)] at after
      exact absurd (Location.le_antisymm before after) same
  · rintro ⟨location, code⟩
    rw [le, le, if_pos location, if_pos location.symm, code]
    simp

/-- Two lists of expectations are the same in order if, for each place and each code, what is
expected there stands in the same order in both. -/
theorem sort_eq_sort_iff :
    sort left = sort right ↔
      ∀ location code, left.filter (isAt location code) = right.filter (isAt location code) := by
  rw [sort, sort, StableSort.mergeSort_eq_mergeSort_iff le_trans le_total]
  constructor
  · intro same location code
    have classes := same ⟨code, location, none⟩
    rwa [ties_le] at classes
  · intro same a
    rw [ties_le]
    exact same a.location a.code

/-- The order in which expectations are written does not matter exactly if no two of them differ in
their suggestions alone. -/
theorem isDiscerned_iff :
    IsDiscerned observed ↔ ∀ expected, expected.Perm observed → sort expected = sort observed := by
  constructor
  · intro discerned expected perm
    refine StableSort.mergeSort_eq_mergeSort_of_perm le_trans le_total perm
      fun a mem b mem' tie => ?_
    rw [ties_le, isAt_iff] at tie
    exact discerned a (perm.mem_iff.1 mem) b (perm.mem_iff.1 mem') tie.1 tie.2
  · -- Each of the two can be written first, and then it is the first one of its kind.
    intro same a mem b mem' location code
    have written := (same _ (List.perm_cons_erase mem).symm).trans
      (same _ (List.perm_cons_erase mem').symm).symm
    have classes := sort_eq_sort_iff.1 written a.location a.code
    rw [List.filter_cons_of_pos (isAt_iff.2 ⟨rfl, rfl⟩),
      List.filter_cons_of_pos (isAt_iff.2 ⟨location, code⟩), List.cons.injEq] at classes
    exact classes.1

end Expectation

/-! ### Suggestions in a report -/

/-- Suggestions are made for unresolved references of the attached script only, and no two of these
are found on one line. -/
structure PairReport.SuggestsByLine (report : PairReport) : Prop where
  other : ∀ finding ∈ report.diagnostics, finding.kind ≠ .unresolvedReference →
    finding.suggestion = none
  script : ∀ finding ∈ report.unresolved, report.script = some finding.location.file
  once : ∀ finding ∈ report.unresolved, ∀ second ∈ report.unresolved,
    second.location = finding.location → second = finding

private theorem PairReport.suggestsByLine_unreadableScene (scene reason : String) :
    (unreadableScene scene reason).SuggestsByLine where
  other finding mem _ := List.mem_singleton.1 mem ▸ rfl
  script finding mem := by
    obtain ⟨listed, kind⟩ := List.mem_filter.1 mem
    rw [List.mem_singleton.1 listed] at kind
    contradiction
  once finding mem := by
    obtain ⟨listed, kind⟩ := List.mem_filter.1 mem
    rw [List.mem_singleton.1 listed] at kind
    contradiction

namespace Analysis

variable {scene text : String} {script : Option AttachedScript} {finding : Diagnostic}

private theorem suggestion_of_mem_sceneDiagnostics {analysis : Analysis}
    (h : finding ∈ analysis.sceneDiagnostics) : finding.suggestion = none := by
  rw [sceneDiagnostics, List.mem_append, List.mem_append, List.mem_map, List.mem_map,
    Option.mem_toList, Option.map_eq_some_iff] at h
  rcases h with (⟨issue, -, rfl⟩ | ⟨record, -, rfl⟩) | ⟨error, -, rfl⟩
  · rfl
  · rfl
  · rfl

/-- A finding about a script has no suggestion, or it is about one of its references. -/
theorem suggestion_of_mem_scriptFindings {analysis : Analysis}
    (h : finding ∈ analysis.scriptFindings script) :
    finding.kind ≠ .unresolvedReference ∧ finding.suggestion = none ∨
      ∃ index file code, script = some ⟨file, .loaded code⟩ ∧ analysis.index? = some index ∧
        finding ∈ index.validate (Script.references code) analysis.scene file := by
  cases script with
  | none => contradiction
  | some script =>
    obtain ⟨file, source⟩ := script
    change finding ∈ analysis.scriptDiagnostics ⟨file, source⟩ at h
    unfold scriptDiagnostics at h
    split at h
    · exact .inl (List.mem_singleton.1 h ▸ ⟨nofun, rfl⟩)
    · exact .inl (List.mem_singleton.1 h ▸ ⟨nofun, rfl⟩)
    · exact .inl (List.mem_singleton.1 h ▸ ⟨nofun, rfl⟩)
    · rename_i index code indexed loaded
      exact .inr ⟨index, file, code, congrArg _ (congrArg _ loaded), indexed, h⟩

/-- An unresolved reference is one of the attached script. -/
theorem exists_of_mem_unresolved_link (h : finding ∈ ((ofText scene text).link script).unresolved) :
    ∃ index file code, script = some ⟨file, .loaded code⟩ ∧
      (ofText scene text).index? = some index ∧
        finding ∈ index.validate (Script.references code) scene file := by
  obtain ⟨mem, kind⟩ := List.mem_filter.1 h
  rw [decide_eq_true_eq] at kind
  rcases List.mem_append.1 (perm_diagnostics_link.mem_iff.1 mem) with found | found
  · exact absurd kind (kind_ne_unresolvedReference found)
  · rcases suggestion_of_mem_scriptFindings found with other | own
    · exact absurd kind other.1
    · exact own

private theorem suggestsByLine_link (scene text : String) (script : Option AttachedScript) :
    ((ofText scene text).link script).SuggestsByLine where
  other finding mem kind := by
    rcases List.mem_append.1 (perm_diagnostics_link.mem_iff.1 mem) with found | found
    · exact suggestion_of_mem_sceneDiagnostics found
    · rcases suggestion_of_mem_scriptFindings found with other | ⟨index, file, code, -, -, own⟩
      · exact other.2
      · exact absurd (kind_of_mem_validate own) kind
  script finding mem := by
    obtain ⟨index, file, code, rfl, -, own⟩ := exists_of_mem_unresolved_link mem
    obtain ⟨reference, -, -, rfl⟩ := PathIndex.mem_validate.1 own
    rfl
  once finding mem second mem' same := by
    obtain ⟨index, file, code, rfl, indexed, own⟩ := exists_of_mem_unresolved_link mem
    obtain ⟨index', file', code', eq, indexed', own'⟩ := exists_of_mem_unresolved_link mem'
    obtain rfl := Option.some.inj (indexed.symm.trans indexed')
    simp only [Option.some.injEq, AttachedScript.mk.injEq, Source.loaded.injEq] at eq
    obtain ⟨rfl, rfl⟩ := eq
    obtain ⟨reference, listed, -, rfl⟩ := PathIndex.mem_validate.1 own
    obtain ⟨reference', listed', -, rfl⟩ := PathIndex.mem_validate.1 own'
    have line : reference'.line = reference.line :=
      Option.some.inj (congrArg Location.line same)
    rw [Script.eq_of_line_eq listed listed' line]

end Analysis

/-- Two items of a sort of which there is at most one in a list are the same. -/
theorem eq_of_countP_le_one {α : Type} {p : α → Bool} {items : List α} (single : items.countP p ≤ 1)
    {a b : α} (mem : a ∈ items) (mem' : b ∈ items) (sort : p a = true) (sort' : p b = true) :
    a = b := by
  have listed := List.mem_filter.2 ⟨mem, sort⟩
  have listed' := List.mem_filter.2 ⟨mem', sort'⟩
  rw [List.countP_eq_length_filter] at single
  match found : items.filter p, single with
  | [], _ =>
    rw [found] at listed
    contradiction
  | [c], _ =>
    rw [found, List.mem_singleton] at listed listed'
    rw [listed, listed']

/-- If no script is attached to two scenes, what is found in a project can be told apart without
looking at suggestions. -/
theorem Project.isDiscerned_check {project : Project} {disk : Disk}
    (single : ∀ file, (project.check disk).pairs.countP (·.script = some file) ≤ 1) :
    Expectation.IsDiscerned ((project.check disk).diagnostics.map Expectation.ofDiagnostic) := by
  have listed {finding : Diagnostic} (h : finding ∈ (project.check disk).diagnostics) :
      ∃ pair ∈ (project.check disk).pairs, finding ∈ pair.diagnostics ∧ pair.SuggestsByLine := by
    obtain ⟨pair, mem, found⟩ :=
      List.mem_flatMap.1 ((Diagnostic.sort_perm _).mem_iff.1 h)
    exact ⟨pair, mem, found, of_mem_pairs_check PairReport.suggestsByLine_unreadableScene
      Analysis.suggestsByLine_link mem⟩
  intro a mem b mem' location code
  obtain ⟨finding, found, rfl⟩ := List.mem_map.1 mem
  obtain ⟨second, found', rfl⟩ := List.mem_map.1 mem'
  obtain ⟨pair, checked, own, byLine⟩ := listed found
  obtain ⟨pair', checked', own', byLine'⟩ := listed found'
  have kind : finding.kind = second.kind := Diagnostic.Kind.code_injective code
  by_cases reference : finding.kind = .unresolvedReference
  · have unresolved : finding ∈ pair.unresolved :=
      List.mem_filter.2 ⟨own, decide_eq_true reference⟩
    have unresolved' : second ∈ pair'.unresolved :=
      List.mem_filter.2 ⟨own', decide_eq_true (kind ▸ reference)⟩
    have script := byLine.script finding unresolved
    have script' := byLine'.script second unresolved'
    have file : finding.location.file = second.location.file := congrArg Location.file location
    have same : pair = pair' := eq_of_countP_le_one (single finding.location.file) checked checked'
      (decide_eq_true script) (decide_eq_true (file ▸ script'))
    subst same
    rw [byLine.once finding unresolved second unresolved' location.symm]
  · have suggestion : finding.suggestion = second.suggestion :=
      (byLine.other finding own reference).trans
        (byLine'.other second own' (kind ▸ reference)).symm
    exact (Expectation.mk.injEq ..).mpr ⟨code, location, suggestion⟩

/-! ### Test cases -/

namespace TestCase

variable {disk : Disk} {root path : String} {case : TestCase} {report : ProjectReport}

theorem compare_eq_ok_iff_filter :
    case.compare report = .ok () ↔ ∀ location code,
      case.expectations.filter (Expectation.isAt location code) =
        (report.diagnostics.map Expectation.ofDiagnostic).filter
          (Expectation.isAt location code) := by
  rw [compare_eq_ok_iff, Expectation.ofReport, Expectation.sort_eq_sort_iff]

/-- The report of a test case is the one on the project that is found with its settings. -/
theorem exists_of_run (h : case.run disk root = .ok report) :
    ∃ project : Project, project.check disk = report := by
  obtain ⟨options, eq⟩ : ∃ options : CheckOptions,
      (options.check disk).mapError Fault.unchecked = .ok report := ⟨_, h⟩
  cases checked : options.check disk with
  | error fault =>
    rw [checked] at eq
    contradiction
  | ok found =>
    rw [checked] at eq
    obtain rfl := Except.ok.inj eq
    obtain ⟨project, -, same⟩ := CheckOptions.exists_of_check checked
    exact ⟨project, same⟩

/-- **When a test case passes.** For each place and each code, what is expected there must be what
is found there, in the same order: that of the report. So a case that passes expects just what is
found. Whatever the order in which this is written, it passes exactly if no two findings differ in
their suggestions alone, as is the case if no script is attached to two scenes; then a case passes
exactly if it expects just what is found. -/
theorem verify_eq_ok_iff (loaded : load disk path = .ok case)
    (checked : case.run disk root = .ok report) :
    let observed := report.diagnostics.map Expectation.ofDiagnostic
    (verify disk root path = .ok () ↔ ∀ location code,
      case.expectations.filter (Expectation.isAt location code) =
        observed.filter (Expectation.isAt location code)) ∧
    (verify disk root path = .ok () → case.expectations.Perm observed) ∧
    ((∀ expected : List Expectation, expected.Perm observed →
      { case with expectations := expected }.compare report = .ok ()) ↔
        Expectation.IsDiscerned observed) ∧
    (Expectation.IsDiscerned observed →
      (verify disk root path = .ok () ↔ case.expectations.Perm observed)) ∧
    ((∀ file, report.pairs.countP (·.script = some file) ≤ 1) →
      Expectation.IsDiscerned observed) := by
  intro observed
  have passes : verify disk root path = .ok () ↔
      Expectation.sort case.expectations = Expectation.sort observed := by
    rw [verify_eq loaded checked]
    exact compare_eq_ok_iff
  have perm (ok : verify disk root path = .ok ()) : case.expectations.Perm observed := by
    have sorted := (Expectation.sort_perm case.expectations).symm
    rw [passes.1 ok] at sorted
    exact sorted.trans (Expectation.sort_perm observed)
  refine ⟨?_, perm, ?_, ?_, ?_⟩
  · rw [verify_eq loaded checked, compare_eq_ok_iff_filter]
  · rw [Expectation.isDiscerned_iff]
    exact forall₂_congr fun expected _ => compare_eq_ok_iff
  · exact fun discerned =>
      ⟨perm, fun written => passes.2 (Expectation.isDiscerned_iff.1 discerned _ written)⟩
  · intro single
    obtain ⟨project, rfl⟩ := exists_of_run checked
    exact Project.isDiscerned_check single

/-! ### Two scenes with one script -/

/-- A script that refers to a node below a panel. -/
def sharedScript : String := "var score = $Panel/Score\n"

/-- A scene with this script that has no panel, but the node. -/
def scoreScene : String :=
  "[ext_resource path=\"res://hud.gd\" id=\"1\"]\n[node name=\"A\"]\n" ++
    "script = ExtResource(\"1\")\n[node name=\"Score\" parent=\".\"]\n"

/-- A scene with this script that has neither. -/
def bareScene : String :=
  "[ext_resource path=\"res://hud.gd\" id=\"1\"]\n[node name=\"B\"]\n" ++
    "script = ExtResource(\"1\")\n"

/-- A test case that expects what is found in both scenes, without a suggestion first. -/
def sharedCase : String :=
  "\x7b\"schemaVersion\":\"nl-tool-case.v1\",\"expectedDiagnostics\":[" ++
    "\x7b\"code\":\"UNRESOLVED_REFERENCE\",\"file\":\"hud.gd\",\"line\":1\x7d," ++
    "\x7b\"code\":\"UNRESOLVED_REFERENCE\",\"file\":\"hud.gd\",\"line\":1," ++
    "\"suggestion\":\"Score\"\x7d]\x7d"

/-- Two scenes. -/
def sharedScenes (first second : String) : List (String × FileTree) :=
  [("a.tscn", .file first.toUTF8), ("b.tscn", .file second.toUTF8)]

/-- The files of a project with two scenes and a test case. -/
def sharedFiles (first second : String) : List (String × FileTree) :=
  [("hud.gd", .file sharedScript.toUTF8), ("scenes", .directory (sharedScenes first second)),
    ("testcase.json", .file sharedCase.toUTF8)]

/-- A disk with this project. -/
def sharedDisk (first second : String) : Disk where
  tree := .directory (sharedFiles first second)
  workingDirectory := []

/-- What is expected of an unresolved reference on the first line of the script. -/
def sharedExpectation (suggestion : Option String) : Expectation :=
  ⟨"UNRESOLVED_REFERENCE", .ofLine "hud.gd" 1, suggestion⟩

theorem load_sharedDisk (first second : String) :
    load (sharedDisk first second) "testcase.json" =
      .ok ⟨schema, "scenes", [], [sharedExpectation none, sharedExpectation (some "Score")]⟩ := by
  refine load_eq_ok_iff.2 ⟨sharedCase, ?_, by decide +kernel, rfl⟩
  apply Disk.text_eq_of_find
  · with_unfolding_all rfl
  · with_unfolding_all rfl

/-- The project that is found. -/
def sharedProject : Project :=
  ⟨".", ["scenes/a.tscn", "scenes/b.tscn"], []⟩

private theorem discover_sharedDisk (first second : String) :
    CheckOptions.discover ⟨".", "scenes", [], none⟩ (sharedDisk first second) =
      .ok sharedProject := by
  have root : (sharedDisk first second).find "." = .ok (.directory (sharedFiles first second)) := by
    with_unfolding_all rfl
  have start : (sharedDisk first second).find (CheckOptions.start ⟨".", "scenes", [], none⟩) =
      .ok (.directory (sharedScenes first second)) := by with_unfolding_all rfl
  have walked : CheckOptions.walk ⟨".", "scenes", [], none⟩ (sharedDisk first second)
      (.directory (sharedScenes first second)) =
        [([], .directory (sharedScenes first second)), (["a.tscn"], .file first.toUTF8),
          (["b.tscn"], .file second.toUTF8)] := by with_unfolding_all rfl
  have ways : CheckOptions.sceneWays ⟨".", "scenes", [], none⟩ (sharedDisk first second)
      (.directory (sharedScenes first second)) = [["a.tscn"], ["b.tscn"]] := by
    rw [CheckOptions.sceneWays, walked]
    with_unfolding_all rfl
  have unread : CheckOptions.unreadablePlaces ⟨".", "scenes", [], none⟩ (sharedDisk first second)
      (.directory (sharedScenes first second)) = [] := by
    have lists : CheckOptions.obstacle? ⟨".", "scenes", [], none⟩ (sharedDisk first second) [] =
        none := by with_unfolding_all rfl
    rw [CheckOptions.unreadablePlaces, walked]
    simp [FileTree.isDirectory, lists]
  have files : [["a.tscn"], ["b.tscn"]].mapM (CheckOptions.sceneFile ⟨".", "scenes", [], none⟩) =
      .ok ["scenes/a.tscn", "scenes/b.tscn"] := by with_unfolding_all rfl
  have normal : ["scenes/a.tscn", "scenes/b.tscn"].map ProjectPath.normalize =
      ["scenes/a.tscn", "scenes/b.tscn"] := by decide +kernel
  rw [CheckOptions.discover_of_directory root start, ways, unread, files, Except.map,
    Project.ofScenes, normal, List.mergeSort_of_pairwise (by decide +kernel), List.map_nil,
    List.mergeSort_nil]
  with_unfolding_all rfl

/-- The report on a scene to which the script is attached. -/
def sharedReport (scene text : String) : PairReport :=
  checkTexts scene text (some ("hud.gd", sharedScript))

private theorem checkScene_sharedDisk {first second scene path text : String}
    (place : sharedProject.pathOf scene = path)
    (opens : (sharedDisk first second).openFault? path = none)
    (found : (sharedDisk first second).find path = .ok (.file text.toUTF8))
    (attached : (SceneFile.read text).rootScript? = some "res://hud.gd") :
    sharedProject.checkScene (sharedDisk first second) scene = sharedReport scene text := by
  have script : ProjectPath.ofScript scene "res://hud.gd" = "hud.gd" := by
    rw [ProjectPath.ofScript, if_pos (by decide +kernel)]
    decide +kernel
  have beside : sharedProject.pathOf "hud.gd" = "./hud.gd" := by decide +kernel
  have loads : (sharedDisk first second).openFault? "./hud.gd" = none := by
    with_unfolding_all rfl
  have code : (sharedDisk first second).find "./hud.gd" = .ok (.file sharedScript.toUTF8) := by
    with_unfolding_all rfl
  have read : (sharedDisk first second).read (sharedProject.pathOf scene) = .loaded text := by
    rw [place, Disk.read_eq_of_find opens found]
  have scripted : (sharedDisk first second).read
      (sharedProject.pathOf (ProjectPath.ofScript scene "res://hud.gd")) =
        .loaded sharedScript := by
    rw [script, beside, Disk.read_eq_of_find loads code]
  rw [Project.checkScene_eq_checkTexts read attached scripted, script, sharedReport]

private theorem run_sharedDisk {first second : String}
    (attached : (SceneFile.read first).rootScript? = some "res://hud.gd")
    (attached' : (SceneFile.read second).rootScript? = some "res://hud.gd")
    (expectations : List Expectation) :
    run (sharedDisk first second) "." ⟨schema, "scenes", [], expectations⟩ =
      .ok (.ofPairs [sharedReport "scenes/a.tscn" first, sharedReport "scenes/b.tscn" second]) := by
  have place : sharedProject.pathOf "scenes/a.tscn" = "./scenes/a.tscn" := by decide +kernel
  have place' : sharedProject.pathOf "scenes/b.tscn" = "./scenes/b.tscn" := by decide +kernel
  have opens : (sharedDisk first second).openFault? "./scenes/a.tscn" = none := by
    with_unfolding_all rfl
  have opens' : (sharedDisk first second).openFault? "./scenes/b.tscn" = none := by
    with_unfolding_all rfl
  have found : (sharedDisk first second).find "./scenes/a.tscn" = .ok (.file first.toUTF8) := by
    with_unfolding_all rfl
  have found' : (sharedDisk first second).find "./scenes/b.tscn" = .ok (.file second.toUTF8) := by
    with_unfolding_all rfl
  have report : sharedProject.check (sharedDisk first second) =
      .ofPairs [sharedProject.checkScene (sharedDisk first second) "scenes/a.tscn",
        sharedProject.checkScene (sharedDisk first second) "scenes/b.tscn"] := rfl
  have checked := CheckOptions.check_of_discover (ThreadPool.starts_unbounded none)
    (discover_sharedDisk first second)
  rw [run, checked, ← checkScene_sharedDisk place opens found attached,
    ← checkScene_sharedDisk place' opens' found' attached', ← report]
  rfl

/-- Of two scenes in order with one finding each, both findings are reported in order. -/
theorem diagnostics_ofPairs {pair pair' : PairReport} {finding finding' : Diagnostic}
    (scenes : pair.le pair' = true) (found : pair.diagnostics = [finding])
    (found' : pair'.diagnostics = [finding']) (findings : finding.le finding' = true) :
    (ProjectReport.ofPairs [pair, pair']).diagnostics = [finding, finding'] := by
  have pairs : [pair, pair'].mergeSort PairReport.le = [pair, pair'] :=
    List.mergeSort_of_pairwise (by simpa using scenes)
  have sorted : ([pair, pair'].map PairReport.sorted).flatMap PairReport.diagnostics =
      [finding, finding'] := by
    simp [PairReport.sorted, Diagnostic.sort, found, found']
  rw [ProjectReport.diagnostics, ProjectReport.ofPairs, pairs, sorted]
  exact List.mergeSort_of_pairwise (by simpa using findings)

/-- The finding in a scene that the reference on the first line of the script is unresolved. -/
def sharedFinding (scene : String) (suggestion : Option String) : Diagnostic :=
  (⟨1, "score", "Panel/Score", false⟩ : Script.Reference).unresolved suggestion scene "hud.gd"

/-- The script is attached to the scene, in which its reference is unresolved. -/
structure IsShared (text : String) (suggestion : Option String) : Prop where
  attached : (SceneFile.read text).rootScript? = some "res://hud.gd"
  found : ∀ scene ∈ ["scenes/a.tscn", "scenes/b.tscn"],
    (sharedReport scene text).diagnostics = [sharedFinding scene suggestion]

theorem isShared_scoreScene : IsShared scoreScene (some "Score") :=
  ⟨by decide +kernel, by decide +kernel⟩

theorem isShared_bareScene : IsShared bareScene none :=
  ⟨by decide +kernel, by decide +kernel⟩

/-- What is found in the two scenes is reported in their order. -/
theorem exists_run_sharedDisk {first second : String} {suggestion suggestion' : Option String}
    (front : IsShared first suggestion) (back : IsShared second suggestion')
    (expectations : List Expectation) :
    ∃ report, run (sharedDisk first second) "." ⟨schema, "scenes", [], expectations⟩ = .ok report ∧
      report.diagnostics.map Expectation.ofDiagnostic =
        [sharedExpectation suggestion, sharedExpectation suggestion'] := by
  refine ⟨_, run_sharedDisk front.attached back.attached expectations, ?_⟩
  have scenes : (sharedReport "scenes/a.tscn" first).le (sharedReport "scenes/b.tscn" second) =
      true := by
    change decide ("scenes/a.tscn" ≤ "scenes/b.tscn") = true
    decide +kernel
  rw [diagnostics_ofPairs scenes (front.found _ (by simp)) (back.found _ (by simp))
    (Location.le_iff.2 (.inr ⟨rfl, rfl⟩))]
  rfl

/-- The test case passes where the suggestion is made in the second scene, and it fails where none
is made. In the latter project the two findings do not differ. -/
theorem verify_sharedDisk :
    (∃ case report, load (sharedDisk bareScene scoreScene) "testcase.json" = .ok case ∧
      case.run (sharedDisk bareScene scoreScene) "." = .ok report ∧
      verify (sharedDisk bareScene scoreScene) "." "testcase.json" = .ok ()) ∧
    ∃ case report, load (sharedDisk bareScene bareScene) "testcase.json" = .ok case ∧
      case.run (sharedDisk bareScene bareScene) "." = .ok report ∧
      Expectation.IsDiscerned (report.diagnostics.map Expectation.ofDiagnostic) ∧
      verify (sharedDisk bareScene bareScene) "." "testcase.json" ≠ .ok () := by
  constructor
  · have loaded := load_sharedDisk bareScene scoreScene
    obtain ⟨report, checked, observed⟩ := exists_run_sharedDisk isShared_bareScene
      isShared_scoreScene [sharedExpectation none, sharedExpectation (some "Score")]
    refine ⟨_, report, loaded, checked, (verify_eq_ok_iff loaded checked).1.2 fun _ _ => ?_⟩
    rw [observed]
  · have loaded := load_sharedDisk bareScene bareScene
    obtain ⟨report, checked, observed⟩ := exists_run_sharedDisk isShared_bareScene
      isShared_bareScene [sharedExpectation none, sharedExpectation (some "Score")]
    have discerned :
        Expectation.IsDiscerned (report.diagnostics.map Expectation.ofDiagnostic) := by
      rw [observed, Expectation.IsDiscerned]
      simp
    obtain ⟨-, -, -, passes, -⟩ := verify_eq_ok_iff loaded checked
    refine ⟨_, report, loaded, checked, discerned, fun ok => ?_⟩
    have perm := (passes discerned).1 ok
    rw [observed] at perm
    exact absurd (perm.mem_iff.1 (List.mem_cons_of_mem _ List.mem_cons_self)) (by decide +kernel)

/-- Where the suggestion is made in the first scene the test case expects just what is found, but it
fails: it is written in another order than that of the report. -/
theorem not_verify_sharedDisk :
    ∃ case report, load (sharedDisk scoreScene bareScene) "testcase.json" = .ok case ∧
      case.run (sharedDisk scoreScene bareScene) "." = .ok report ∧
      case.expectations.Perm (report.diagnostics.map Expectation.ofDiagnostic) ∧
      verify (sharedDisk scoreScene bareScene) "." "testcase.json" ≠ .ok () := by
  have loaded := load_sharedDisk scoreScene bareScene
  obtain ⟨report, checked, observed⟩ := exists_run_sharedDisk isShared_scoreScene
    isShared_bareScene [sharedExpectation none, sharedExpectation (some "Score")]
  refine ⟨_, report, loaded, checked, ?_, fun passes => ?_⟩
  · rw [observed]
    exact List.Perm.swap _ _ []
  · rw [verify_eq loaded checked, compare_eq_ok_iff_filter, observed] at passes
    exact absurd (passes (.ofLine "hud.gd" 1) "UNRESOLVED_REFERENCE") (by decide +kernel)

end TestCase

end SceneAudit
