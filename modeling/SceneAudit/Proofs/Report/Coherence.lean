import SceneAudit.Proofs.Report.Dangling

/-!
# Coherence of a report

The report on a scene and its script has six parts, which are made one by one from the tree of the
scene and from what is found in the place of the script. They fit together: the verdict says whether
there is a tree, the findings hold one structural error for a scene without a tree and none for any
other, and the canonical paths and the check of the script go with the tree. No finding is lost or
made twice on the way into the report, and each has the severity of its kind.

## Main definitions

* `PairReport.kinds`: the kinds of the findings in a report.
* `Analysis.scriptFindings`: the findings about the script that may be attached.

## Main results

* `Analysis.filter_isStructural_sceneDiagnostics`: the structural finding about a scene.
* `Analysis.kinds_scriptDiagnostics`: the kinds of the findings about a script.
* `Analysis.scriptChecked_link_iff`: a script is checked if there is a tree and it was read.
* `Analysis.link_coherent`: the parts of a report fit together.
-/

namespace SceneAudit

open Scene Script

/-- The kinds of the findings in a report. -/
def PairReport.kinds (report : PairReport) : List Diagnostic.Kind :=
  report.diagnostics.map Diagnostic.kind

namespace Analysis

variable {analysis : Analysis} {script : Option AttachedScript} {scene text : String}
  {tree : SceneTree} {error : StructuralError} {kind : Diagnostic.Kind}

/-! ### Findings about a scene -/

/-- The structural finding about a scene is the one that says why it has no tree. -/
theorem filter_isStructural_sceneDiagnostics :
    ((ofText scene text).sceneDiagnostics.map Diagnostic.kind).filter
        Diagnostic.Kind.isStructural =
      ((ofText scene text).error?.map StructuralError.kind).toList := by
  have issues : (((ofText scene text).file.issues.map (ofIssue scene)).map
      Diagnostic.kind).filter Diagnostic.Kind.isStructural = [] := by
    rw [List.map_map]
    refine List.filter_eq_nil_iff.2 fun kind mem => ?_
    obtain ⟨issue, read, rfl⟩ := List.mem_map.1 mem
    have same : (Diagnostic.kind ∘ ofIssue scene) issue = issue.kind := rfl
    rcases SceneFile.kind_of_mem_issues read with eq | eq
    · exact same.trans eq ▸ Bool.false_ne_true
    · exact same.trans eq ▸ Bool.false_ne_true
  have implicit (records : List NodeRecord) : ((records.map (implicitChild scene)).map
      Diagnostic.kind).filter Diagnostic.Kind.isStructural = [] := by
    rw [List.map_map]
    refine List.filter_eq_nil_iff.2 fun kind mem => ?_
    obtain ⟨record, -, rfl⟩ := List.mem_map.1 mem
    exact Bool.false_ne_true
  have scenes : (ofText scene text).scene = scene := rfl
  rw [sceneDiagnostics, List.map_append, List.map_append, List.filter_append, List.filter_append,
    scenes, issues, implicit, List.nil_append, List.nil_append]
  cases (ofText scene text).error? with
  | none => rfl
  | some error =>
    have structural : (ofError scene error).kind.isStructural = true := error.isStructural_kind
    exact List.filter_eq_self.2 fun kind mem => List.mem_singleton.1 mem ▸ structural

/-- What is said of a script only is not said of a scene. -/
theorem count_sceneDiagnostics_eq_zero
    (about : kind ∈ [Diagnostic.Kind.scriptUnchecked, .scriptMissing, .scriptUnreadable,
      .unresolvedReference]) :
    ((ofText scene text).sceneDiagnostics.map Diagnostic.kind).count kind = 0 := by
  refine List.count_eq_zero.2 fun mem => ?_
  obtain ⟨diagnostic, found, rfl⟩ := List.mem_map.1 mem
  have others : ∀ kind ∈ [Diagnostic.Kind.scriptUnchecked, .scriptMissing, .scriptUnreadable,
      .unresolvedReference], ¬(kind.isStructural = true ∨ kind = .malformedDeclaration ∨
        kind = .scriptResourceUnresolved ∨ kind = .implicitRootChild) := by
    decide
  exact others _ about (kind_of_mem_sceneDiagnostics found)

theorem severity_of_mem_sceneDiagnostics {diagnostic : Diagnostic}
    (h : diagnostic ∈ analysis.sceneDiagnostics) :
    diagnostic.severity = diagnostic.kind.severity := by
  rw [sceneDiagnostics, List.mem_append, List.mem_append, List.mem_map, List.mem_map,
    Option.mem_toList, Option.map_eq_some_iff] at h
  rcases h with (⟨issue, -, rfl⟩ | ⟨record, -, rfl⟩) | ⟨error, -, rfl⟩
  · rfl
  · rfl
  · rfl

/-! ### Findings about a script -/

/-- The findings about the attached script, none if no script is attached. -/
def scriptFindings (analysis : Analysis) (script : Option AttachedScript) : List Diagnostic :=
  (script.map analysis.scriptDiagnostics).getD []

/-- Without a tree the one finding about a script is that it is not checked. -/
theorem kinds_scriptDiagnostics_of_error (fails : analysis.outcome = .error error)
    (script : AttachedScript) :
    (analysis.scriptDiagnostics script).map Diagnostic.kind = [.scriptUnchecked] := by
  rw [scriptDiagnostics, index?_of_error fails]
  rfl

/-- With a tree the findings about a script are that it is missing, that it cannot be read, or one
for each of its dangling references. -/
theorem kinds_scriptDiagnostics (formed : analysis.outcome = .ok tree) (script : AttachedScript) :
    (analysis.scriptDiagnostics script).map Diagnostic.kind =
      match script.source with
      | .missing => [.scriptMissing]
      | .unreadable _ => [.scriptUnreadable]
      | .loaded code =>
        ((references code).filter fun reference =>
          reference.IsDangling (PathIndex.ofTree tree).paths).map
            fun _ => .unresolvedReference := by
  rw [scriptDiagnostics, index?_of_ok formed]
  cases script.source with
  | missing | unreadable => rfl
  | loaded code =>
    simp only [PathIndex.validate_eq, List.map_map]
    rfl

private theorem filter_isStructural_scriptFindings :
    ((analysis.scriptFindings script).map Diagnostic.kind).filter
      Diagnostic.Kind.isStructural = [] := by
  cases script with
  | none => rfl
  | some script =>
    change ((analysis.scriptDiagnostics script).map Diagnostic.kind).filter _ = []
    cases found : analysis.outcome with
    | error error =>
      rw [kinds_scriptDiagnostics_of_error found]
      rfl
    | ok tree =>
      rw [kinds_scriptDiagnostics found]
      cases script.source with
      | missing | unreadable => rfl
      | loaded code =>
        refine List.filter_eq_nil_iff.2 fun kind mem => ?_
        obtain ⟨reference, -, rfl⟩ := List.mem_map.1 mem
        exact Bool.false_ne_true

theorem severity_of_mem_scriptFindings {diagnostic : Diagnostic}
    (h : diagnostic ∈ analysis.scriptFindings script) :
    diagnostic.severity = diagnostic.kind.severity := by
  cases script with
  | none => contradiction
  | some script =>
    change diagnostic ∈ analysis.scriptDiagnostics script at h
    unfold scriptDiagnostics at h
    split at h
    · exact List.mem_singleton.1 h ▸ rfl
    · exact List.mem_singleton.1 h ▸ rfl
    · exact List.mem_singleton.1 h ▸ rfl
    · rw [PathIndex.validate_eq] at h
      obtain ⟨reference, -, rfl⟩ := List.mem_map.1 h
      rfl

/-! ### The report -/

/-- A report holds the findings about the scene and those about the script, and no others. -/
theorem perm_diagnostics_link :
    (analysis.link script).diagnostics.Perm
      (analysis.sceneDiagnostics ++ analysis.scriptFindings script) :=
  Diagnostic.sort_perm _

theorem perm_kinds_link :
    (analysis.link script).kinds.Perm
      (analysis.sceneDiagnostics.map Diagnostic.kind ++
        (analysis.scriptFindings script).map Diagnostic.kind) := by
  rw [← List.map_append]
  exact perm_diagnostics_link.map Diagnostic.kind

/-- The structural finding of a report is the one that says why the scene has no tree. -/
theorem filter_isStructural_link :
    ((ofText scene text).link script).kinds.filter Diagnostic.Kind.isStructural =
      ((ofText scene text).error?.map StructuralError.kind).toList := by
  have all : ((ofText scene text).link script).kinds.Perm _ := perm_kinds_link
  have perm := all.filter Diagnostic.Kind.isStructural
  rw [List.filter_append, filter_isStructural_sceneDiagnostics,
    filter_isStructural_scriptFindings, List.append_nil] at perm
  cases found : (ofText scene text).error? with
  | none =>
    rw [found] at perm
    exact List.perm_nil.1 perm
  | some error =>
    rw [found] at perm
    exact List.perm_singleton.1 perm

/-- What is said of a script only is said as often as it is said of the attached one. -/
private theorem count_link
    (about : kind ∈ [Diagnostic.Kind.scriptUnchecked, .scriptMissing, .scriptUnreadable,
      .unresolvedReference]) :
    ((ofText scene text).link script).kinds.count kind =
      (((ofText scene text).scriptFindings script).map Diagnostic.kind).count kind := by
  rw [perm_kinds_link.count_eq, List.count_append, count_sceneDiagnostics_eq_zero about,
    Nat.zero_add]

/-- A script is checked if there is a tree and the script was read. -/
theorem scriptChecked_link_iff :
    (analysis.link script).scriptChecked = true ↔
      analysis.verdict = .valid ∧ ∃ file code, script = some ⟨file, .loaded code⟩ := by
  have checked : (analysis.link script).scriptChecked = script.any analysis.checks := rfl
  rw [checked, verdict_eq_valid_iff]
  cases script with
  | none => simp
  | some script =>
    obtain ⟨file, source⟩ := script
    rw [Option.any_some, checks]
    cases found : analysis.outcome with
    | error error => simp [index?_of_error found]
    | ok tree => cases source <;> simp [index?_of_ok found]

/-- **The parts of a report fit together.** The verdict is that the scene is valid if its records
form a tree, and otherwise names the kind of the error. Without a tree the error is the one
structural finding, there are no canonical paths, and a script is not checked, of which it is
reported once and of which nothing else is reported. With a tree there is no structural finding, and
the canonical paths are those of the path index. A script is checked if there is a tree and the
script was read. The findings are in the order of their locations, they are those about the scene
and those about the script, each as often as it was made, and each has the severity of its kind. The
findings about a script of a valid scene are that it is missing, that it cannot be read, or one for
each of its dangling references. -/
theorem link_coherent (scene text : String) (script : Option AttachedScript) :
    let outcome := SceneTree.ofRecords (SceneFile.read text).records
    let report := (ofText scene text).link script
    (∀ violation, report.verdict = .invalid violation ↔
      ∃ error, outcome = .error error ∧ error.kind = violation) ∧
    (report.verdict = .valid ↔ ∃ tree, outcome = .ok tree) ∧
    (∀ violation, report.verdict = .invalid violation →
      report.kinds.filter Diagnostic.Kind.isStructural = [violation] ∧
        report.canonicalPaths = [] ∧ report.scriptChecked = false ∧
        (script.isSome → report.kinds.count .scriptUnchecked = 1 ∧
          report.kinds.count .scriptMissing = 0 ∧ report.kinds.count .scriptUnreadable = 0 ∧
          report.kinds.count .unresolvedReference = 0)) ∧
    (∀ tree, outcome = .ok tree →
      report.kinds.filter Diagnostic.Kind.isStructural = [] ∧
        report.canonicalPaths = (PathIndex.ofTree tree).paths) ∧
    (report.scriptChecked = true ↔
      report.verdict = .valid ∧ ∃ file code, script = some ⟨file, .loaded code⟩) ∧
    (report.diagnostics.Pairwise fun left right => left.location.le right.location = true) ∧
    report.diagnostics.Perm
      ((ofText scene text).sceneDiagnostics ++ (ofText scene text).scriptFindings script) ∧
    (∀ diagnostic ∈ report.diagnostics, diagnostic.severity = diagnostic.kind.severity) ∧
    (script = none → (ofText scene text).scriptFindings script = []) ∧
    ∀ tree attached, outcome = .ok tree → script = some attached →
      ((ofText scene text).scriptFindings script).map Diagnostic.kind =
        match attached.source with
        | .missing => [.scriptMissing]
        | .unreadable _ => [.scriptUnreadable]
        | .loaded code =>
          ((references code).filter fun reference =>
            reference.IsDangling report.canonicalPaths).map fun _ => .unresolvedReference := by
  intro outcome report
  have own : report.verdict = (ofText scene text).verdict := rfl
  refine ⟨fun violation => verdict_eq_invalid_iff, verdict_eq_valid_iff, ?_, ?_,
    scriptChecked_link_iff, Diagnostic.pairwise_sort _, perm_diagnostics_link, ?_, ?_, ?_⟩
  · intro violation invalid
    obtain ⟨error, fails, rfl⟩ := verdict_eq_invalid_iff.1 (own.symm.trans invalid)
    refine ⟨?_, canonicalPaths_of_error fails, ?_, ?_⟩
    · rw [filter_isStructural_link, error?_of_error fails]
      rfl
    · rw [Bool.eq_false_iff]
      intro checked
      have valid := (scriptChecked_link_iff.1 checked).1
      rw [← own, invalid] at valid
      contradiction
    · intro given
      obtain ⟨attached, rfl⟩ := Option.isSome_iff_exists.1 given
      have kinds := kinds_scriptDiagnostics_of_error fails attached
      refine ⟨?_, ?_, ?_, ?_⟩ <;>
      · rw [count_link (by decide), scriptFindings, Option.map_some, Option.getD_some, kinds]
        decide
  · intro tree formed
    refine ⟨?_, canonicalPaths_of_ok formed⟩
    rw [filter_isStructural_link, error?_of_ok formed]
    rfl
  · intro diagnostic mem
    rcases List.mem_append.1 (perm_diagnostics_link.mem_iff.1 mem) with found | found
    · exact severity_of_mem_sceneDiagnostics found
    · exact severity_of_mem_scriptFindings found
  · rintro rfl
    rfl
  · rintro tree attached formed rfl
    have paths : report.canonicalPaths = (PathIndex.ofTree tree).paths :=
      canonicalPaths_of_ok formed
    rw [paths]
    exact kinds_scriptDiagnostics formed attached

end Analysis

end SceneAudit
