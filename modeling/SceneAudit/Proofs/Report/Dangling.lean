import SceneAudit.Proofs.Scene.Reading
import SceneAudit.Proofs.StableSort
import SceneAudit.Proofs.Tree.Traversal

/-!
# Dangling references

The one question that a report on a scene and its script has to answer is which references of the
script stand for no node of the scene. The answer is given in terms of the canonical paths that the
report lists: a reference dangles if it is none of them and, should it have no slash, the last
segment of none of them either. The findings about unresolved references are those of the dangling
references, one for each and in their order, whatever else was found and although all findings are
sorted.

## Main definitions

* `Script.Reference.IsDangling`: a reference that stands for none of the canonical paths.

## Main results

* `PathIndex.resolve_eq_unresolved_iff`: a reference is unresolved if it dangles.
* `Diagnostic.filter_sort`: sorting does not touch findings that are in order already.
* `checkTexts_unresolved`: the findings about unresolved references are those of the dangling ones.
-/

namespace SceneAudit

open Scene Script

/-! ### References -/

/-- The reference is none of the paths and, without slashes, no last segment of one of them. -/
def Script.Reference.IsDangling (reference : Reference) (paths : List String) : Prop :=
  reference.path ∉ paths ∧
    ¬('/' ∉ reference.path.toList ∧ ∃ path ∈ paths, Text.finalSegment path = reference.path)

instance (reference : Reference) (paths : List String) : Decidable (reference.IsDangling paths) :=
  inferInstanceAs (Decidable (_ ∧ _))

namespace PathIndex

variable {index : PathIndex}

/-- A reference is unresolved if it dangles, and carries the path that is suggested for it. -/
theorem resolve_eq_unresolved_iff {reference : Reference} {suggestion : Option String} :
    index.resolve reference.path = .unresolved suggestion ↔
      reference.IsDangling index.paths ∧ suggestion = index.suggest? reference.path := by
  rw [Reference.IsDangling, ← get?_eq_none_iff, ← map_withFinalSegment_ne_nil_iff, resolve]
  split
  · rename_i id found
    simp [found]
  · rename_i missing
    dsimp only
    split
    · rename_i bare
      simp [bare]
    · rename_i other
      simp only [Resolution.unresolved.injEq, missing, other, not_false_eq_true, and_self,
        true_and]
      exact eq_comm

/-- The findings about references are those of the dangling ones. -/
theorem validate_eq (references : List Reference) (scene script : String) :
    index.validate references scene script =
      (references.filter fun reference => reference.IsDangling index.paths).map fun reference =>
        reference.unresolved (index.suggest? reference.path) scene script := by
  induction references with
  | nil => rfl
  | cons reference rest ih =>
    rw [validate, List.filterMap_cons, ← validate, ih, List.filter_cons]
    by_cases dangling : reference.IsDangling index.paths
    · rw [resolve_eq_unresolved_iff.2 ⟨dangling, rfl⟩]
      simp [dangling]
    · have resolved (suggestion : Option String) :
          index.resolve reference.path ≠ .unresolved suggestion :=
        fun eq => dangling (resolve_eq_unresolved_iff.1 eq).1
      cases found : index.resolve reference.path with
      | unresolved suggestion => exact absurd found (resolved suggestion)
      | exact id => simp [dangling]
      | bareName ids => simp [dangling]

end PathIndex

/-! ### Findings -/

/-- Sorting does not touch the findings of some sort if they are in order already. -/
theorem Diagnostic.filter_sort {diagnostics : List Diagnostic} {p : Diagnostic → Bool}
    (ordered : (diagnostics.filter p).Pairwise fun left right => left.le right = true) :
    (sort diagnostics).filter p = diagnostics.filter p :=
  StableSort.filter_mergeSort le_trans le_total ordered

/-! ### Reports -/

/-- The findings about unresolved references, in the order of the report. -/
def PairReport.unresolved (report : PairReport) : List Diagnostic :=
  report.diagnostics.filter fun diagnostic => diagnostic.kind = .unresolvedReference

section Reports

variable {references : List Reference} {index : PathIndex} {scene text script code : String}

theorem kind_of_mem_validate {diagnostic : Diagnostic}
    (h : diagnostic ∈ index.validate references scene script) :
    diagnostic.kind = .unresolvedReference := by
  rw [PathIndex.validate_eq] at h
  obtain ⟨reference, -, rfl⟩ := List.mem_map.1 h
  rfl

/-- The findings about the references of a script are in order. -/
private theorem pairwise_validate
    (ordered : references.Pairwise fun left right => left.line < right.line) :
    (index.validate references scene script).Pairwise fun left right =>
      left.le right = true := by
  rw [PathIndex.validate_eq, List.pairwise_map]
  refine (ordered.filter _).imp fun {left right} lt => ?_
  refine Location.le_iff.2 (.inr ⟨rfl, ?_⟩)
  exact decide_eq_true (Nat.le_of_lt lt)

private theorem diagnostics_checkTexts (found : (Analysis.ofText scene text).index? = some index) :
    (checkTexts scene text (some (script, code))).diagnostics =
      Diagnostic.sort ((Analysis.ofText scene text).sceneDiagnostics ++
        index.validate (Script.references code) scene script) := by
  have checked : (Analysis.ofText scene text).scriptDiagnostics ⟨script, .loaded code⟩ =
      index.validate (Script.references code) scene script := by
    rw [Analysis.scriptDiagnostics, found]
    rfl
  rw [← checked]
  rfl

/-- The findings about unresolved references are those about the references of the script. -/
theorem unresolved_checkTexts (found : (Analysis.ofText scene text).index? = some index) :
    (checkTexts scene text (some (script, code))).unresolved =
      index.validate (Script.references code) scene script := by
  have others : ((Analysis.ofText scene text).sceneDiagnostics.filter fun diagnostic =>
      diagnostic.kind = .unresolvedReference) = [] := by
    refine List.filter_eq_nil_iff.2 fun diagnostic mem => ?_
    simpa using Analysis.kind_ne_unresolvedReference mem
  have own : ((index.validate (Script.references code) scene script).filter fun diagnostic =>
      diagnostic.kind = .unresolvedReference) =
        index.validate (Script.references code) scene script := by
    refine List.filter_eq_self.2 fun diagnostic mem => ?_
    simpa using kind_of_mem_validate mem
  rw [PairReport.unresolved, diagnostics_checkTexts found, Diagnostic.filter_sort]
  · rw [List.filter_append, others, own, List.nil_append]
  · rw [List.filter_append, others, own, List.nil_append]
    exact pairwise_validate (pairwise_line_references code)

end Reports

/-- **No false alarm and no dangling reference missed.** The report on a valid scene and its script
has a finding about an unresolved reference for each dangling reference and for no other, in the
order of the script. It is an error, stands at the line of the reference in the script, and carries
the path that the index of the scene suggests. -/
theorem checkTexts_unresolved (scene text script code : String)
    (valid : (Analysis.ofText scene text).verdict = .valid) :
    ∃ index, (Analysis.ofText scene text).index? = some index ∧
      let report := checkTexts scene text (some (script, code))
      let dangling := (references code).filter fun reference =>
        reference.IsDangling report.canonicalPaths
      report.verdict = .valid ∧ report.canonicalPaths = index.paths ∧
        report.unresolved = dangling.map (fun reference =>
          reference.unresolved (index.suggest? reference.path) scene script) ∧
        report.unresolved.map
            (fun finding => (finding.severity, finding.location, finding.suggestion)) =
          dangling.map fun reference =>
            (.error, ⟨script, some reference.line⟩, index.suggest? reference.path) := by
  obtain ⟨tree, formed⟩ := Analysis.verdict_eq_valid_iff.1 valid
  have found : (Analysis.ofText scene text).index? = some (PathIndex.ofTree tree) := by
    rw [Analysis.index?, Analysis.tree?, formed]
    rfl
  have paths : (checkTexts scene text (some (script, code))).canonicalPaths =
      (PathIndex.ofTree tree).paths := by
    change (Analysis.ofText scene text).canonicalPaths = _
    rw [Analysis.canonicalPaths, found]
    rfl
  refine ⟨_, found, valid, paths, ?_, ?_⟩
  · rw [unresolved_checkTexts found, PathIndex.validate_eq, paths]
  · rw [unresolved_checkTexts found, PathIndex.validate_eq, List.map_map, paths]
    rfl

/-- A scene with two nodes below its root. -/
def panelScene : String :=
  "[node name=\"Hud\"]\n[node name=\"Panel\" parent=\".\"]\n" ++
    "[node name=\"Label\" parent=\"Panel\"]\n"

/-- A script with a dangling reference between one by path and one by name. -/
def panelScript : String :=
  "@onready var panel = $Panel\nvar title: Label = $Panel/Title\nvar label = $Label\n"

theorem checkTexts_unresolved_panel :
    (Analysis.ofText "hud.tscn" panelScene).verdict = .valid ∧
      (checkTexts "hud.tscn" panelScene (some ("hud.gd", panelScript))).unresolved.map
        Diagnostic.location = [⟨"hud.gd", some 2⟩] := by
  have valid : (Analysis.ofText "hud.tscn" panelScene).verdict = .valid := by decide +kernel
  obtain ⟨index, -, -, -, -, faces⟩ :=
    checkTexts_unresolved "hud.tscn" panelScene "hud.gd" panelScript valid
  have dangling : ((references panelScript).filter fun reference => reference.IsDangling
      (checkTexts "hud.tscn" panelScene (some ("hud.gd", panelScript))).canonicalPaths).map
        Reference.line = [2] := by
    decide +kernel
  refine ⟨valid, ?_⟩
  have locations := congrArg (List.map fun face => face.2.1) faces
  rw [List.map_map, List.map_map] at locations
  have lines := congrArg (List.map fun line => (⟨"hud.gd", some line⟩ : Location)) dangling
  rw [List.map_map] at lines
  exact locations.trans lines

end SceneAudit
