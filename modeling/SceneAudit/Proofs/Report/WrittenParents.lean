import SceneAudit.Proofs.Report.Coherence

/-!
# Children of the root that name no parent

A node other than the first that names no parent is a child of the root, just as if it named the
root as its parent. Whether the parent is written out makes no difference to the tree, to the reason
why there is none, or to the canonical paths; all that it saves is the finding that says so,
wherever this finding stands among the others.

## Main definitions

* `Scene.NodeRecord.rooted`, `SceneFile.rooted`: a record and a scene file in which the root is
  written out as a parent.

## Main results

* `SceneTree.Draft.addAll_rooted`, `SceneTree.ofRecords_rooted`: records form the same tree, or fail
  in the same way, with the parents written out.
* `Analysis.sceneDiagnostics_rooted`: the findings about the scene without those about missing
  parents.
* `Analysis.link_rooted`: the report is the same without those findings.
-/

namespace SceneAudit

open Scene

/-! ### Parents written out -/

/-- The record with the root as its parent if it names none. -/
def Scene.NodeRecord.rooted (record : NodeRecord) : NodeRecord :=
  { record with parent := if record.parent = .absent then .root else record.parent }

/-- The file in which every node but the first names a parent, the root where it named none. -/
def SceneFile.rooted (file : SceneFile) : SceneFile :=
  { file with records := file.records.take 1 ++ (file.records.drop 1).map NodeRecord.rooted }

/-! ### The tree -/

namespace SceneTree

namespace Draft

variable {draft : Draft} {record : NodeRecord} {later : List NodeRecord}

private theorem any_name_rooted (name : String) :
    ((later.map NodeRecord.rooted).any fun other => other.name == name) =
      later.any fun other => other.name == name := by
  rw [List.any_map]
  rfl

private theorem parentOf_rooted :
    draft.parentOf record.rooted (later.map NodeRecord.rooted) = draft.parentOf record later := by
  have name : record.rooted.name = record.name := rfl
  have line : record.rooted.line = record.line := rfl
  simp only [parentOf, missingParent, any_name_rooted, name, line]
  cases declared : record.parent with
  | absent | root | node parent => simp [NodeRecord.rooted, declared]

private theorem add_rooted :
    draft.add record.rooted (later.map NodeRecord.rooted) = draft.add record later := by
  rw [add, add, parentOf_rooted]
  rfl

theorem addAll_rooted (rest : List NodeRecord) :
    addAll (later.map NodeRecord.rooted) draft (rest.map NodeRecord.rooted) =
      addAll later draft rest := by
  induction rest generalizing draft with
  | nil => rfl
  | cons record rest ih =>
    rw [List.map_cons, addAll, addAll, ← List.map_append, add_rooted]
    cases draft.add record (rest ++ later) with
    | error error => rfl
    | ok next => exact ih

end Draft

/-- Records form the same tree, or fail in the same way, with the parents written out. -/
theorem ofRecords_rooted (file : SceneFile) :
    ofRecords file.rooted.records = ofRecords file.records := by
  obtain ⟨records, issues⟩ := file
  cases records with
  | nil => rfl
  | cons first rest =>
    have added : Draft.addAll [] (Draft.start first) (rest.map NodeRecord.rooted) =
        Draft.addAll [] (Draft.start first) rest := @Draft.addAll_rooted _ [] rest
    have listed : (SceneFile.rooted ⟨first :: rest, issues⟩).records =
        first :: rest.map NodeRecord.rooted := rfl
    rw [listed, ofRecords, ofRecords, added]

end SceneTree

/-! ### The findings -/

/-- The findings other than those about nodes that name no parent. -/
def Diagnostic.withoutImplicit (diagnostics : List Diagnostic) : List Diagnostic :=
  diagnostics.filter fun diagnostic => diagnostic.kind ≠ .implicitRootChild

theorem Diagnostic.withoutImplicit_append (front back : List Diagnostic) :
    withoutImplicit (front ++ back) = withoutImplicit front ++ withoutImplicit back :=
  List.filter_append front back

theorem Diagnostic.withoutImplicit_eq_self {diagnostics : List Diagnostic}
    (others : ∀ diagnostic ∈ diagnostics, diagnostic.kind ≠ .implicitRootChild) :
    withoutImplicit diagnostics = diagnostics :=
  List.filter_eq_self.2 fun diagnostic mem => decide_eq_true (others diagnostic mem)

/-- The findings about nodes that name no parent may be left out before or after sorting. -/
private theorem Diagnostic.sort_withoutImplicit (diagnostics : List Diagnostic) :
    sort (withoutImplicit diagnostics) = withoutImplicit (sort diagnostics) :=
  StableSort.mergeSort_filter le_trans le_total _ diagnostics

private theorem Scene.NodeRecord.parent_rooted_ne_absent (record : NodeRecord) :
    record.rooted.parent ≠ .absent := by
  rw [rooted]
  split
  · exact ParentRef.noConfusion
  · assumption

private theorem SceneFile.head?_records_rooted (file : SceneFile) :
    file.rooted.records.head? = file.records.head? := by
  obtain ⟨records, issues⟩ := file
  cases records with
  | nil | cons first rest => rfl

private theorem SceneFile.drop_records_rooted (file : SceneFile) :
    file.rooted.records.drop 1 = (file.records.drop 1).map NodeRecord.rooted := by
  obtain ⟨records, issues⟩ := file
  cases records with
  | nil | cons first rest => rfl

namespace Analysis

variable {analysis : Analysis} {text other scene : String} {script : Option AttachedScript}

/-- No finding about a script is about a node that names no parent. -/
theorem withoutImplicit_scriptFindings :
    Diagnostic.withoutImplicit (analysis.scriptFindings script) =
      analysis.scriptFindings script := by
  refine Diagnostic.withoutImplicit_eq_self fun diagnostic mem same => ?_
  have listed := List.mem_map_of_mem (f := Diagnostic.kind) mem
  rw [same] at listed
  cases script with
  | none => contradiction
  | some script =>
    change _ ∈ (analysis.scriptDiagnostics script).map Diagnostic.kind at listed
    cases found : analysis.outcome with
    | error error =>
      rw [kinds_scriptDiagnostics_of_error found] at listed
      contradiction
    | ok tree =>
      rw [kinds_scriptDiagnostics found] at listed
      split at listed
      · contradiction
      · contradiction
      · obtain ⟨reference, -, eq⟩ := List.mem_map.1 listed
        contradiction

/-- The findings about the scene apart from those about nodes that name no parent. -/
theorem withoutImplicit_sceneDiagnostics :
    Diagnostic.withoutImplicit (ofText scene text).sceneDiagnostics =
      (SceneFile.read text).issues.map (ofIssue scene) ++
        ((ofText scene text).error?.map (ofError scene)).toList := by
  have issues : Diagnostic.withoutImplicit ((SceneFile.read text).issues.map (ofIssue scene)) =
      (SceneFile.read text).issues.map (ofIssue scene) := by
    refine Diagnostic.withoutImplicit_eq_self fun diagnostic mem => ?_
    obtain ⟨issue, read, rfl⟩ := List.mem_map.1 mem
    have same : (ofIssue scene issue).kind = issue.kind := rfl
    rcases SceneFile.kind_of_mem_issues read with eq | eq <;>
    · rw [same, eq]
      decide
  have implicit (records : List NodeRecord) :
      Diagnostic.withoutImplicit (records.map (implicitChild scene)) = [] := by
    refine List.filter_eq_nil_iff.2 fun diagnostic mem => ?_
    obtain ⟨record, -, rfl⟩ := List.mem_map.1 mem
    exact Bool.false_ne_true
  have error : Diagnostic.withoutImplicit
      ((ofText scene text).error?.map (ofError scene)).toList =
        ((ofText scene text).error?.map (ofError scene)).toList := by
    refine Diagnostic.withoutImplicit_eq_self fun diagnostic mem same => ?_
    rw [Option.mem_toList, Option.map_eq_some_iff] at mem
    obtain ⟨error, -, rfl⟩ := mem
    have structural := error.isStructural_kind
    rw [show error.kind = .implicitRootChild from same] at structural
    contradiction
  have scenes : (ofText scene text).scene = scene := rfl
  have read : (ofText scene text).file = SceneFile.read text := rfl
  rw [sceneDiagnostics, Diagnostic.withoutImplicit_append, Diagnostic.withoutImplicit_append,
    scenes, read, issues, implicit, error, List.append_nil]

section Rooted

variable (written : SceneFile.read other = (SceneFile.read text).rooted)

include written

theorem outcome_rooted : (ofText scene other).outcome = (ofText scene text).outcome := by
  change SceneTree.ofRecords (SceneFile.read other).records = _
  rw [written, SceneTree.ofRecords_rooted]
  rfl

theorem index?_rooted : (ofText scene other).index? = (ofText scene text).index? := by
  rw [index?, index?, tree?, tree?, outcome_rooted written]

/-- With the parents written out, the findings about the scene are those that are not about missing
parents. -/
theorem sceneDiagnostics_rooted :
    (ofText scene other).sceneDiagnostics =
      Diagnostic.withoutImplicit (ofText scene text).sceneDiagnostics := by
  have issues : (SceneFile.read other).issues = (SceneFile.read text).issues := by
    rw [written]
    rfl
  have named : ((SceneFile.read other).records.drop 1).filter
      (fun record => record.parent = .absent) = [] := by
    rw [written, SceneFile.drop_records_rooted]
    refine List.filter_eq_nil_iff.2 fun record mem absent => ?_
    obtain ⟨unwritten, -, rfl⟩ := List.mem_map.1 mem
    exact unwritten.parent_rooted_ne_absent (of_decide_eq_true absent)
  have error : (ofText scene other).error? = (ofText scene text).error? := by
    rw [error?, error?, outcome_rooted written]
  have read : (ofText scene other).file = SceneFile.read other := rfl
  have scenes : (ofText scene other).scene = scene := rfl
  rw [withoutImplicit_sceneDiagnostics, sceneDiagnostics, read, scenes, issues, named, error,
    List.map_nil, List.append_nil]

/-- What is found about a script is the same with the parents written out. -/
theorem scriptFindings_rooted (scene : String) (script : Option AttachedScript) :
    (ofText scene other).scriptFindings script = (ofText scene text).scriptFindings script := by
  have place : (ofText scene other).rootLocation = (ofText scene text).rootLocation := by
    have first : (SceneFile.read other).records.head? = (SceneFile.read text).records.head? := by
      rw [written, SceneFile.head?_records_rooted]
    exact congrArg (fun first => Location.mk scene (Option.map NodeRecord.line first)) first
  cases script with
  | none => rfl
  | some script =>
    change (ofText scene other).scriptDiagnostics script =
      (ofText scene text).scriptDiagnostics script
    rw [scriptDiagnostics, scriptDiagnostics, index?_rooted written, place]
    rfl

end Rooted

/-- **A node without a parent is one under the root.** If two scene files differ only in that the
second one writes the root as the parent of every node but the first that names none, then they have
the same verdict, the same tree or the same reason why there is none, and the same canonical paths,
and with any script the report on the second one is the report on the first one without the findings
about nodes that name no parent. -/
theorem link_rooted (text other scene : String) (script : Option AttachedScript)
    (written : SceneFile.read other = (SceneFile.read text).rooted) :
    (ofText scene other).verdict = (ofText scene text).verdict ∧
      (ofText scene other).outcome = (ofText scene text).outcome ∧
      (ofText scene other).canonicalPaths = (ofText scene text).canonicalPaths ∧
      (ofText scene other).link script =
        { (ofText scene text).link script with
          diagnostics := ((ofText scene text).link script).diagnostics.filter fun diagnostic =>
            diagnostic.kind ≠ .implicitRootChild } := by
  have outcome : (ofText scene other).outcome = (ofText scene text).outcome :=
    outcome_rooted written
  have verdict : (ofText scene other).verdict = (ofText scene text).verdict := by
    rw [Analysis.verdict, Analysis.verdict, outcome]
  have paths : (ofText scene other).canonicalPaths = (ofText scene text).canonicalPaths := by
    rw [canonicalPaths, canonicalPaths, index?_rooted written]
  have checks : (ofText scene other).checks = (ofText scene text).checks := by
    funext attached
    rw [Analysis.checks, Analysis.checks, index?_rooted written]
  have diagnostics : ((ofText scene other).link script).diagnostics =
      Diagnostic.withoutImplicit ((ofText scene text).link script).diagnostics := by
    have listed (text : String) : ((ofText scene text).link script).diagnostics =
        Diagnostic.sort ((ofText scene text).sceneDiagnostics ++
          (ofText scene text).scriptFindings script) := rfl
    rw [listed, listed, ← Diagnostic.sort_withoutImplicit, Diagnostic.withoutImplicit_append,
      withoutImplicit_scriptFindings, sceneDiagnostics_rooted written,
      scriptFindings_rooted written]
  refine ⟨verdict, outcome, paths,
    (PairReport.mk.injEq ..).mpr ⟨rfl, rfl, verdict, ?_, paths, diagnostics⟩⟩
  exact congrArg (Option.any · script) checks

/-- A scene whose second node names no parent and attaches a script that is not declared. -/
def barePanel : String :=
  "[node name=\"Hud\"]\n[node name=\"Panel\"]\nscript = ExtResource(\"3\")\n" ++
    "[node name=\"Label\" parent=\"Panel\"]\n"

/-- The same scene with the parent written out. -/
def rootedPanel : String :=
  "[node name=\"Hud\"]\n[node name=\"Panel\" parent=\".\"]\nscript = ExtResource(\"3\")\n" ++
    "[node name=\"Label\" parent=\"Panel\"]\n"

/-- What is declared in these scenes, and what is found on reading them. -/
def panelFile (parent : ParentRef) : SceneFile where
  records :=
    [⟨"Hud", none, .absent, none, 1⟩, ⟨"Panel", none, parent, none, 2⟩,
      ⟨"Label", none, .node "Panel", none, 4⟩]
  issues := [.unresolvedResource ⟨"Panel", none, parent, none, 2⟩ "3"]

/-- The finding about the missing parent stands at the line of another one, which is kept. -/
theorem link_rooted_panel :
    SceneFile.read rootedPanel = (SceneFile.read barePanel).rooted ∧
      (ofText "hud.tscn" barePanel).sceneDiagnostics.map
          (fun diagnostic => (diagnostic.location.line, diagnostic.kind)) =
        [(some 2, .scriptResourceUnresolved), (some 2, .implicitRootChild)] ∧
      ((ofText "hud.tscn" rootedPanel).link (some ⟨"hud.gd", .missing⟩)).diagnostics =
        ((ofText "hud.tscn" barePanel).link (some ⟨"hud.gd", .missing⟩)).diagnostics.filter
          fun diagnostic => diagnostic.kind ≠ .implicitRootChild := by
  have bare : SceneFile.read barePanel = panelFile .absent := by decide +kernel
  have rooted : SceneFile.read rootedPanel = panelFile .root := by decide +kernel
  have written : SceneFile.read rootedPanel = (SceneFile.read barePanel).rooted := by
    rw [bare, rooted]
    rfl
  have kinds : (ofText "hud.tscn" barePanel).sceneDiagnostics.map
      (fun diagnostic => (diagnostic.location.line, diagnostic.kind)) =
        [(some 2, .scriptResourceUnresolved), (some 2, .implicitRootChild)] := by
    simp only [ofText, bare]
    decide +kernel
  have same := link_rooted barePanel rootedPanel "hud.tscn" (some ⟨"hud.gd", .missing⟩) written
  refine ⟨written, kinds, ?_⟩
  rw [same.2.2.2]

end Analysis

end SceneAudit
