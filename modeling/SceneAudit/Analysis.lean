import SceneAudit.Report
import SceneAudit.Resolution
import SceneAudit.Scene.File
import SceneAudit.Script.Reference
import SceneAudit.Source

/-!
# Analysis of a scene and its script

A scene is read and its nodes are put into a tree. The findings about the scene itself are the
issues found while reading it, the nodes that name no parent, and the error if there is no tree.
Linked with the script attached to its root, the scene gives a report: every reference of the
script that stands for no node is a finding, provided there is a tree and the script can be read.

## Main definitions

* `Analysis`, `Analysis.ofText`: a scene file and the tree of its nodes.
* `Analysis.sceneDiagnostics`: the findings about the scene itself.
* `PathIndex.validate`: the findings about the references of a script.
* `AttachedScript`: a script and what was found in its place.
* `Analysis.link`: the report on the scene and its script.
* `checkTexts`: the report on a scene and a script that are given as texts.
* `PairReport.unreadableScene`: the report on a scene that cannot be read.
-/

namespace SceneAudit

open Scene Script

/-! ### Scenes -/

/-- A scene file, and the tree of its nodes or why they do not form one. -/
structure Analysis where
  /-- The path of the scene file. -/
  scene : String
  file : SceneFile
  outcome : Except StructuralError SceneTree

namespace Analysis

/-- The analysis of the text of a scene. -/
def ofText (scene text : String) : Analysis :=
  let file := SceneFile.read text
  { scene, file, outcome := SceneTree.ofRecords file.records }

/-- The path of the script attached to the root, as written in the scene. -/
def attachedScript? (analysis : Analysis) : Option String :=
  analysis.file.rootScript?

/-- The tree of the scene. -/
def tree? (analysis : Analysis) : Option SceneTree :=
  analysis.outcome.toOption

/-- The path index of the scene. -/
def index? (analysis : Analysis) : Option PathIndex :=
  analysis.tree?.map PathIndex.ofTree

/-- Why the scene has no tree. -/
def error? (analysis : Analysis) : Option StructuralError :=
  match analysis.outcome with
  | .ok _ => none
  | .error error => some error

/-- The canonical paths of the scene, none if it has no tree. -/
def canonicalPaths (analysis : Analysis) : List String :=
  (analysis.index?.map PathIndex.paths).getD []

/-- What the scene turned out to be. -/
def verdict (analysis : Analysis) : Verdict :=
  match analysis.outcome with
  | .ok _ => .valid
  | .error error => .invalid error.kind

/-- The finding that reports an issue. -/
def ofIssue (scene : String) (issue : Issue) : Diagnostic :=
  .of issue.kind (.ofLine scene issue.line) issue.message

/-- The finding that a node names no parent. -/
def implicitChild (scene : String) (record : NodeRecord) : Diagnostic :=
  .of .implicitRootChild (.ofLine scene record.line)
    ("Node \"" ++ record.name ++ "\" has no parent attribute; " ++
      "treating it as a child of the root (write parent=\".\").")

/-- The finding that reports why there is no tree. -/
def ofError (scene : String) (error : StructuralError) : Diagnostic :=
  .of error.kind ⟨scene, error.line?⟩ error.message

/-- The findings about the scene itself: issues, then nodes other than the first one that name no
parent, then the reason why there is no tree. -/
def sceneDiagnostics (analysis : Analysis) : List Diagnostic :=
  analysis.file.issues.map (ofIssue analysis.scene) ++
    ((analysis.file.records.drop 1).filter fun record => record.parent = .absent).map
      (implicitChild analysis.scene) ++
    (analysis.error?.map (ofError analysis.scene)).toList

end Analysis

/-! ### Scripts -/

/-- The finding that a reference stands for no node of the scene. -/
def Script.Reference.unresolved (reference : Reference) (suggestion : Option String)
    (scene script : String) : Diagnostic :=
  { Diagnostic.of .unresolvedReference (.ofLine script reference.line)
      ((if reference.cached then cacheMark ++ " var " else "var ") ++ reference.variableName ++
        " references " ++ pathSign.toString ++ reference.path ++ ", which does not exist in " ++
        scene ++ ".") with
    suggestion }

/-- The findings about the references of a script, in order: one for each that is unresolved. -/
def PathIndex.validate (index : PathIndex) (references : List Reference) (scene script : String) :
    List Diagnostic :=
  references.filterMap fun reference =>
    match index.resolve reference.path with
    | .unresolved suggestion => some (reference.unresolved suggestion scene script)
    | _ => none

/-- A script that is attached to a scene. -/
structure AttachedScript where
  /-- The path of the script from the root of the project. -/
  file : String
  source : Source
  deriving DecidableEq, Repr

namespace Analysis

/-- The place in a scene where its script is attached: the line of the first node. -/
def rootLocation (analysis : Analysis) : Location :=
  ⟨analysis.scene, analysis.file.records.head?.map NodeRecord.line⟩

/-- The findings about the attached script. Without a tree the script is not checked. -/
def scriptDiagnostics (analysis : Analysis) (script : AttachedScript) : List Diagnostic :=
  match analysis.index?, script.source with
  | none, _ =>
    [.of .scriptUnchecked (.ofFile script.file)
      ("Script not checked: scene " ++ analysis.scene ++ " is structurally invalid.")]
  | some _, .missing =>
    [.of .scriptMissing analysis.rootLocation
      ("Attached script " ++ script.file ++ " does not exist.")]
  | some _, .unreadable reason =>
    [.of .scriptUnreadable analysis.rootLocation
      ("Attached script " ++ script.file ++ " could not be read: " ++ reason)]
  | some index, .loaded text =>
    index.validate (references text) analysis.scene script.file

/-- Whether the references of a script are checked: there is a tree and the script was read. -/
def checks (analysis : Analysis) (script : AttachedScript) : Bool :=
  match analysis.index?, script.source with
  | some _, .loaded _ => true
  | _, _ => false

/-- The report on the scene and the script attached to its root, if there is one. -/
def link (analysis : Analysis) (script : Option AttachedScript) : PairReport :=
  PairReport.sorted {
    scene := analysis.scene
    script := script.map AttachedScript.file
    verdict := analysis.verdict
    scriptChecked := script.any analysis.checks
    canonicalPaths := analysis.canonicalPaths
    diagnostics :=
      analysis.sceneDiagnostics ++ (script.map analysis.scriptDiagnostics).getD [] }

end Analysis

/-- The report on a scene and a script that are given as texts. -/
def checkTexts (scene text : String) (script : Option (String × String)) : PairReport :=
  (Analysis.ofText scene text).link (script.map fun (file, text) => ⟨file, .loaded text⟩)

/-- The report on a scene that cannot be read. -/
def PairReport.unreadableScene (scene reason : String) : PairReport where
  scene
  script := none
  verdict := .unreadable
  scriptChecked := false
  canonicalPaths := []
  diagnostics :=
    [.of .sceneUnreadable (.ofFile scene) ("Scene could not be read: " ++ reason)]

end SceneAudit
