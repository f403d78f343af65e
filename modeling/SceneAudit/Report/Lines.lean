import SceneAudit.Analysis
import SceneAudit.Failure
import SceneAudit.Json.Printer
import SceneAudit.Palette
import SceneAudit.Report.Codec

/-!
# Reports for readers

A report on a project is written as lines of text: for each scene a heading and the findings about
it, then a summary and the result. The view of a single scene lists its canonical paths instead of
a summary. A failure is written as lines too, its message and path quoted so that each of them
stays on one line.

## Main definitions

* `ProjectReport.lines`: the report on a project.
* `SceneView`, `Analysis.view`: what is shown of a single scene.
* `SceneView.lines`, `SceneView.toJson`: the view of a scene, written as text and as JSON.
* `Failure.lines`: a failure.

## Main results

* `ProjectReport.getLast?_lines`: the last line of a report is its result.
-/

namespace SceneAudit

/-- The last line of a report, which says whether there were errors. -/
def resultLine (failed : Bool) : String :=
  if failed then "RESULT:FAIL" else "RESULT:OK"

/-- The verdict in colour. A valid scene whose script was not checked is marked as such. -/
def Verdict.label (palette : Palette) (unchecked : Bool) : Verdict → String
  | .valid =>
    if unchecked then palette.paint .yellow "valid, script unchecked"
    else palette.paint .green "valid"
  | .invalid violation => palette.paint .red ("invalid: " ++ violation.code)
  | .unreadable => palette.paint .yellow "unreadable"

/-- The colour of a severity. -/
def Severity.colour : Severity → Colour
  | .error => .red
  | .warning => .yellow

/-- The lines for a finding: the finding itself, and its suggestion if there is one. -/
def Diagnostic.lines (palette : Palette) (diagnostic : Diagnostic) : List String :=
  let label := diagnostic.severity.label ++ "[" ++ diagnostic.kind.code ++ "]"
  ("  " ++ palette.strong diagnostic.severity.colour label ++ " " ++
      diagnostic.location.render ++ ": " ++ diagnostic.message) ::
    (diagnostic.suggestion.map fun suggestion =>
      "    " ++ palette.paint .green "help:" ++ " did you mean $" ++ suggestion ++ "?").toList

namespace PairReport

/-- The scene, and its script if it has one. -/
def target (report : PairReport) : String :=
  match report.script with
  | some script => report.scene ++ " -> " ++ script
  | none => report.scene

/-- The heading of a report on a scene and its script. -/
def heading (palette : Palette) (report : PairReport) : String :=
  let unchecked := report.script.isSome && !report.scriptChecked
  palette.strong .cyan report.target ++ " [" ++ report.verdict.label palette unchecked ++ "]"

/-- The lines of a report on a scene and its script. -/
def lines (palette : Palette) (report : PairReport) : List String :=
  report.heading palette :: report.diagnostics.flatMap (Diagnostic.lines palette)

end PairReport

namespace ProjectReport

/-- The counts of a report. -/
def summary (report : ProjectReport) : String :=
  "Checked " ++ toString report.scenesChecked ++ " scene(s), " ++
    toString report.scriptsChecked ++ " with scripts: " ++ toString report.errorCount ++
    " error(s), " ++ toString report.warningCount ++ " warning(s)"

/-- The lines of a report on a project. -/
def lines (palette : Palette) (report : ProjectReport) : List String :=
  report.pairs.flatMap (PairReport.lines palette) ++
    (if report.pairs = [] then [] else [""]) ++ [report.summary, resultLine report.hasErrors]

/-- The last line of a report is its result. -/
theorem getLast?_lines (palette : Palette) (report : ProjectReport) :
    (report.lines palette).getLast? = some (resultLine report.hasErrors) := by
  simp [lines, List.getLast?_append]

end ProjectReport

/-! ### Single scenes -/

/-- What is shown of a single scene. -/
structure SceneView where
  /-- The path of the scene file. -/
  scene : String
  /-- The script attached to the root, as written in the scene. -/
  attachedScript : Option String
  verdict : Verdict
  canonicalPaths : List String
  diagnostics : List Diagnostic
  deriving DecidableEq, Repr

/-- The view of a scene, with the findings in the order in which they are made. -/
def Analysis.view (analysis : Analysis) : SceneView where
  scene := analysis.scene
  attachedScript := analysis.attachedScript?
  verdict := analysis.verdict
  canonicalPaths := analysis.canonicalPaths
  diagnostics := analysis.sceneDiagnostics

namespace SceneView

/-- Whether the scene is a tree. -/
def isValid (view : SceneView) : Bool :=
  view.verdict = .valid

/-- The lines of the view of a scene. -/
def lines (palette : Palette) (view : SceneView) : List String :=
  [palette.strong .cyan view.scene ++ " [" ++ view.verdict.label palette false ++ "]"] ++
    (view.attachedScript.map fun script => "script: " ++ script).toList ++
    view.diagnostics.flatMap (Diagnostic.lines palette) ++
    (view.canonicalPaths.map fun path => "$" ++ path) ++ [resultLine (!view.isValid)]

/-- The view of a scene as JSON. -/
def toJson (view : SceneView) : Json :=
  .record [("scene", .text view.scene),
    ("attachedScript", Json.ofOption .text view.attachedScript),
    ("verdict", view.verdict.toJson),
    ("canonicalPaths", Json.texts view.canonicalPaths),
    ("diagnostics", .list (view.diagnostics.map Diagnostic.toJson))]

end SceneView

/-- The lines for a failure. -/
def Failure.lines (failure : Failure) : List String :=
  ["RESULT:ERROR", "ERROR_CODE:" ++ failure.code,
      "ERROR_MSG_JSON:" ++ Json.quote failure.message] ++
    (failure.path.map fun path => "ERROR_PATH_JSON:" ++ Json.quote path).toList

end SceneAudit
