import SceneAudit.Diagnostic.Codec
import SceneAudit.Report

/-!
# Reports as JSON

## Main definitions

* `Verdict.toJson`, `PairReport.toJson`, `ProjectReport.toJson`, and the decoders `ofJson?` beside
  them.

A verdict is an object whose field `status` says which verdict it is; the violation of an invalid
scene is a further field. A missing script is written as `null`.
-/

namespace SceneAudit

namespace Verdict

/-- The name of a verdict in reports. -/
def status : Verdict → String
  | valid => "valid"
  | invalid _ => "invalid"
  | unreadable => "unreadable"

/-- The verdict as JSON. -/
def toJson : Verdict → Json
  | verdict@(invalid violation) =>
    .record [("status", .text verdict.status), ("violation", violation.toJson)]
  | verdict => .record [("status", .text verdict.status)]

/-- The violation that a JSON value names. An object with the code as its only field may have an
empty object as its value. -/
def violation? : Json → Option Diagnostic.Kind
  | .record [(name, .record [])] => Diagnostic.Kind.ofCode? name
  | json => Diagnostic.Kind.ofJson? json

/-- The verdict with the given status and violation. Only an invalid scene has a violation. -/
def ofStatus? (status : String) (violation : Option Json) : Option Verdict :=
  match status with
  | "valid" => if violation.isSome then none else some valid
  | "unreadable" => if violation.isSome then none else some unreadable
  | "invalid" => (Json.required violation? violation).map invalid
  | _ => none

/-- The verdict that a JSON value is: an object, or a list of its status and its violation. The
fields of an object are looked at only where the status calls for them. -/
def ofJson? : Json → Option Verdict
  | .record fields => do
    let status ← Json.required Json.text? (← Json.field? fields "status")
    if status = "invalid" then ofStatus? status (← Json.field? fields "violation")
    else ofStatus? status none
  | .list [status] => do ofStatus? (← status.text?) none
  | .list [status, violation] => do ofStatus? (← status.text?) (some violation)
  | _ => none

end Verdict

namespace PairReport

/-- The report on a scene and its script as JSON. -/
def toJson (report : PairReport) : Json :=
  .record [("scene", .text report.scene), ("script", Json.ofOption .text report.script),
    ("verdict", report.verdict.toJson), ("scriptChecked", .bool report.scriptChecked),
    ("canonicalPaths", Json.texts report.canonicalPaths),
    ("diagnostics", .list (report.diagnostics.map Diagnostic.toJson))]

/-- The report on a scene and its script that a JSON value is. -/
def ofJson? (json : Json) : Option PairReport := do
  match ← json.arrange? ["scene", "script", "verdict", "scriptChecked", "canonicalPaths",
      "diagnostics"] with
  | [scene, script, verdict, scriptChecked, canonicalPaths, diagnostics] => return {
      scene := ← Json.required Json.text? scene
      script := ← Json.optional Json.text? script
      verdict := ← Json.required Verdict.ofJson? verdict
      scriptChecked := ← Json.required Json.bool? scriptChecked
      canonicalPaths := ← Json.required (Json.list? Json.text?) canonicalPaths
      diagnostics := ← Json.required (Json.list? Diagnostic.ofJson?) diagnostics }
  | _ => none

end PairReport

namespace ProjectReport

/-- The report on a project as JSON. -/
def toJson (report : ProjectReport) : Json :=
  .record [("pairs", .list (report.pairs.map PairReport.toJson)),
    ("scenesChecked", .natural report.scenesChecked),
    ("scriptsChecked", .natural report.scriptsChecked),
    ("errorCount", .natural report.errorCount),
    ("warningCount", .natural report.warningCount)]

/-- The report on a project that a JSON value is. -/
def ofJson? (json : Json) : Option ProjectReport := do
  match ← json.arrange? ["pairs", "scenesChecked", "scriptsChecked", "errorCount",
      "warningCount"] with
  | [pairs, scenesChecked, scriptsChecked, errorCount, warningCount] => return {
      pairs := ← Json.required (Json.list? PairReport.ofJson?) pairs
      scenesChecked := ← Json.required Json.count? scenesChecked
      scriptsChecked := ← Json.required Json.count? scriptsChecked
      errorCount := ← Json.required Json.count? errorCount
      warningCount := ← Json.required Json.count? warningCount }
  | _ => none

end ProjectReport

end SceneAudit
