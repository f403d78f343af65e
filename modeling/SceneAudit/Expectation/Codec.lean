import SceneAudit.Diagnostic.Codec
import SceneAudit.Expectation

/-!
# Expectations as JSON

## Main definitions

* `Expectation.toJson`, `Expectation.ofJson?`: an expectation as JSON. File and line of its
  location are fields of their own.
-/

namespace SceneAudit.Expectation

/-- The expectation as JSON. -/
def toJson (expectation : Expectation) : Json :=
  .record ([("code", .text expectation.code), ("file", .text expectation.location.file)] ++
    Json.optionalField "line" .natural expectation.location.line ++
    Json.optionalField "suggestion" .text expectation.suggestion)

/-- The expectation that a JSON value is. -/
def ofJson? (json : Json) : Option Expectation := do
  match ← json.arrange? ["code", "file", "line", "suggestion"] with
  | [code, file, line, suggestion] => return {
      code := ← Json.required Json.text? code
      location := {
        file := ← Json.required Json.text? file
        line := ← Json.optional Json.count? line }
      suggestion := ← Json.optional Json.text? suggestion }
  | _ => none

end SceneAudit.Expectation
