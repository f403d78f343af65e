import SceneAudit.Diagnostic
import SceneAudit.Json.Decode

/-!
# Diagnostics as JSON

## Main definitions

* `Severity.toJson`, `Diagnostic.Kind.toJson`, `Location.toJson`, `Diagnostic.toJson`, and the
  decoders `ofJson?` beside them.

The line of a location and the suggestion of a diagnostic are left out where there are none.
-/

namespace SceneAudit

/-- The severity as JSON: its name. -/
def Severity.toJson (severity : Severity) : Json :=
  .text severity.label

/-- The severity that a JSON value names. -/
def Severity.ofJson? (json : Json) : Option Severity := do
  match ← json.name? with
  | "error" => some .error
  | "warning" => some .warning
  | _ => none

/-- The kind as JSON: its code. -/
def Diagnostic.Kind.toJson (kind : Kind) : Json :=
  .text kind.code

/-- The kind whose code a JSON value is. -/
def Diagnostic.Kind.ofJson? (json : Json) : Option Kind :=
  json.name?.bind ofCode?

/-- The location as JSON. -/
def Location.toJson (location : Location) : Json :=
  .record (("file", .text location.file) ::
    Json.optionalField "line" .natural location.line)

/-- The location that a JSON value is. -/
def Location.ofJson? (json : Json) : Option Location := do
  match ← json.arrange? ["file", "line"] with
  | [file, line] => return {
      file := ← Json.required Json.text? file
      line := ← Json.optional Json.count? line }
  | _ => none

/-- The diagnostic as JSON. -/
def Diagnostic.toJson (diagnostic : Diagnostic) : Json :=
  .record ([("severity", diagnostic.severity.toJson), ("kind", diagnostic.kind.toJson),
      ("location", diagnostic.location.toJson), ("message", .text diagnostic.message)] ++
    Json.optionalField "suggestion" .text diagnostic.suggestion)

/-- The diagnostic that a JSON value is. -/
def Diagnostic.ofJson? (json : Json) : Option Diagnostic := do
  match ← json.arrange? ["severity", "kind", "location", "message", "suggestion"] with
  | [severity, kind, location, message, suggestion] => return {
      severity := ← Json.required Severity.ofJson? severity
      kind := ← Json.required Kind.ofJson? kind
      location := ← Json.required Location.ofJson? location
      message := ← Json.required Json.text? message
      suggestion := ← Json.optional Json.text? suggestion }
  | _ => none

end SceneAudit
