import SceneAudit.Proofs.Json.Restating
import SceneAudit.Proofs.Json.Writing
import SceneAudit.TestCase

/-!
# Values as JSON and back

Locations, diagnostics, verdicts, reports, expectations and test cases are decoded from the JSON
that they are written as, if their lines and counts are small enough to be counted. Their decoders
take no notice of the order of fields and of further fields.

For each of these types, its form says which fields its objects have; the lemma `arrange?_toJson`
says which values these fields are given, and `ofJson?_toJson` that they are decoded again.

## Main definitions

* `Location.form`, `Diagnostic.form` and so on: the fields of the type, and of what is within them.
* `Location.InRange`, `Diagnostic.InRange` and so on: all lines and counts are small enough.

## Main results

* `Location.ofJson?_toJson`, `Diagnostic.ofJson?_toJson` and so on: the value is decoded from its
  JSON.
* `Location.respects_ofJson?`, `Diagnostic.respects_ofJson?` and so on: it is decoded from any
  restatement of it too.
* `Location.isPlain_toJson`, `Diagnostic.isPlain_toJson` and so on: its JSON can be read when it is
  written.
-/

namespace SceneAudit

open Json

/-! ### Simple values -/

namespace Json

variable {α : Type} {toJson : α → Json} {decode : Json → Option α}

theorem count?_natural {n : Nat} (small : n < countBound) : count? (natural n) = some n :=
  if_pos small

theorem list?_list {values : List α}
    (each : ∀ value ∈ values, decode (toJson value) = some value) :
    list? decode (list (values.map toJson)) = some values :=
  mapM_map_eq_some each

theorem list?_texts (values : List String) : list? text? (texts values) = some values :=
  list?_list fun _ _ => rfl

/-- A field that is left out where there is no value. -/
theorem optional_map {value : Option α} (present : ∀ found ∈ value, toJson found ≠ null)
    (each : ∀ found ∈ value, decode (toJson found) = some found) :
    Json.optional decode (value.map toJson) = some value := by
  cases value with
  | none => rfl
  | some found =>
    rw [Option.map_some, Json.optional, each found rfl, Option.map_some]
    exact present found rfl

theorem optional_count {line : Option Nat} (small : ∀ n ∈ line, n < countBound) :
    Json.optional count? (line.map natural) = some line :=
  optional_map (fun _ _ => nofun) fun n mem => count?_natural (small n mem)

theorem optional_text (value : Option String) :
    Json.optional text? (value.map text) = some value :=
  optional_map (fun _ _ => nofun) fun _ _ => rfl

/-- A field that is `null` where there is no value. -/
private theorem optional_ofOption (value : Option String) :
    Json.optional text? (some (ofOption text value)) = some value := by
  cases value <;> rfl

theorem isPlain_ofOption (value : Option String) : (ofOption text value).IsPlain := by
  cases value with
  | none => exact .null
  | some value => exact .text value

theorem isPlain_list {values : List α} (each : ∀ value ∈ values, (toJson value).IsPlain) :
    (list (values.map toJson)).IsPlain :=
  .list (List.forall_mem_map.2 each)

theorem isPlain_texts (values : List String) : (texts values).IsPlain :=
  isPlain_list fun value _ => .text value

theorem isPlain_optionalField (name : String) (plain : ∀ value, (toJson value).IsPlain)
    (value : Option α) : ∀ field ∈ optionalField name toJson value, field.2.IsPlain := by
  cases value with
  | none => exact List.forall_mem_nil _
  | some value => exact List.forall_mem_singleton.2 (plain value)

end Json

/-! ### Locations -/

namespace Location

variable {location : Location}

/-- A location has fields for its file and its line. -/
def form : Form := .record [("file", .leaf), ("line", .leaf)]

/-- The line of the location, if it has one, can be counted. -/
def InRange (location : Location) : Prop :=
  ∀ line ∈ location.line, line < countBound

instance : DecidablePred InRange := fun location =>
  inferInstanceAs (Decidable (∀ line ∈ location.line, line < countBound))

theorem arrange?_toJson (location : Location) :
    arrange? ["file", "line"] location.toJson =
      some [some (.text location.file), location.line.map .natural] := by
  obtain ⟨file, _ | line⟩ := location <;> rfl

theorem ofJson?_toJson (inRange : location.InRange) : ofJson? location.toJson = some location := by
  simp only [ofJson?, arrange?_toJson, Option.bind_eq_bind, Option.bind_some, Json.required, text?,
    optional_count inRange, Option.pure_def]

theorem respects_ofJson? : form.Respects ofJson? := by
  refine Form.respects_arrange? (by decide) (fun _ => rfl) ?_
  rintro _ _ (_ | ⟨file, _ | ⟨line, _ | _⟩⟩)
  rw [Form.eq_of_rel_leaf file, Form.eq_of_rel_leaf line]

theorem isPlain_toJson (location : Location) : location.toJson.IsPlain :=
  .record (List.forall_mem_cons.2
    ⟨.text location.file, isPlain_optionalField "line" .natural location.line⟩)

end Location

/-! ### Diagnostics -/

theorem Severity.ofJson?_toJson (severity : Severity) :
    ofJson? severity.toJson = some severity := by
  cases severity <;> rfl

theorem Diagnostic.Kind.ofJson?_toJson (kind : Kind) : ofJson? kind.toJson = some kind :=
  ofCode_code kind

namespace Diagnostic

variable {diagnostic : Diagnostic}

/-- A diagnostic has a field for each of its parts. -/
def form : Form :=
  .record [("severity", .leaf), ("kind", .leaf), ("location", Location.form), ("message", .leaf),
    ("suggestion", .leaf)]

/-- The line of the diagnostic, if it has one, can be counted. -/
def InRange (diagnostic : Diagnostic) : Prop :=
  diagnostic.location.InRange

instance : DecidablePred InRange := fun diagnostic =>
  inferInstanceAs (Decidable diagnostic.location.InRange)

theorem arrange?_toJson (diagnostic : Diagnostic) :
    arrange? ["severity", "kind", "location", "message", "suggestion"] diagnostic.toJson =
      some [some diagnostic.severity.toJson, some diagnostic.kind.toJson,
        some diagnostic.location.toJson, some (.text diagnostic.message),
        diagnostic.suggestion.map .text] := by
  obtain ⟨severity, kind, location, message, _ | suggestion⟩ := diagnostic <;> rfl

theorem ofJson?_toJson (inRange : diagnostic.InRange) :
    ofJson? diagnostic.toJson = some diagnostic := by
  simp only [ofJson?, arrange?_toJson, Option.bind_eq_bind, Option.bind_some, Json.required,
    Severity.ofJson?_toJson, Kind.ofJson?_toJson, Location.ofJson?_toJson inRange, text?,
    optional_text, Option.pure_def]

theorem respects_ofJson? : form.Respects ofJson? := by
  refine Form.respects_arrange? (by decide) (fun _ => rfl) ?_
  rintro _ _ (_ | ⟨severity, _ | ⟨kind, _ | ⟨location, _ | ⟨message, _ | ⟨suggestion, _ | _⟩⟩⟩⟩⟩)
  rw [Form.eq_of_rel_leaf severity, Form.eq_of_rel_leaf kind, Form.eq_of_rel_leaf message,
    Form.eq_of_rel_leaf suggestion]
  simp only [Location.respects_ofJson?.required location]

theorem isPlain_toJson (diagnostic : Diagnostic) : diagnostic.toJson.IsPlain := by
  refine .record (List.forall_mem_append.2 ⟨?_, isPlain_optionalField "suggestion" .text _⟩)
  simp only [List.forall_mem_cons]
  exact ⟨.text _, .text _, diagnostic.location.isPlain_toJson, .text _, List.forall_mem_nil _⟩

end Diagnostic

/-! ### Reports -/

namespace Verdict

/-- A verdict has a field for its status, and one for the violation of an invalid scene. -/
def form : Form := .record [("status", .leaf), ("violation", .leaf)]

theorem ofJson?_toJson (verdict : Verdict) : ofJson? verdict.toJson = some verdict := by
  cases verdict with
  | valid => rfl
  | unreadable => rfl
  | invalid violation =>
    have named : violation? violation.toJson = some violation := Diagnostic.Kind.ofJson?_toJson _
    exact congrArg (Option.map invalid) named

theorem respects_ofJson? : form.Respects ofJson? := by
  refine Form.respects_record (by decide) fun fields others same => ?_
  have status := same.field?_eq List.mem_cons_self
  have violation := same.field?_eq (List.mem_cons_of_mem _ List.mem_cons_self)
  rw [ofJson?, ofJson?, status, violation]

theorem isPlain_toJson (verdict : Verdict) : verdict.toJson.IsPlain := by
  cases verdict with
  | valid | unreadable =>
    exact .record (List.forall_mem_singleton.2 (.text _))
  | invalid violation =>
    exact .record (List.forall_mem_cons.2 ⟨.text _, List.forall_mem_singleton.2 (.text _)⟩)

end Verdict

namespace PairReport

variable {report : PairReport}

/-- The report on a scene has a field for each of its parts. -/
def form : Form :=
  .record [("scene", .leaf), ("script", .leaf), ("verdict", Verdict.form), ("scriptChecked", .leaf),
    ("canonicalPaths", .leaf), ("diagnostics", .list Diagnostic.form)]

/-- All lines of the report can be counted. -/
def InRange (report : PairReport) : Prop :=
  ∀ diagnostic ∈ report.diagnostics, diagnostic.InRange

instance : DecidablePred InRange := fun report =>
  inferInstanceAs (Decidable (∀ diagnostic ∈ report.diagnostics, diagnostic.InRange))

theorem arrange?_toJson (report : PairReport) :
    arrange? ["scene", "script", "verdict", "scriptChecked", "canonicalPaths", "diagnostics"]
        report.toJson =
      some [some (.text report.scene), some (ofOption .text report.script),
        some report.verdict.toJson, some (.bool report.scriptChecked),
        some (texts report.canonicalPaths),
        some (.list (report.diagnostics.map Diagnostic.toJson))] :=
  rfl

theorem ofJson?_toJson (inRange : report.InRange) : ofJson? report.toJson = some report := by
  have diagnostics : Json.list? Diagnostic.ofJson?
      (.list (report.diagnostics.map Diagnostic.toJson)) = some report.diagnostics :=
    list?_list fun diagnostic mem => Diagnostic.ofJson?_toJson (inRange diagnostic mem)
  simp only [ofJson?, arrange?_toJson, Option.bind_eq_bind, Option.bind_some, Json.required, text?,
    optional_ofOption, Verdict.ofJson?_toJson, bool?, list?_texts, diagnostics, Option.pure_def]

theorem respects_ofJson? : form.Respects ofJson? := by
  refine Form.respects_arrange? (by decide) (fun _ => rfl) ?_
  rintro _ _ (_ | ⟨scene, _ | ⟨script, _ | ⟨verdict, _ | ⟨scriptChecked, _ | ⟨canonicalPaths,
    _ | ⟨diagnostics, _ | _⟩⟩⟩⟩⟩⟩)
  rw [Form.eq_of_rel_leaf scene, Form.eq_of_rel_leaf script, Form.eq_of_rel_leaf scriptChecked,
    Form.eq_of_rel_leaf canonicalPaths]
  simp only [Verdict.respects_ofJson?.required verdict,
    Diagnostic.respects_ofJson?.list?.required diagnostics]

theorem isPlain_toJson (report : PairReport) : report.toJson.IsPlain := by
  refine .record ?_
  simp only [List.forall_mem_cons]
  exact ⟨.text _, isPlain_ofOption _, report.verdict.isPlain_toJson, .bool _, isPlain_texts _,
    isPlain_list fun diagnostic _ => diagnostic.isPlain_toJson, List.forall_mem_nil _⟩

end PairReport

namespace ProjectReport

variable {report : ProjectReport}

/-- The report on a project has a field for each of its parts. -/
def form : Form :=
  .record [("pairs", .list PairReport.form), ("scenesChecked", .leaf), ("scriptsChecked", .leaf),
    ("errorCount", .leaf), ("warningCount", .leaf)]

/-- All lines and counts of the report can be counted. -/
structure InRange (report : ProjectReport) : Prop where
  pairs : ∀ pair ∈ report.pairs, pair.InRange
  scenesChecked : report.scenesChecked < countBound
  scriptsChecked : report.scriptsChecked < countBound
  errorCount : report.errorCount < countBound
  warningCount : report.warningCount < countBound

instance : DecidablePred InRange := fun report =>
  decidable_of_iff ((∀ pair ∈ report.pairs, pair.InRange) ∧ report.scenesChecked < countBound ∧
      report.scriptsChecked < countBound ∧ report.errorCount < countBound ∧
      report.warningCount < countBound)
    ⟨fun ⟨pairs, scenes, scripts, errors, warnings⟩ => ⟨pairs, scenes, scripts, errors, warnings⟩,
      fun ⟨pairs, scenes, scripts, errors, warnings⟩ => ⟨pairs, scenes, scripts, errors, warnings⟩⟩

theorem arrange?_toJson (report : ProjectReport) :
    arrange? ["pairs", "scenesChecked", "scriptsChecked", "errorCount", "warningCount"]
        report.toJson =
      some [some (.list (report.pairs.map PairReport.toJson)), some (.natural report.scenesChecked),
        some (.natural report.scriptsChecked), some (.natural report.errorCount),
        some (.natural report.warningCount)] :=
  rfl

theorem ofJson?_toJson (inRange : report.InRange) : ofJson? report.toJson = some report := by
  have pairs : Json.list? PairReport.ofJson? (.list (report.pairs.map PairReport.toJson)) =
      some report.pairs :=
    list?_list fun pair mem => PairReport.ofJson?_toJson (inRange.pairs pair mem)
  simp only [ofJson?, arrange?_toJson, Option.bind_eq_bind, Option.bind_some, Json.required, pairs,
    count?_natural inRange.scenesChecked, count?_natural inRange.scriptsChecked,
    count?_natural inRange.errorCount, count?_natural inRange.warningCount, Option.pure_def]

theorem respects_ofJson? : form.Respects ofJson? := by
  refine Form.respects_arrange? (by decide) (fun _ => rfl) ?_
  rintro _ _ (_ | ⟨pairs, _ | ⟨scenesChecked, _ | ⟨scriptsChecked, _ | ⟨errorCount,
    _ | ⟨warningCount, _ | _⟩⟩⟩⟩⟩)
  rw [Form.eq_of_rel_leaf scenesChecked, Form.eq_of_rel_leaf scriptsChecked,
    Form.eq_of_rel_leaf errorCount, Form.eq_of_rel_leaf warningCount]
  simp only [PairReport.respects_ofJson?.list?.required pairs]

theorem isPlain_toJson (report : ProjectReport) : report.toJson.IsPlain := by
  refine .record ?_
  simp only [List.forall_mem_cons]
  exact ⟨isPlain_list fun pair _ => pair.isPlain_toJson, .natural _, .natural _, .natural _,
    .natural _, List.forall_mem_nil _⟩

end ProjectReport

/-! ### Expectations and test cases -/

namespace Expectation

variable {expectation : Expectation}

/-- An expectation has fields for its code, file, line and suggestion. -/
def form : Form :=
  .record [("code", .leaf), ("file", .leaf), ("line", .leaf), ("suggestion", .leaf)]

/-- The line of the expectation, if it has one, can be counted. -/
def InRange (expectation : Expectation) : Prop :=
  expectation.location.InRange

instance : DecidablePred InRange := fun expectation =>
  inferInstanceAs (Decidable expectation.location.InRange)

theorem arrange?_toJson (expectation : Expectation) :
    arrange? ["code", "file", "line", "suggestion"] expectation.toJson =
      some [some (.text expectation.code), some (.text expectation.location.file),
        expectation.location.line.map .natural, expectation.suggestion.map .text] := by
  obtain ⟨code, ⟨file, _ | line⟩, _ | suggestion⟩ := expectation <;> rfl

theorem ofJson?_toJson (inRange : expectation.InRange) :
    ofJson? expectation.toJson = some expectation := by
  simp only [ofJson?, arrange?_toJson, Option.bind_eq_bind, Option.bind_some, Json.required, text?,
    optional_count inRange, optional_text, Option.pure_def]

theorem respects_ofJson? : form.Respects ofJson? := by
  refine Form.respects_arrange? (by decide) (fun _ => rfl) ?_
  rintro _ _ (_ | ⟨code, _ | ⟨file, _ | ⟨line, _ | ⟨suggestion, _ | _⟩⟩⟩⟩)
  rw [Form.eq_of_rel_leaf code, Form.eq_of_rel_leaf file, Form.eq_of_rel_leaf line,
    Form.eq_of_rel_leaf suggestion]

end Expectation

namespace TestCase

variable {case : TestCase}

/-- A test case has a field for each of its parts. -/
def form : Form :=
  .record [("schemaVersion", .leaf), ("scenesDir", .leaf), ("excludeDirs", .leaf),
    ("expectedDiagnostics", .list Expectation.form)]

/-- All lines of the test case can be counted. -/
def InRange (case : TestCase) : Prop :=
  ∀ expectation ∈ case.expectations, expectation.InRange

instance : DecidablePred InRange := fun case =>
  inferInstanceAs (Decidable (∀ expectation ∈ case.expectations, expectation.InRange))

theorem arrange?_toJson (case : TestCase) :
    arrange? ["schemaVersion", "scenesDir", "excludeDirs", "expectedDiagnostics"] case.toJson =
      some [some (.text case.schemaVersion), some (.text case.scenesDirectory),
        some (texts case.excluded), some (.list (case.expectations.map Expectation.toJson))] :=
  rfl

theorem ofJson?_toJson (inRange : case.InRange) : ofJson? case.toJson = some case := by
  have expectations : Json.list? Expectation.ofJson?
      (.list (case.expectations.map Expectation.toJson)) = some case.expectations :=
    list?_list fun expectation mem => Expectation.ofJson?_toJson (inRange expectation mem)
  simp only [ofJson?, arrange?_toJson, Option.bind_eq_bind, Option.bind_some, Json.required,
    Json.withDefault, text?, list?_texts, expectations, Option.pure_def]

theorem respects_ofJson? : form.Respects ofJson? := by
  refine Form.respects_arrange? (by decide) (fun _ => rfl) ?_
  rintro _ _ (_ | ⟨schemaVersion, _ | ⟨scenesDirectory, _ | ⟨excluded, _ | ⟨expectations,
    _ | _⟩⟩⟩⟩)
  rw [Form.eq_of_rel_leaf schemaVersion, Form.eq_of_rel_leaf scenesDirectory,
    Form.eq_of_rel_leaf excluded]
  simp only [Expectation.respects_ofJson?.list?.withDefault expectations]

end TestCase

end SceneAudit
