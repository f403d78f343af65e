import SceneAudit.Expectation.Codec
import SceneAudit.Json.Printer
import SceneAudit.Json.Reader
import SceneAudit.Project.Discovery
import SceneAudit.Report.Codec

/-!
# Test cases

A test case is a JSON file beside a project. It says how the project is checked and which findings
are expected. The case passes if the findings are exactly those that are expected.

## Main definitions

* `TestCase`, with `TestCase.toJson` and `TestCase.ofJson?`: a test case.
* `TestCase.Fault`, `TestCase.Fault.message`: why a case does not pass.
* `TestCase.load`: the case in a file.
* `TestCase.run`: the report on the project of a case.
* `TestCase.verify`: the comparison of the findings with the expectations of the case in a file.

## Main results

* `TestCase.compare_eq_ok_iff`: a comparison succeeds if both lists are equal in order.
* `TestCase.verify_eq`: a case that can be loaded and run is compared with the report.
-/

namespace SceneAudit

/-- How a project is checked, and which findings are expected. -/
structure TestCase where
  schemaVersion : String
  scenesDirectory : String
  excluded : List String
  expectations : List Expectation
  deriving DecidableEq, Repr

namespace TestCase

/-- The version of the form of test cases. -/
def schema : String := "nl-tool-case.v1"

/-- The case as JSON. -/
def toJson (case : TestCase) : Json :=
  .record [("schemaVersion", .text case.schemaVersion), ("scenesDir", .text case.scenesDirectory),
    ("excludeDirs", Json.texts case.excluded),
    ("expectedDiagnostics", .list (case.expectations.map Expectation.toJson))]

/-- The case that a JSON value is. All fields but the version may be missing. -/
def ofJson? (json : Json) : Option TestCase := do
  match ← json.arrange? ["schemaVersion", "scenesDir", "excludeDirs", "expectedDiagnostics"] with
  | [schemaVersion, scenesDirectory, excluded, expectations] => return {
      schemaVersion := ← Json.required Json.text? schemaVersion
      scenesDirectory := ← Json.withDefault Json.text? "scenes" scenesDirectory
      excluded := ← Json.withDefault (Json.list? Json.text?) [] excluded
      expectations := ← Json.withDefault (Json.list? Expectation.ofJson?) [] expectations }
  | _ => none

/-- Why a case does not pass. -/
inductive Fault where
  | unreadable (path : String) (fault : Disk.Fault)
  | malformed (path : String)
  | wrongSchema (found : String)
  /-- The project cannot be checked. -/
  | unchecked (fault : ProjectFault)
  | countMismatch (expected : Nat) (observed : List Expectation)
  | mismatch (index : Nat) (expected observed : Expectation)
  deriving DecidableEq, Repr

/-- The fault in words. -/
def Fault.message : Fault → String
  | unreadable path fault => "Failed to read file " ++ path ++ ": " ++ fault.reason
  | malformed path => "Failed to parse testcase " ++ path
  | wrongSchema found =>
    "Invalid testcase schema version \"" ++ found ++ "\", expected \"" ++ schema ++ "\"."
  | unchecked fault => "Check error: " ++ fault.failure.render
  | countMismatch expected observed =>
    "Expected diagnostic count " ++ toString expected ++ ", actual " ++
      toString observed.length ++ ". observed=" ++
      Json.render .indented (.list (observed.map Expectation.toJson))
  | mismatch index expected observed =>
    "Diagnostic mismatch at index " ++ toString index ++ ". expected=" ++ expected.render ++
      " actual=" ++ observed.render

/-- The case in a file. -/
def load (disk : Disk) (path : String) : Except Fault TestCase :=
  match disk.text path with
  | .error fault => .error (.unreadable path fault)
  | .ok text =>
    match (Json.parse? text).bind ofJson? with
    | none => .error (.malformed path)
    | some case =>
      if case.schemaVersion = schema then .ok case else .error (.wrongSchema case.schemaVersion)

/-- The report on the project of a case. -/
def run (disk : Disk) (root : String) (case : TestCase) : Except Fault ProjectReport :=
  let options : CheckOptions :=
    { root, scenesDirectory := case.scenesDirectory, excluded := case.excluded }
  (options.check disk).mapError Fault.unchecked

/-- The first place, counted from `index`, at which two lists of expectations differ. -/
def firstMismatch? (index : Nat) : List Expectation → List Expectation → Option Fault
  | expected :: moreExpected, observed :: moreObserved =>
    if expected = observed then firstMismatch? (index + 1) moreExpected moreObserved
    else some (.mismatch index expected observed)
  | _, _ => none

/-- Whether the findings of a report are those that are expected, both in order. -/
def compare (case : TestCase) (report : ProjectReport) : Except Fault Unit :=
  let expected := Expectation.sort case.expectations
  let observed := Expectation.ofReport report
  if expected.length ≠ observed.length then
    .error (.countMismatch expected.length observed)
  else
    match firstMismatch? 0 expected observed with
    | some fault => .error fault
    | none => .ok ()

/-- Whether the case in a file passes for the project with the given root. -/
def verify (disk : Disk) (root path : String) : Except Fault Unit := do
  let case ← load disk path
  case.compare (← case.run disk root)

/-! ### Loading -/

/-- A case is what a text of the right version says. -/
theorem load_eq_ok_iff {disk : Disk} {path : String} {case : TestCase} :
    load disk path = .ok case ↔ ∃ text, disk.text path = .ok text ∧
      (Json.parse? text).bind ofJson? = some case ∧ case.schemaVersion = schema := by
  rw [load]
  cases disk.text path with
  | error fault => simp
  | ok text =>
    simp only [Except.ok.injEq, exists_eq_left']
    cases (Json.parse? text).bind ofJson? with
    | none => simp
    | some found =>
      by_cases version : found.schemaVersion = schema
      · simp only [version, ↓reduceIte, Except.ok.injEq, Option.some.injEq]
        exact ⟨fun same => ⟨same, same ▸ version⟩, And.left⟩
      · simp only [version, ↓reduceIte, reduceCtorEq, Option.some.injEq, false_iff, not_and]
        exact fun same => same ▸ version

/-! ### Comparison -/

private theorem firstMismatch?_self (index : Nat) (expectations : List Expectation) :
    firstMismatch? index expectations expectations = none := by
  induction expectations generalizing index with
  | nil => rfl
  | cons expected rest ih => simp [firstMismatch?, ih]

/-- Two lists of one length without a difference are equal. -/
theorem eq_of_firstMismatch?_eq_none {index : Nat} {expected observed : List Expectation}
    (hlength : expected.length = observed.length)
    (h : firstMismatch? index expected observed = none) : expected = observed := by
  induction expected generalizing index observed with
  | nil => exact (List.eq_nil_of_length_eq_zero hlength.symm).symm
  | cons first expected ih =>
    match observed with
    | [] => simp at hlength
    | second :: observed =>
      rw [firstMismatch?] at h
      split at h
      case isTrue heq => rw [heq, ih (by simpa using hlength) h]
      case isFalse => simp at h

/-- A comparison succeeds exactly if both lists are equal when they are in order. -/
theorem compare_eq_ok_iff {case : TestCase} {report : ProjectReport} :
    case.compare report = .ok () ↔
      Expectation.sort case.expectations = Expectation.ofReport report := by
  simp only [compare]
  constructor
  · intro h
    split at h
    · simp at h
    · next hlength =>
      split at h
      · simp at h
      · next hnone => exact eq_of_firstMismatch?_eq_none (by simpa using hlength) hnone
  · intro h
    rw [h, if_neg (by simp), firstMismatch?_self]

/-- A case that can be loaded and run is compared with the report. -/
theorem verify_eq {disk : Disk} {root path : String} {case : TestCase} {report : ProjectReport}
    (loaded : load disk path = .ok case) (checked : case.run disk root = .ok report) :
    verify disk root path = case.compare report := by
  rw [verify, loaded]
  change (case.run disk root >>= fun report => case.compare report) = _
  rw [checked]
  rfl

end TestCase

end SceneAudit
