import SceneAudit.Diagnostic

/-!
# Reports

The report on a scene and its script says whether the scene is a tree, which canonical paths it
has, whether the script was checked, and what was found. The report on a project collects these
reports by scene and counts them.

## Main definitions

* `Verdict`: what a scene turned out to be.
* `PairReport`: the report on a scene and its script.
* `ProjectReport`, `ProjectReport.ofPairs`: the report on a project, in its canonical order.

## Main results

* `ProjectReport.ofPairs_pairs`: putting a report in order once more changes nothing.
-/

namespace SceneAudit

/-- What a scene turned out to be. -/
inductive Verdict where
  /-- Its nodes form a tree. -/
  | valid
  /-- Its nodes do not form a tree, for a reason of the given kind. -/
  | invalid (violation : Diagnostic.Kind)
  /-- Its file cannot be read. -/
  | unreadable
  deriving DecidableEq, Repr

/-- The report on a scene and the script attached to its root. -/
structure PairReport where
  scene : String
  /-- The file of the attached script. -/
  script : Option String
  verdict : Verdict
  /-- Whether the references of the script were checked against the scene. -/
  scriptChecked : Bool
  canonicalPaths : List String
  diagnostics : List Diagnostic
  deriving DecidableEq, Repr

namespace PairReport

/-- The report with its diagnostics in order. -/
def sorted (report : PairReport) : PairReport :=
  { report with diagnostics := Diagnostic.sort report.diagnostics }

/-- How many diagnostics have the given severity. -/
def count (report : PairReport) (severity : Severity) : Nat :=
  report.diagnostics.countP fun diagnostic => diagnostic.severity = severity

/-- The order of the scenes of a project. -/
def le (left right : PairReport) : Bool :=
  left.scene ≤ right.scene

theorem le_trans (a b c : PairReport) (hab : a.le b = true) (hbc : b.le c = true) :
    a.le c = true := by
  simp only [le, decide_eq_true_eq] at *
  exact String.le_trans hab hbc

theorem le_total (a b : PairReport) : (a.le b || b.le a) = true := by
  simp only [le, Bool.or_eq_true, decide_eq_true_eq]
  exact String.le_total a.scene b.scene

theorem sorted_sorted (report : PairReport) : report.sorted.sorted = report.sorted := by
  simp [sorted, Diagnostic.sort_sort]

end PairReport

/-- The report on a project. -/
structure ProjectReport where
  pairs : List PairReport
  scenesChecked : Nat
  scriptsChecked : Nat
  errorCount : Nat
  warningCount : Nat
  deriving DecidableEq, Repr

namespace ProjectReport

/-- How many diagnostics of the given reports have the given severity. -/
def countAll (severity : Severity) (pairs : List PairReport) : Nat :=
  (pairs.flatMap PairReport.diagnostics).countP fun diagnostic => diagnostic.severity = severity

/-- The report made of the given pairs, in any order: sorted by scene, those of one scene in their
given order, each with its diagnostics in order. -/
def ofPairs (pairs : List PairReport) : ProjectReport :=
  let pairs := (pairs.mergeSort PairReport.le).map PairReport.sorted
  { pairs
    scenesChecked := pairs.length
    scriptsChecked := pairs.countP PairReport.scriptChecked
    errorCount := countAll .error pairs
    warningCount := countAll .warning pairs }

/-- Whether the report has errors. -/
def hasErrors (report : ProjectReport) : Bool :=
  0 < report.errorCount

/-- The exit code of a check: one if there are errors. -/
def exitCode (report : ProjectReport) : Nat :=
  if report.hasErrors then 1 else 0

/-- All diagnostics of a project, in order. -/
def diagnostics (report : ProjectReport) : List Diagnostic :=
  Diagnostic.sort (report.pairs.flatMap PairReport.diagnostics)

/-- Putting a report in order once more changes nothing. -/
theorem ofPairs_pairs (pairs : List PairReport) :
    ofPairs (ofPairs pairs).pairs = ofPairs pairs := by
  have order : ((pairs.mergeSort PairReport.le).map PairReport.sorted).mergeSort PairReport.le =
      (pairs.mergeSort PairReport.le).map PairReport.sorted :=
    List.mergeSort_of_pairwise <| List.pairwise_map.2 <|
      List.pairwise_mergeSort PairReport.le_trans PairReport.le_total pairs
  have again : (PairReport.sorted ∘ PairReport.sorted) = PairReport.sorted :=
    funext PairReport.sorted_sorted
  simp only [ofPairs, order, List.map_map, again]

end ProjectReport

end SceneAudit
