import SceneAudit.Report

/-!
# Expectations

A test of a project lists the findings that are expected in it. Of a finding it names the code,
the location and the suggestion, but neither the severity nor the wording. Expectations are
compared in order: by location, then by code.

## Main definitions

* `Expectation`, `Expectation.ofDiagnostic`: what is expected of a finding.
* `Expectation.sort`: expectations in order.
* `Expectation.render`: an expectation in one line.

## Main results

* `Expectation.sort_perm`: sorting keeps the expectations.
-/

namespace SceneAudit

/-- What is expected of a finding. -/
structure Expectation where
  code : String
  location : Location
  suggestion : Option String
  deriving DecidableEq, Repr

namespace Expectation

/-- What a finding is expected by. -/
def ofDiagnostic (diagnostic : Diagnostic) : Expectation where
  code := diagnostic.kind.code
  location := diagnostic.location
  suggestion := diagnostic.suggestion

/-- The order of expectations: by location, then by code. -/
def le (left right : Expectation) : Bool :=
  if left.location = right.location then left.code ≤ right.code
  else left.location.le right.location

/-- Expectations in order, those that differ in their suggestions alone in their given order. -/
def sort (expectations : List Expectation) : List Expectation :=
  expectations.mergeSort le

/-- The expectation in one line. -/
def render (expectation : Expectation) : String :=
  expectation.code ++ " " ++ expectation.location.render ++
    match expectation.suggestion with
    | some suggestion => " (suggest $" ++ suggestion ++ ")"
    | none => ""

/-- The findings of a report, as they are expected. -/
def ofReport (report : ProjectReport) : List Expectation :=
  sort (report.diagnostics.map ofDiagnostic)

/-! ### The order of expectations -/

theorem le_trans (a b c : Expectation) (hab : a.le b = true) (hbc : b.le c = true) :
    a.le c = true := by
  simp only [le] at *
  split at hab <;> split at hbc
  · next e f =>
    rw [if_pos (e.trans f)]
    simp only [decide_eq_true_eq] at *
    exact String.le_trans hab hbc
  · next e f => rw [e, if_neg f]; exact hbc
  · next e f => rw [← f, if_neg e]; exact hab
  · next e f =>
    split
    · next g =>
      have back : b.location.le a.location = true := g ▸ hbc
      exact absurd (Location.le_antisymm hab back) e
    · exact Location.le_trans hab hbc

theorem le_total (a b : Expectation) : (a.le b || b.le a) = true := by
  simp only [le]
  by_cases e : a.location = b.location
  · rw [if_pos e, if_pos e.symm]
    simp only [Bool.or_eq_true, decide_eq_true_eq]
    exact String.le_total a.code b.code
  · rw [if_neg e, if_neg (Ne.symm e)]
    exact Location.le_total a.location b.location

theorem sort_perm (expectations : List Expectation) : (sort expectations).Perm expectations :=
  List.mergeSort_perm expectations le

end Expectation

end SceneAudit
