import SceneAudit.Proofs.Project.SceneFiles
import SceneAudit.Proofs.Report.Coherence

/-!
# What the counts of a report count

The errors of a report are counted by the severities that its findings carry. Since each finding of
a check carries the severity of its kind, they count two things: scenes that are no trees, of which
each has one structural finding, and unresolved references. A scene that cannot be read has a
warning only. Errors and warnings together are all findings.

## Main definitions

* `Verdict.isInvalid`: the verdict on a scene that is no tree.
* `PairReport.IsCounted`: the errors of a report are its verdict and its unresolved references.

## Main results

* `Diagnostic.countP_isError`: errors are structural findings and unresolved references.
* `Analysis.isCounted_link`, `PairReport.isCounted_unreadableScene`: the errors of each report.
* `ProjectReport.errorCount_add_warningCount`: errors and warnings are all findings.
* `Project.errorCount_check`: the errors of the report on a project.
-/

namespace SceneAudit

/-- Whether the scene turned out to be no tree. -/
def Verdict.isInvalid : Verdict → Bool
  | invalid _ => true
  | valid | unreadable => false

namespace Diagnostic

private theorem Kind.severity_eq_error_iff {kind : Kind} :
    kind.severity = .error ↔ kind.isStructural = true ∨ kind = unresolvedReference := by
  rw [severity]
  split
  · rename_i grave
    simpa using grave
  · rename_i light
    simpa [not_or] using light

/-- If findings carry the severities of their kinds, their errors are the structural findings and
the unresolved references. -/
theorem countP_isError {diagnostics : List Diagnostic}
    (own : ∀ diagnostic ∈ diagnostics, diagnostic.severity = diagnostic.kind.severity) :
    diagnostics.countP isError =
      ((diagnostics.map kind).filter Kind.isStructural).length +
        (diagnostics.filter fun diagnostic => diagnostic.kind = .unresolvedReference).length := by
  induction diagnostics with
  | nil => rfl
  | cons diagnostic rest ih =>
    obtain ⟨here, later⟩ := List.forall_mem_cons.1 own
    rw [List.countP_cons, ih later, List.map_cons, List.filter_cons, List.filter_cons, isError,
      here]
    by_cases structural : diagnostic.kind.isStructural = true
    · have other : diagnostic.kind ≠ .unresolvedReference := by
        intro same
        rw [same] at structural
        contradiction
      simp [Kind.severity_eq_error_iff, structural, other]
      omega
    · by_cases reference : diagnostic.kind = .unresolvedReference
      · have plain : Kind.unresolvedReference.isStructural = false := rfl
        simp [Kind.severity_eq_error_iff, reference, plain]
        omega
      · simp [Kind.severity_eq_error_iff, structural, reference]

end Diagnostic

/-! ### Reports on a scene -/

/-- The errors of the report are its verdict, should it be that the scene is no tree, and its
unresolved references. -/
def PairReport.IsCounted (report : PairReport) : Prop :=
  report.count .error = (if report.verdict.isInvalid then 1 else 0) + report.unresolved.length

theorem PairReport.isCounted_unreadableScene (scene reason : String) :
    (unreadableScene scene reason).IsCounted := rfl

theorem Analysis.isCounted_link (scene text : String) (script : Option AttachedScript) :
    ((ofText scene text).link script).IsCounted := by
  have own : ∀ diagnostic ∈ ((ofText scene text).link script).diagnostics,
      diagnostic.severity = diagnostic.kind.severity := by
    intro diagnostic mem
    rcases List.mem_append.1 (perm_diagnostics_link.mem_iff.1 mem) with found | found
    · exact severity_of_mem_sceneDiagnostics found
    · exact severity_of_mem_scriptFindings found
  have structural : (((ofText scene text).link script).diagnostics.map Diagnostic.kind).filter
      Diagnostic.Kind.isStructural = _ := filter_isStructural_link
  have verdict : ((ofText scene text).link script).verdict = (ofText scene text).verdict := rfl
  have errors : ((ofText scene text).link script).count .error =
      ((ofText scene text).link script).diagnostics.countP Diagnostic.isError := rfl
  rw [PairReport.IsCounted, errors, Diagnostic.countP_isError own, structural, verdict,
    Analysis.verdict, Analysis.error?, PairReport.unresolved]
  cases (ofText scene text).outcome with
  | ok tree => rfl
  | error error => rfl

/-! ### Reports on a project -/

namespace ProjectReport

/-- Errors and warnings are all findings. -/
theorem errorCount_add_warningCount (pairs : List PairReport) :
    (ofPairs pairs).errorCount + (ofPairs pairs).warningCount =
      ((ofPairs pairs).pairs.flatMap PairReport.diagnostics).length := by
  rw [List.length_eq_countP_add_countP fun diagnostic : Diagnostic => diagnostic.severity = .error]
  refine congrArg _ (congrArg (List.countP · _) (funext fun diagnostic => ?_))
  cases diagnostic.severity <;> rfl

/-- If the errors of each report are its verdict and its unresolved references, so are the errors of
all of them. -/
theorem countAll_error {pairs : List PairReport} (counted : ∀ pair ∈ pairs, pair.IsCounted) :
    countAll .error pairs =
      pairs.countP (fun pair => pair.verdict.isInvalid) +
        (pairs.flatMap PairReport.unresolved).length := by
  induction pairs with
  | nil => rfl
  | cons pair rest ih =>
    obtain ⟨here, later⟩ := List.forall_mem_cons.1 counted
    have all := ih later
    rw [countAll] at all ⊢
    rw [PairReport.IsCounted, PairReport.count] at here
    rw [List.flatMap_cons, List.countP_append, all, here, List.countP_cons, List.flatMap_cons,
      List.length_append]
    omega

end ProjectReport

namespace Project

variable {project : Project} {disk : Disk}

/-- **What the errors of a project are.** They are the scenes that are no trees and the unresolved
references of all scripts. -/
theorem errorCount_check :
    (project.check disk).errorCount =
      (project.check disk).pairs.countP (fun pair => pair.verdict.isInvalid) +
        ((project.check disk).pairs.flatMap PairReport.unresolved).length :=
  ProjectReport.countAll_error fun _ =>
    of_mem_pairs_check PairReport.isCounted_unreadableScene Analysis.isCounted_link

end Project

end SceneAudit
