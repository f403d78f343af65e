import SceneAudit.Proofs.CommandLine.ExitCode
import SceneAudit.Proofs.Json.Codecs

/-!
# Reports that are printed as JSON

A check that is asked for JSON prints one line break after its report, and nothing else. What it
prints is decoded as exactly the report that was made.

## Main results

* `CommandLine.Outcome.parse?_output_ofLines`: what is printed as JSON is read from the output.
* `CommandLine.decodes_written`: what is written as JSON is decoded again, in whatever order the
  fields are and whatever fields there are besides, and so is the report that a check prints.
-/

namespace SceneAudit.CommandLine

open Json

/-- What is printed as JSON is read from the output. -/
theorem Outcome.parse?_output_ofLines (code : Nat) {json : Json} (plain : json.IsPlain) :
    parse? (ofLines code [render .indented json]).output = some json := by
  have output : (ofLines code [render .indented json]).output = render .indented json ++ "\n" := by
    apply String.toList_injective
    rw [toList_output_ofLines, List.flatMap_singleton, String.toList_append]
    rfl
  rw [output]
  exact parse?_render Layout.isSpaced_indented plain (List.forall_mem_singleton.2 rfl)

/-- The JSON of the report is read from the output. -/
private theorem Outcome.parse?_output_ofReport (palette : Palette) (report : ProjectReport) :
    parse? (ofReport .json palette report).output = some report.toJson :=
  parse?_output_ofLines _ report.isPlain_toJson

private theorem checkReport_eq {disk : Disk} {options : CheckOptions} {pool : ThreadPool}
    {root : String} {report : ProjectReport} (resolved : resolveRoot disk options.root = .ok root)
    (checked : ({ options with root } : CheckOptions).check disk pool = .ok report) :
    checkReport disk options pool = .ok report := by
  rw [checkReport, resolved]
  exact congrArg (Except.mapError ProjectFault.failure) checked

/-- **What is written is decoded.** Locations, diagnostics, verdicts, reports, expectations and test
cases whose lines and counts can be counted are decoded from their JSON, also if fields of its
objects have changed places and if there are further fields of other names. So the report that a
check makes is decoded from what it prints if it is to print JSON. -/
theorem decodes_written :
    (∀ location : Location, location.InRange →
      Location.form.Decodes Location.ofJson? location.toJson location) ∧
    (∀ diagnostic : Diagnostic, diagnostic.InRange →
      Diagnostic.form.Decodes Diagnostic.ofJson? diagnostic.toJson diagnostic) ∧
    (∀ verdict : Verdict, Verdict.form.Decodes Verdict.ofJson? verdict.toJson verdict) ∧
    (∀ report : PairReport, report.InRange →
      PairReport.form.Decodes PairReport.ofJson? report.toJson report) ∧
    (∀ report : ProjectReport, report.InRange →
      ProjectReport.form.Decodes ProjectReport.ofJson? report.toJson report) ∧
    (∀ expectation : Expectation, expectation.InRange →
      Expectation.form.Decodes Expectation.ofJson? expectation.toJson expectation) ∧
    (∀ case : TestCase, case.InRange →
      TestCase.form.Decodes TestCase.ofJson? case.toJson case) ∧
    ∀ (disk : Disk) (pool : ThreadPool) (arguments : List String) (options : CheckOptions)
      (palette : Palette) (root : String) (report : ProjectReport),
      Invocation.ofArguments? arguments = some (.check options .json palette) →
      resolveRoot disk options.root = .ok root →
      ({ options with root } : CheckOptions).check disk pool = .ok report → report.InRange →
      (parse? (run disk arguments pool).output).bind ProjectReport.ofJson? = some report := by
  refine ⟨fun _ inRange => Location.respects_ofJson?.decodes (Location.ofJson?_toJson inRange),
    fun _ inRange => Diagnostic.respects_ofJson?.decodes (Diagnostic.ofJson?_toJson inRange),
    fun verdict => Verdict.respects_ofJson?.decodes verdict.ofJson?_toJson,
    fun _ inRange => PairReport.respects_ofJson?.decodes (PairReport.ofJson?_toJson inRange),
    fun _ inRange => ProjectReport.respects_ofJson?.decodes (ProjectReport.ofJson?_toJson inRange),
    fun _ inRange => Expectation.respects_ofJson?.decodes (Expectation.ofJson?_toJson inRange),
    fun _ inRange => TestCase.respects_ofJson?.decodes (TestCase.ofJson?_toJson inRange), ?_⟩
  intro disk pool arguments options palette root report accepted resolved checked inRange
  have outcome : run disk arguments pool = .ofReport .json palette report := by
    rw [run, accepted]
    change Invocation.run disk pool (.check options .json palette) = _
    rw [Invocation.run, checkReport_eq resolved checked]
  rw [outcome, Outcome.parse?_output_ofReport, Option.bind_some,
    ProjectReport.ofJson?_toJson inRange]

/-- A diagnostic whose fields are written in another order and with others besides, in its location
too; and what a check of a project prints. -/
theorem decodes_written_faulty :
    Diagnostic.ofJson? (.record [("suggestion", .text "Score"), ("message", .text "No node."),
        ("location", .record [("line", .natural 3), ("file", .text "hud.gd"),
          ("column", .natural 12)]),
        ("kind", .text "UNRESOLVED_REFERENCE"), ("severity", .text "error"), ("rule", .null)]) =
      some ⟨.error, .unresolvedReference, ⟨"hud.gd", some 3⟩, "No node.", some "Score"⟩ ∧
    TestCase.ofJson? (.record [("note", .text ""), ("schemaVersion", .text TestCase.schema),
        ("scenesDir", .text "levels"), ("excludeDirs", .list []),
        ("expectedDiagnostics", .list [.record [("code", .text "ROOT_MISSING"),
          ("file", .text "levels/hud.tscn")]])]) =
      some ⟨TestCase.schema, "levels", [], [⟨"ROOT_MISSING", ⟨"levels/hud.tscn", none⟩, none⟩]⟩ ∧
    (parse? (run faultyDisk ["check", "--format", "json"]).output).bind ProjectReport.ofJson? =
      some (.ofPairs faultyPairs) := by
  obtain ⟨-, diagnostics, -, -, -, -, cases, runs⟩ := decodes_written
  refine ⟨?_, ?_, ?_⟩
  · refine (diagnostics ⟨.error, .unresolvedReference, ⟨"hud.gd", some 3⟩, "No node.",
      some "Score"⟩ (by decide)).2 _ ?_
    have place : Location.form.Restates (.record [("file", .text "hud.gd"), ("line", .natural 3)])
        (.record [("line", .natural 3), ("file", .text "hud.gd"), ("column", .natural 12)]) :=
      (Form.Restates.extend (by decide) (.natural 12) _).trans
        (.permute (List.reverse_perm _).symm)
    refine (Form.Restates.field (List.mem_of_getElem? (i := 2) rfl) place
      [("severity", .text "error"), ("kind", .text "UNRESOLVED_REFERENCE")]
      [("message", .text "No node."), ("suggestion", .text "Score")]).trans ?_
    exact (Form.Restates.extend (by decide) .null _).trans (.permute (List.reverse_perm _).symm)
  · exact (cases ⟨TestCase.schema, "levels", [],
      [⟨"ROOT_MISSING", ⟨"levels/hud.tscn", none⟩, none⟩]⟩ (by decide)).2 _
        (.extend (by decide) (.text "") _)
  · have inRange : (ProjectReport.ofPairs faultyPairs).InRange := by
      rw [ProjectReport.ofPairs, mergeSort_faultyPairs]
      decide +kernel
    exact runs faultyDisk .unbounded _ ⟨".", "scenes", [], none⟩ .coloured _ _ (by decide +kernel)
      rfl (by with_unfolding_all rfl) inRange

end SceneAudit.CommandLine
