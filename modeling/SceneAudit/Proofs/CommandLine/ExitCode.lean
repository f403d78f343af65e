import SceneAudit.CommandLine.Run
import SceneAudit.Proofs.Report.Counts

/-!
# What a check comes to

A check that can be made ends with the exit code one if there are errors and with zero otherwise,
and the last line that it prints says the same, whatever was written before it. The errors are those
of the report: scenes that are no trees and unresolved references. Directories that cannot be listed
and files that cannot be read are reported without being errors. A check that cannot be made, for
want of a project or of the threads that it is to run on, ends with the exit code one, and the first
line that it prints says so.

Lines are those of the text that is printed, not those that the report is made of: there may be line
feeds within the latter.

## Main definitions

* `CommandLine.Outcome.lines`: the lines that are printed.

## Main results

* `CommandLine.Outcome.head?_lines_ofLines`, `CommandLine.Outcome.getLast?_lines_ofLines`: the first
  and the last line that is printed.
* `CommandLine.exists_check_of_checkReport`: a report is one on some project.
* `CommandLine.run_check`: what a check comes to.
-/

namespace SceneAudit.CommandLine

open Text

/-! ### Printed lines -/

namespace Outcome

/-- The lines that are printed. -/
def lines (outcome : Outcome) : List String :=
  (Text.lines outcome.output.toList).map String.ofList

variable {code : Nat} {front rest : List String} {line : String}

theorem toList_output_ofLines (code : Nat) (printed : List String) :
    (ofLines code printed).output.toList =
      printed.flatMap fun line => line.toList ++ ['\n'] := by
  rw [ofLines, String.toList_join, List.flatMap_map]
  simp only [String.toList_append]
  rfl

private theorem endsLine_flatMap (printed : List String) :
    EndsLine (printed.flatMap fun line => line.toList ++ ['\n']) := by
  induction printed with
  | nil => exact .inl rfl
  | cons line rest ih => exact (endsLine_append_newline line.toList).append ih

/-- The first line is printed first, if it is no more than a line. -/
theorem head?_lines_ofLines (feed : '\n' ∉ line.toList)
    (carriage : line.toList.getLast? ≠ some '\r') :
    (ofLines code (line :: rest)).lines.head? = some line := by
  rw [lines, toList_output_ofLines, List.flatMap_cons, List.append_assoc, List.singleton_append,
    lines_append_newline feed carriage, List.map_cons, List.head?_cons, String.ofList_toList]

/-- The last line is printed last, if it is no more than a line. -/
theorem getLast?_lines_ofLines (feed : '\n' ∉ line.toList)
    (carriage : line.toList.getLast? ≠ some '\r') :
    (ofLines code (front ++ [line])).lines.getLast? = some line := by
  rw [lines, toList_output_ofLines, List.flatMap_append, List.flatMap_singleton,
    (endsLine_flatMap front).lines_append, lines_append_newline feed carriage, Text.lines,
    List.map_append, List.map_singleton, List.getLast?_concat, String.ofList_toList]

end Outcome

/-! ### Checks -/

variable {disk : Disk} {pool : ThreadPool} {options : CheckOptions} {report : ProjectReport}

/-- The report that a check is made of is the one on some project. -/
theorem exists_check_of_checkReport (h : checkReport disk options pool = .ok report) :
    ∃ project : Project, project.check disk = report := by
  rw [checkReport] at h
  split at h
  · contradiction
  · rename_i root _
    cases found : ({ options with root } : CheckOptions).check disk pool with
    | error fault =>
      rw [found] at h
      contradiction
    | ok made =>
      rw [found] at h
      obtain ⟨project, -, eq⟩ := CheckOptions.exists_of_check found
      exact ⟨project, eq.trans (Except.ok.inj h)⟩

/-- The last line of a report that is printed as text says whether there are errors. -/
private theorem getLast?_lines_ofReport (palette : Palette) (report : ProjectReport) :
    (Outcome.ofReport .text palette report).lines.getLast? =
      some (resultLine report.hasErrors) := by
  have plain : ∀ failed, '\n' ∉ (resultLine failed).toList ∧
      (resultLine failed).toList.getLast? ≠ some '\r' := by decide +kernel
  obtain ⟨front, whole⟩ := List.getLast?_eq_some_iff.1 (report.getLast?_lines palette)
  rw [Outcome.ofReport, whole]
  exact Outcome.getLast?_lines_ofLines (plain _).1 (plain _).2

/-- **What a check comes to.** For a command line that asks for a check, on a disk on which the
system may refuse to list or open anything, and with threads that it may not be able to start: if
there is a report, its errors are the scenes that are no trees and the unresolved references, its
errors and warnings are all findings, the exit code is one if there are errors and zero otherwise,
and as text the last line that is printed says so. If there is none, the exit code is one and the
first line says that there was an error. -/
theorem run_check (disk : Disk) (pool : ThreadPool) {arguments : List String}
    {options : CheckOptions} {format : Format} {palette : Palette}
    (accepted : Invocation.ofArguments? arguments = some (.check options format palette)) :
    (∀ report, checkReport disk options pool = .ok report →
      report.errorCount =
        report.pairs.countP (fun pair => pair.verdict.isInvalid) +
          (report.pairs.flatMap PairReport.unresolved).length ∧
      report.errorCount + report.warningCount =
        (report.pairs.flatMap PairReport.diagnostics).length ∧
      (run disk arguments pool).exitCode = (if 0 < report.errorCount then 1 else 0) ∧
      (format = .text → (run disk arguments pool).lines.getLast? =
        some (if 0 < report.errorCount then "RESULT:FAIL" else "RESULT:OK"))) ∧
    ∀ failure, checkReport disk options pool = .error failure →
      (run disk arguments pool).exitCode = 1 ∧
        (run disk arguments pool).lines.head? = some "RESULT:ERROR" := by
  have outcome : run disk arguments pool =
      Invocation.run disk pool (.check options format palette) := by
    rw [run, accepted]
  refine ⟨fun report made => ?_, fun failure fails => ?_⟩
  · obtain ⟨project, rfl⟩ := exists_check_of_checkReport made
    rw [outcome, Invocation.run, made]
    refine ⟨Project.errorCount_check, ProjectReport.errorCount_add_warningCount _, ?_, ?_⟩
    · simp only [Outcome.ofReport, Outcome.ofLines, ProjectReport.exitCode, ProjectReport.hasErrors,
        decide_eq_true_eq]
    · rintro rfl
      dsimp only
      rw [getLast?_lines_ofReport, resultLine, ProjectReport.hasErrors]
      simp only [decide_eq_true_eq]
  · rw [outcome, Invocation.run, fails]
    exact ⟨rfl, Outcome.head?_lines_ofLines (by decide) (by decide)⟩

/-- A scene whose root has a script. -/
def scriptedScene : String :=
  "[ext_resource path=\"res://hud.gd\" id=\"1\"]\n[node name=\"Hud\"]\n" ++
    "script = ExtResource(\"1\")\n"

/-- A project with one scene, whose script refers to a node that the scene does not have, and with a
directory that cannot be listed. -/
def faultyDisk : Disk where
  tree := .directory [("hud.gd", .file "var score = $Score\n".toUTF8),
    ("scenes", .directory [("hud.tscn", .file scriptedScene.toUTF8), ("locked", .directory [])])]
  workingDirectory := []
  closed? way := if way = ["scenes", "locked"] then some "Permission denied (os error 13)" else none

/-- The reports on the scene and on the directory. -/
def faultyPairs : List PairReport :=
  [checkTexts "scenes/hud.tscn" scriptedScene (some ("hud.gd", "var score = $Score\n")),
    .unreadableScene "scenes/locked"
      "IO error for operation on /./scenes/locked: Permission denied (os error 13)"]

theorem mergeSort_faultyPairs : faultyPairs.mergeSort PairReport.le = faultyPairs :=
  List.mergeSort_of_pairwise (by decide +kernel)

/-- Not more than a hundred threads can be started. -/
def hundredThreads : ThreadPool where
  refusal? threads := if 100 < threads then some "Resource temporarily unavailable" else none

/-- The unresolved reference makes the check fail, and the directory is a further finding. On too
many threads the project is not checked. -/
theorem run_check_faulty :
    (∃ options, Invocation.ofArguments? ["check", "--no-color", "--jobs", "4"] =
        some (.check options .text .plain) ∧
      checkReport faultyDisk options hundredThreads = .ok (.ofPairs faultyPairs)) ∧
    (ProjectReport.ofPairs faultyPairs).errorCount = 1 ∧
    ((ProjectReport.ofPairs faultyPairs).pairs.flatMap PairReport.diagnostics).length = 2 ∧
    (run faultyDisk ["check", "--no-color", "--jobs", "4"] hundredThreads).exitCode = 1 ∧
    (run faultyDisk ["check", "--no-color", "--jobs", "4"] hundredThreads).lines.getLast? =
      some "RESULT:FAIL" ∧
    (run faultyDisk ["check", "--jobs", "+101"] hundredThreads).exitCode = 1 ∧
    (run faultyDisk ["check", "--jobs", "+101"] hundredThreads).lines.head? =
      some "RESULT:ERROR" := by
  have accepted : Invocation.ofArguments? ["check", "--no-color", "--jobs", "4"] =
      some (.check ⟨".", "scenes", [], some 4⟩ .text .plain) := by decide +kernel
  have accepted' : Invocation.ofArguments? ["check", "--jobs", "+101"] =
      some (.check ⟨".", "scenes", [], some 101⟩ .text .coloured) := by decide +kernel
  have made : checkReport faultyDisk ⟨".", "scenes", [], some 4⟩ hundredThreads =
      .ok (.ofPairs faultyPairs) := by
    with_unfolding_all rfl
  have fails : checkReport faultyDisk ⟨".", "scenes", [], some 101⟩ hundredThreads =
      .error ⟨"THREAD_POOL", "Resource temporarily unavailable", none⟩ := by
    with_unfolding_all rfl
  have errors : (ProjectReport.ofPairs faultyPairs).errorCount = 1 := by
    rw [ProjectReport.ofPairs, mergeSort_faultyPairs]
    decide +kernel
  have findings :
      ((ProjectReport.ofPairs faultyPairs).pairs.flatMap PairReport.diagnostics).length = 2 := by
    rw [ProjectReport.ofPairs, mergeSort_faultyPairs]
    decide +kernel
  obtain ⟨-, -, code, last⟩ := (run_check faultyDisk hundredThreads accepted).1 _ made
  obtain ⟨code', first⟩ := (run_check faultyDisk hundredThreads accepted').2 _ fails
  rw [errors] at code last
  exact ⟨⟨_, accepted, made⟩, errors, findings, code, last rfl, code', first⟩

end SceneAudit.CommandLine
