import SceneAudit.CommandLine.Help
import SceneAudit.Report.Lines

/-!
# Runs of the command line

A run reads a disk, on the threads that the system can start, and comes to an outcome: what is
written to standard output, and an exit code. The exit code is one if the report has errors or
cannot be made, and two if the arguments are rejected.

## Main definitions

* `CommandLine.Outcome`: what a run comes to.
* `CommandLine.run`: the run with the given arguments.
* `CommandLine.places`: the paths where this run looks for files.
-/

namespace SceneAudit.CommandLine

/-- What a run comes to. -/
structure Outcome where
  exitCode : Nat
  /-- What is written to standard output. -/
  output : String
  deriving DecidableEq, Repr

namespace Outcome

/-- The outcome with the given lines of output. -/
def ofLines (exitCode : Nat) (lines : List String) : Outcome where
  exitCode
  output := String.join (lines.map fun line => line ++ "\n")

/-- The outcome of a run that fails. -/
def ofFailure (failure : Failure) : Outcome :=
  ofLines 1 failure.lines

/-- The outcome of a check. -/
def ofReport (format : Format) (palette : Palette) (report : ProjectReport) : Outcome :=
  ofLines report.exitCode <|
    match format with
    | .text => report.lines palette
    | .json => [Json.render .indented report.toJson]

/-- The outcome of the view of a scene, which is never coloured. -/
def ofView (format : Format) (view : SceneView) : Outcome :=
  ofLines (if view.isValid then 0 else 1) <|
    match format with
    | .text => view.lines .plain
    | .json => [Json.render .indented view.toJson]

end Outcome

/-- The root of a project as seen from the working directory, which must not have been removed
unless the root is an absolute path. -/
def resolveRoot (disk : Disk) (root : String) : Except Failure String :=
  if DiskPath.isAbsolute root then .ok root
  else if disk.lost = 0 then .ok (DiskPath.join disk.workingPath root)
  else .error ⟨"CLI_PROJECT_PATH", Disk.Fault.notFound.reason, none⟩

/-- The report on a project whose root is given on the command line. -/
def checkReport (disk : Disk) (options : CheckOptions) (pool : ThreadPool := .unbounded) :
    Except Failure ProjectReport :=
  match resolveRoot disk options.root with
  | .error failure => .error failure
  | .ok root => ({ options with root }.check disk pool).mapError ProjectFault.failure

/-- The analysis of a scene of a project whose root is given on the command line. -/
def sceneAnalysis (disk : Disk) (root scene : String) : Except Failure Analysis :=
  match resolveRoot disk root with
  | .error failure => .error failure
  | .ok root => ((Project.ofScenes root [] []).analyze disk scene).mapError ProjectFault.failure

/-- The outcome of an invocation. -/
def Invocation.run (disk : Disk) (pool : ThreadPool) : Invocation → Outcome
  | check options format palette =>
    match checkReport disk options pool with
    | .ok report => .ofReport format palette report
    | .error failure => .ofFailure failure
  | index root scene format =>
    match sceneAnalysis disk root scene with
    | .ok analysis => .ofView format analysis.view
    | .error failure => .ofFailure failure
  | help topic => .ofLines 0 topic.lines

/-- The paths at which, and below which, an invocation looks for files. -/
def Invocation.places (disk : Disk) : Invocation → List String
  | check options _ _ =>
    let root := DiskPath.join disk.workingPath options.root
    [root, { options with root }.start]
  | index root scene _ => [DiskPath.join (DiskPath.join disk.workingPath root) scene]
  | help _ => []

/-- The paths at which, and below which, the run with the given arguments looks for files. -/
def places (disk : Disk) (arguments : List String) : List String :=
  ((Invocation.ofArguments? arguments).map (Invocation.places disk)).getD []

/-- The run with the given arguments. -/
def run (disk : Disk) (arguments : List String) (pool : ThreadPool := .unbounded) : Outcome :=
  match Invocation.ofArguments? arguments with
  | some invocation => invocation.run disk pool
  | none => ⟨2, ""⟩

end SceneAudit.CommandLine
