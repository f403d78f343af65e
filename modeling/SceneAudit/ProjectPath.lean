import SceneAudit.Text.Segment

/-!
# Paths within a project

Files of a project are named by their path from the project's root: segments that are neither
empty nor a single or double dot, joined by slashes. Any other text is brought into this form by
reading backslashes as slashes, leaving out empty segments and single dots, and letting a double
dot take back the segment before it; at the root there is nothing to take back.

A scene names its script by a path from the project's root, marked by `res://` or a leading
slash, or by a path from the directory of the scene.

## Main definitions

* `ProjectPath.normalize`: the normal form of a path.
* `ProjectPath.ofScript`: the path of a script that a scene names.
* `ProjectPath.IsSegment`, `ProjectPath.IsNormal`: the segments of a normal form, and the paths
  that are in normal form.

## Main results

* `ProjectPath.reduce_append`: reducing segments goes on where it left off.
-/

namespace SceneAudit.ProjectPath

open Text

/-- Backslashes read as slashes. -/
def unify (path : List Char) : List Char :=
  path.map fun c => if c = '\\' then '/' else c

/-- One more segment on a stack of segments, the last one on top. -/
def push (stack : List (List Char)) (segment : List Char) : List (List Char) :=
  if segment = [] ∨ segment = ['.'] then stack
  else if segment = ['.', '.'] then stack.tail
  else segment :: stack

/-- All of the given segments on the stack, one after the other. -/
def reduce (stack : List (List Char)) (segments : List (List Char)) : List (List Char) :=
  segments.foldl push stack

/-- The segments of the normal form of a path. -/
def normalSegments (path : List Char) : List (List Char) :=
  (reduce [] (pieces (unify path))).reverse

/-- The normal form of a path. -/
def normalize (path : String) : String :=
  String.ofList (joinPieces (normalSegments path.toList))

/-- How a path from the project's root is marked. -/
def resourceScheme : String := "res://"

/-- The path up to its last slash, which is left out, or nothing if there is no slash. -/
def directory (path : String) : String :=
  joinSegments (segments path).dropLast

/-- The path of the script that a scene names. -/
def ofScript (scene script : String) : String :=
  if resourceScheme.toList.isPrefixOf script.toList then
    normalize (String.ofList (script.toList.drop resourceScheme.length))
  else if script.toList.head? = some '/' then normalize script
  else normalize (directory scene ++ "/" ++ script)

/-! ### Normal forms -/

/-- A segment of a normal form: not empty, no dots that stand for a directory, and no separator. -/
def IsSegment (segment : List Char) : Prop :=
  segment ≠ [] ∧ segment ≠ ['.'] ∧ segment ≠ ['.', '.'] ∧ '/' ∉ segment ∧ '\\' ∉ segment

/-- A path in normal form: segments joined by slashes. -/
def IsNormal (path : String) : Prop :=
  ∃ segments : List (List Char),
    (∀ segment ∈ segments, IsSegment segment) ∧ path.toList = joinPieces segments

/-- A path without backslashes stays as it is. -/
theorem unify_eq_self {path : List Char} (slashes : '\\' ∉ path) : unify path = path := by
  refine (List.map_congr_left fun c mem => ?_).trans (List.map_id path)
  exact if_neg fun same : c = '\\' => slashes (same ▸ mem)

/-- Reducing segments goes on where it left off. -/
theorem reduce_append (stack front back : List (List Char)) :
    reduce stack (front ++ back) = reduce (reduce stack front) back :=
  List.foldl_append

end SceneAudit.ProjectPath
