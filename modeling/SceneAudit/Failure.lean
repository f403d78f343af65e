/-!
# Failures

A run that comes to no report fails. A failure has a code, a message and sometimes the path at
which something is wrong.

## Main definitions

* `Failure`, `Failure.render`: a failure as it is reported.
* `ProjectFault`, `ProjectFault.failure`: why a project cannot be checked.
-/

namespace SceneAudit

/-- A failure as it is reported. -/
structure Failure where
  code : String
  message : String
  path : Option String
  deriving DecidableEq, Repr

/-- The failure in one line. -/
def Failure.render (failure : Failure) : String :=
  failure.code ++ ": " ++ failure.message

/-- Why a project cannot be checked, or one of its scenes cannot be shown. -/
inductive ProjectFault where
  /-- There is nothing at the root of the project. -/
  | rootMissing (root : String)
  | rootNotDirectory (root : String)
  /-- A scene file was found in a place that is not below the root of the project. -/
  | outsideRoot (path : String)
  | sceneMissing (scene : String)
  | sceneUnreadable (scene reason : String)
  /-- The threads for the check cannot be started. -/
  | threadPool (reason : String)
  deriving DecidableEq, Repr

/-- The failure that a fault is reported as. -/
def ProjectFault.failure : ProjectFault → Failure
  | rootMissing root =>
    ⟨"PROJECT_ROOT_NOT_FOUND", "project root does not exist: " ++ root, some root⟩
  | rootNotDirectory root =>
    ⟨"PROJECT_ROOT_NOT_DIR", "project root is not a directory: " ++ root, some root⟩
  | outsideRoot path => ⟨"SOURCE_SCAN", "prefix not found", some path⟩
  | sceneMissing scene =>
    ⟨"SCENE_NOT_FOUND", "scene file does not exist: " ++ scene, some scene⟩
  | sceneUnreadable scene reason => ⟨"SCENE_READ", reason, some scene⟩
  | threadPool reason => ⟨"THREAD_POOL", reason, none⟩

end SceneAudit
