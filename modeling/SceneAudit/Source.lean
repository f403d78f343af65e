/-!
# Source texts

Scenes, scripts and expectations are texts in files. In the place of a file there is its text,
nothing, or something that cannot be read as a text.

## Main definitions

* `Source`: what was found in the place of a file.
-/

namespace SceneAudit

/-- What was found in the place of a file. -/
inductive Source where
  | loaded (text : String)
  | missing
  | unreadable (reason : String)
  deriving DecidableEq, Repr

end SceneAudit
