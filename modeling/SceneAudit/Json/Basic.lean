/-!
# JSON values

Reports are written, and expectations are read, as JSON. Whole numbers without a sign are kept
apart from all other numbers, since only they can be counts or lines; the others are kept as they
are written. So is a text with an escape that names no character, and an object with a field of such
a name. Any other object keeps its fields in order, and keeps all of them if a name is repeated.

## Main definitions

* `Json`: a JSON value.
* `Json.ofOption`: a value that may be missing, written as `null`.
-/

namespace SceneAudit

/-- A JSON value. -/
inductive Json where
  | null
  | bool (value : Bool)
  /-- A whole number written without sign, fraction and exponent. -/
  | natural (value : Nat)
  /-- Any other number as it is written, or a text or an object as it is written, if an escape in it
  names no character. -/
  | verbatim (literal : String)
  | text (value : String)
  | list (items : List Json)
  /-- An object, with its fields in the order in which they are written. -/
  | record (fields : List (String × Json))
  deriving Repr, Inhabited

namespace Json

/-- A value that may be missing, written as `null`. -/
def ofOption {α : Type} (toJson : α → Json) : Option α → Json
  | some value => toJson value
  | none => null

/-- A field that is left out if its value is missing. -/
def optionalField {α : Type} (name : String) (toJson : α → Json) :
    Option α → List (String × Json)
  | some value => [(name, toJson value)]
  | none => []

/-- A list of texts. -/
def texts (values : List String) : Json :=
  list (values.map text)

end Json

end SceneAudit
