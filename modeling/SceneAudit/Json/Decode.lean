import SceneAudit.Json.Basic

/-!
# Decoding JSON

A record type is decoded from an object, whose fields may stand in any order and among fields of
other names, or from a list of its fields in the order of their declaration. A field that may be
missing may also be `null`. Counts and lines are whole numbers below `2 ^ 64`. A name, such as a
severity, is a text, or an object with that name as its only field and `null` as its value.

## Main definitions

* `Json.text?`, `Json.bool?`, `Json.count?`, `Json.list?`, `Json.name?`: values of simple types.
* `Json.arrange?`: the fields of a record type, in the order of their declaration.
* `Json.required`, `Json.optional`, `Json.withDefault`: what a missing field means.

## Main results

* `Json.field?_perm`: the order of the fields of an object is of no consequence.
-/

namespace SceneAudit.Json

/-- The least number that is too great for a count or a line, which is `2 ^ 64`. -/
def countBound : Nat := 18446744073709551616

/-- A text. -/
def text? : Json → Option String
  | text s => some s
  | _ => none

/-- A truth value. -/
def bool? : Json → Option Bool
  | bool b => some b
  | _ => none

/-- A count or a line. -/
def count? : Json → Option Nat
  | natural n => if n < countBound then some n else none
  | _ => none

/-- A list of values of one type. -/
def list? {α : Type} (decode : Json → Option α) : Json → Option (List α)
  | list items => items.mapM decode
  | _ => none

/-- A name out of a fixed choice. -/
def name? : Json → Option String
  | text s => some s
  | record [(name, null)] => some name
  | _ => none

/-- The only item of a list, or none if the list is empty. It fails if there are several. -/
def only? {α : Type} : List α → Option (Option α)
  | [] => some none
  | [item] => some (some item)
  | _ => none

/-- The value of the field called `name`, or none if there is no such field. It fails if there are
several. -/
def field? (fields : List (String × Json)) (name : String) : Option (Option Json) :=
  (only? (fields.filter fun field => field.1 == name)).map (Option.map Prod.snd)

/-- The values of the fields with the given names, in this order; what is not there is missing. A
list must not have more items than there are names. -/
def arrange? (names : List String) : Json → Option (List (Option Json))
  | record fields => names.mapM (field? fields)
  | list items =>
    if items.length ≤ names.length then
      some ((List.range names.length).map fun i => items[i]?)
    else none
  | _ => none

/-- A field that has to be there. -/
def required {α : Type} (decode : Json → Option α) (value : Option Json) : Option α :=
  value.bind decode

/-- A field that may be missing or `null`. -/
def optional {α : Type} (decode : Json → Option α) : Option Json → Option (Option α)
  | none | some null => some none
  | some value => (decode value).map some

/-- A field that may be missing, and then has a fixed value. -/
def withDefault {α : Type} (decode : Json → Option α) (default : α) : Option Json → Option α
  | none => some default
  | some value => decode value

/-! ### The order of fields -/

private theorem only?_perm {α : Type} {items others : List α} (h : items.Perm others) :
    only? items = only? others := by
  match items, others, h with
  | [], [], _ => rfl
  | [_], [_], h => rw [List.perm_singleton.1 h]
  | _ :: _ :: _, _ :: _ :: _, _ => rfl
  | [], _ :: _, h | _ :: _, [], h | [_], _ :: _ :: _, h | _ :: _ :: _, [_], h =>
    have := h.length_eq
    simp at this

/-- The order of the fields of an object is of no consequence. -/
theorem field?_perm {fields others : List (String × Json)} (h : fields.Perm others)
    (name : String) : field? fields name = field? others name := by
  rw [field?, field?, only?_perm (h.filter _)]

end SceneAudit.Json
