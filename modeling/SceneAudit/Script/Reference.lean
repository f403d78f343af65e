import SceneAudit.Text.Blank
import SceneAudit.Text.Line
import SceneAudit.Text.Scan
import SceneAudit.Text.Word

/-!
# Node references of a script

A script refers to a node of its scene where it declares a variable and binds it to a node path,
as in `@onready var label: Label = $Content/Label`. Such a binding stands at the front of a line,
blanks aside. Between `var name` and the path there may be a type after a colon; the type may be
left out after the colon, and may have one argument in brackets. A node path is a run of word
characters or several of them joined by single slashes; it ends where such a run ends, whatever
comes next.

A binding is cached if it is marked with `@onready`, on its own line or alone on a line before it
with nothing but blank lines and comments in between.

## Main definitions

* `Script.Binding`, `Script.Binding.ofLine?`: the binding at the front of a line.
* `Script.Reference`, `Script.references`: the node references of a script.

## Main results

* `Script.pairwise_line_references`: the lines of the references of a script increase.
* `Script.takePath_isPrefix`: a node path is taken from the front of the text.
-/

namespace SceneAudit.Script

open Text

/-- The mark of a variable that is bound when its scene is ready. -/
def cacheMark : String := "@onready"

/-- The sign in front of a node path. -/
def pathSign : Char := '$'

/-! ### Bindings -/

/-- The text after one or more blanks. -/
def afterBlanks? : List Char → Option (List Char)
  | [] => none
  | c :: rest => if isBlank c then some (skipBlanks rest) else none

/-- The characters of a type after the first one: word characters and dots. -/
def isTypeChar (c : Char) : Bool :=
  isWord c || c == '.'

/-- The text after a type, with or without an argument in brackets, or the text itself if no type
is at its front. A bracket that is not closed properly is left where it is. -/
def skipType : List Char → List Char
  | [] => []
  | c :: rest =>
    if isNameStart c then
      match rest.dropWhile isTypeChar with
      | '[' :: argument =>
        match argument.takeWhile isTypeChar, argument.dropWhile isTypeChar with
        | _ :: _, ']' :: tail => tail
        | _, _ => '[' :: argument
      | tail => tail
    else c :: rest

/-- The text after a colon and a type, blanks around both included, or the text itself if there is
no colon at its front. -/
def skipTypeMark : List Char → List Char
  | ':' :: rest => skipBlanks (skipType (skipBlanks rest))
  | s => s

/-- The node path at the front of a text that starts with a word character: word characters, and
slashes between two of them. -/
def takePath : List Char → List Char
  | [] => []
  | [c] => if isWord c then [c] else []
  | c :: next :: rest =>
    if isWord c || (c = '/' && isWord next) then c :: takePath (next :: rest) else []

/-- A variable that is bound to a node path. -/
structure Binding where
  /-- Whether the declaration itself carries the cache mark. -/
  marked : Bool
  variableName : String
  path : String
  deriving DecidableEq, Repr

namespace Binding

/-- The name after `var` and what follows it, blanks skipped. -/
def takeVariable? (s : List Char) : Option (List Char × List Char) := do
  let s ← after? "var".toList s
  match ← afterBlanks? s with
  | [] => none
  | c :: rest =>
    if isNameStart c then
      some (c :: rest.takeWhile isWord, skipBlanks (rest.dropWhile isWord))
    else none

/-- The node path after an equals sign and the path sign. -/
def takeTarget? (s : List Char) : Option (List Char) := do
  let s ← after? ['='] s
  let s ← after? [pathSign] (skipBlanks s)
  match s with
  | [] => none
  | c :: _ => if isWord c then some (takePath s) else none

/-- The text after the cache mark and the blanks that have to follow it. -/
def afterMark? (s : List Char) : Option (List Char) :=
  (after? cacheMark.toList s).bind afterBlanks?

/-- The binding at the front of a line without blanks at its ends. -/
def ofLine? (line : List Char) : Option Binding := do
  let mark := afterMark? line
  let (variableName, s) ← takeVariable? (mark.getD line)
  let path ← takeTarget? (skipTypeMark s)
  return {
    marked := mark.isSome
    variableName := String.ofList variableName
    path := String.ofList path }

end Binding

/-! ### References -/

/-- A node reference of a script. -/
structure Reference where
  /-- The line of the declaration, counted from one. -/
  line : Nat
  variableName : String
  path : String
  /-- Whether the declaration carries the cache mark. -/
  cached : Bool
  deriving DecidableEq, Repr

/-- The references on the given lines, the first of which has number `n`. `marked` says whether a
cache mark alone on a line waits for its declaration. -/
def referencesFrom : Bool → Nat → List (List Char) → List Reference
  | _, _, [] => []
  | marked, n, line :: rest =>
    let text := trim line
    if text = [] || text.head? = some '#' then referencesFrom marked (n + 1) rest
    else if text = cacheMark.toList then referencesFrom true (n + 1) rest
    else
      ((Binding.ofLine? text).map fun binding =>
          { line := n, variableName := binding.variableName, path := binding.path,
            cached := marked || binding.marked }).toList ++
        referencesFrom false (n + 1) rest

/-- The node references of a script, in the order of its lines. -/
def references (text : String) : List Reference :=
  referencesFrom false 1 (lines text.toList)

theorem le_line_of_mem_referencesFrom {marked : Bool} {n : Nat} {lines : List (List Char)}
    {reference : Reference} (h : reference ∈ referencesFrom marked n lines) :
    n ≤ reference.line := by
  fun_induction referencesFrom marked n lines with
  | case1 => contradiction
  | case2 marked n line rest text blank ih => exact Nat.le_of_succ_le (ih h)
  | case3 marked n line rest text plain mark ih => exact Nat.le_of_succ_le (ih h)
  | case4 marked n line rest text plain unmarked ih =>
    rcases List.mem_append.1 h with h | h
    · rw [Option.mem_toList, Option.map_eq_some_iff] at h
      obtain ⟨binding, -, rfl⟩ := h
      exact Nat.le_refl n
    · exact Nat.le_of_succ_le (ih h)

private theorem pairwise_line_referencesFrom (marked : Bool) (n : Nat) (lines : List (List Char)) :
    (referencesFrom marked n lines).Pairwise fun left right => left.line < right.line := by
  fun_induction referencesFrom marked n lines with
  | case1 => exact .nil
  | case2 marked n line rest text blank ih => exact ih
  | case3 marked n line rest text plain mark ih => exact ih
  | case4 marked n line rest text plain unmarked ih =>
    cases Binding.ofLine? text with
    | none => exact ih
    | some binding =>
      refine List.pairwise_cons.2 ⟨fun reference mem => ?_, ih⟩
      exact le_line_of_mem_referencesFrom mem

/-- The lines of the references of a script increase. -/
theorem pairwise_line_references (text : String) :
    (references text).Pairwise fun left right => left.line < right.line :=
  pairwise_line_referencesFrom false 1 _

/-! ### Node paths -/

/-- A node path is taken from the front of the text. -/
theorem takePath_isPrefix (s : List Char) : takePath s <+: s := by
  fun_induction takePath s with
  | case1 => exact List.prefix_rfl
  | case2 => exact List.prefix_rfl
  | case3 => exact List.nil_prefix
  | case4 c next rest h ih => exact List.cons_prefix_cons.2 ⟨rfl, ih⟩
  | case5 => exact List.nil_prefix

end SceneAudit.Script
