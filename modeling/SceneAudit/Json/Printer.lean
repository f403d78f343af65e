import SceneAudit.Json.Basic

/-!
# Writing JSON

A text is written between quotation marks. A quotation mark and a backslash are escaped, as are
the control characters below the blank, five of them by a letter of their own and the others by
four hexadecimal digits; every other character stands for itself. Reports for readers are spread
over lines, two blanks for each level of nesting; there is a compact layout too.

## Main definitions

* `Json.quote`: a text as JSON.
* `Json.Layout`, `Json.Layout.compact`, `Json.Layout.indented`: where lines break.
* `Json.write`, `Json.render`: a value as JSON.
-/

namespace SceneAudit.Json

/-- The hexadecimal digits of a number below 256, the higher one first. -/
def hexPair (n : Nat) : List Char :=
  [Nat.digitChar (n / 16), Nat.digitChar (n % 16)]

/-- A character within a quoted text. -/
def quoteChar (c : Char) : List Char :=
  if c = '"' then ['\\', '"']
  else if c = '\\' then ['\\', '\\']
  else if c = '\n' then ['\\', 'n']
  else if c = '\r' then ['\\', 'r']
  else if c = '\t' then ['\\', 't']
  else if c.toNat = 8 then ['\\', 'b']
  else if c.toNat = 12 then ['\\', 'f']
  else if c.toNat < 32 then ['\\', 'u', '0', '0'] ++ hexPair c.toNat
  else [c]

/-- The characters of a quoted text. -/
def quoteChars (s : List Char) : List Char :=
  s.flatMap quoteChar

/-- A text between quotation marks. -/
def quoted (s : String) : List Char :=
  '"' :: quoteChars s.toList ++ ['"']

/-- A text as JSON. -/
def quote (s : String) : String :=
  String.ofList (quoted s)

/-- Where a value is broken into lines, and what stands between a name and its value. -/
structure Layout where
  /-- The blanks before an item at the given depth of nesting, and before the closing bracket. -/
  newline : Nat → List Char
  colon : List Char

namespace Layout

/-- Everything on one line, without blanks. -/
def compact : Layout := ⟨fun _ => [], [':']⟩

/-- One line for each item, two blanks for each level of nesting. -/
def indented : Layout := ⟨fun depth => '\n' :: List.replicate (2 * depth) ' ', [':', ' ']⟩

end Layout

mutual

/-- The value as JSON at the given depth of nesting. -/
def write (layout : Layout) (depth : Nat) : Json → List Char
  | .null => "null".toList
  | .bool true => "true".toList
  | .bool false => "false".toList
  | .natural n => (toString n).toList
  | .verbatim literal => literal.toList
  | .text s => quoted s
  | .list [] => ['[', ']']
  | .list (item :: rest) =>
    '[' :: layout.newline (depth + 1) ++ write layout (depth + 1) item ++
      writeItems layout (depth + 1) rest ++ layout.newline depth ++ [']']
  | .record [] => ['\x7b', '\x7d']
  | .record ((name, value) :: rest) =>
    '\x7b' :: layout.newline (depth + 1) ++ quoted name ++ layout.colon ++
      write layout (depth + 1) value ++ writeFields layout (depth + 1) rest ++
      layout.newline depth ++ ['\x7d']

/-- The items of a list after the first one, each with the comma before it. -/
def writeItems (layout : Layout) (depth : Nat) : List Json → List Char
  | [] => []
  | item :: rest =>
    ',' :: layout.newline depth ++ write layout depth item ++ writeItems layout depth rest

/-- The fields of an object after the first one, each with the comma before it. -/
def writeFields (layout : Layout) (depth : Nat) : List (String × Json) → List Char
  | [] => []
  | (name, value) :: rest =>
    ',' :: layout.newline depth ++ quoted name ++ layout.colon ++ write layout depth value ++
      writeFields layout depth rest

end

/-- The value as JSON. -/
def render (layout : Layout) (json : Json) : String :=
  String.ofList (write layout 0 json)

end SceneAudit.Json
