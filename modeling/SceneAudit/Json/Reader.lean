import SceneAudit.Json.Basic
import SceneAudit.Text.Scan

/-!
# Reading JSON

The reader accepts the JSON grammar and nothing else: no comments, no trailing commas, no text
after the value. A text must not contain a control character. Half of a surrogate pair on its own
names no character: a text with such an escape is JSON but is not decoded, and neither is an object
with a field of such a name.

## Main definitions

* `Json.takeText?`, `Json.takeNumber?`: a text and a number at the front of a text.
* `Json.takeQuoted?`: a text as it is written.
* `Json.parse?`: the value that a text is.

## Main results

* `Json.takeText?_quote`: the quotation mark that closes a text ends it.
-/

namespace SceneAudit.Json

/-- Whether `c` may stand between the tokens of JSON. -/
def isSpace (c : Char) : Bool :=
  c == ' ' || c == '\n' || c == '\t' || c == '\r'

/-- The text without the space at its front. -/
def skipSpace (s : List Char) : List Char :=
  s.dropWhile isSpace

/-! ### Texts -/

/-- The value of a hexadecimal digit. -/
def hexDigit? (c : Char) : Option Nat :=
  if '0' ≤ c ∧ c ≤ '9' then some (c.toNat - '0'.toNat)
  else if 'a' ≤ c ∧ c ≤ 'f' then some (c.toNat - 'a'.toNat + 10)
  else if 'A' ≤ c ∧ c ≤ 'F' then some (c.toNat - 'A'.toNat + 10)
  else none

/-- The number written by four hexadecimal digits. -/
def hexQuad? (a b c d : Char) : Option Nat := do
  return (((← hexDigit? a) * 16 + (← hexDigit? b)) * 16 + (← hexDigit? c)) * 16 + (← hexDigit? d)

/-- The character that a letter after a backslash stands for. -/
def escapedChar? (c : Char) : Option Char :=
  match c with
  | '"' => some '"'
  | '\\' => some '\\'
  | '/' => some '/'
  | 'b' => some '\x08'
  | 'f' => some '\x0c'
  | 'n' => some '\n'
  | 'r' => some '\r'
  | 't' => some '\t'
  | _ => none

/-- Whether a code unit is the first half of a surrogate pair. -/
def isHighSurrogate (n : Nat) : Bool :=
  0xD800 ≤ n && n < 0xDC00

/-- Whether a code unit is the second half of a surrogate pair. -/
def isLowSurrogate (n : Nat) : Bool :=
  0xDC00 ≤ n && n < 0xE000

/-- The character that a surrogate pair stands for. -/
def joinSurrogates (high low : Nat) : Char :=
  Char.ofNat (0x10000 + (high - 0xD800) * 0x400 + (low - 0xDC00))

/-- The text up to the closing quotation mark, with its escapes resolved, and what follows it. The
opening quotation mark is not part of the input. -/
def takeText? : List Char → Option (List Char × List Char)
  | [] => none
  | '"' :: rest => some ([], rest)
  | '\\' :: 'u' :: a :: b :: c :: d :: rest =>
    match hexQuad? a b c d with
    | none => none
    | some unit =>
      if isHighSurrogate unit then
        match rest with
        | '\\' :: 'u' :: e :: f :: g :: h :: rest =>
          match hexQuad? e f g h with
          | none => none
          | some second =>
            if isLowSurrogate second then
              (takeText? rest).map fun (s, tail) => (joinSurrogates unit second :: s, tail)
            else none
        | _ => none
      else if isLowSurrogate unit then none
      else (takeText? rest).map fun (s, tail) => (Char.ofNat unit :: s, tail)
  | '\\' :: c :: rest =>
    match escapedChar? c with
    | none => none
    | some c => (takeText? rest).map fun (s, tail) => (c :: s, tail)
  | c :: rest =>
    if c.toNat < 32 || c = '\\' then none
    else (takeText? rest).map fun (s, tail) => (c :: s, tail)

/-- The text up to the closing quotation mark as it is written, and what follows it. The opening
quotation mark is not part of the input. -/
def takeQuoted? : List Char → Option (List Char × List Char)
  | [] => none
  | '"' :: rest => some (['"'], rest)
  | '\\' :: 'u' :: a :: b :: c :: d :: rest =>
    if (hexQuad? a b c d).isSome then
      (takeQuoted? rest).map fun (s, tail) => ('\\' :: 'u' :: a :: b :: c :: d :: s, tail)
    else none
  | '\\' :: c :: rest =>
    if (escapedChar? c).isSome then (takeQuoted? rest).map fun (s, tail) => ('\\' :: c :: s, tail)
    else none
  | c :: rest =>
    if c.toNat < 32 || c = '\\' then none
    else (takeQuoted? rest).map fun (s, tail) => (c :: s, tail)

/-- The value that begins with a quotation mark, and what follows it. -/
def takeTextValue? (rest : List Char) : Option (Json × List Char) :=
  match takeText? rest with
  | some (s, tail) => some (text (String.ofList s), tail)
  | none =>
    (takeQuoted? rest).map fun (literal, tail) => (verbatim (String.ofList ('"' :: literal)), tail)

theorem takeText?_quote (rest : List Char) : takeText? ('"' :: rest) = some ([], rest) := by
  rw [takeText?]

/-! ### Numbers -/

/-- One or more digits, and what follows them. -/
def takeDigits? (s : List Char) : Option (List Char × List Char) :=
  match s.takeWhile Char.isDigit with
  | [] => none
  | digits => some (digits, s.dropWhile Char.isDigit)

/-- The digits of a whole number, and what follows them. No zero stands before other digits. -/
def takeWhole? (s : List Char) : Option (List Char × List Char) :=
  match takeDigits? s with
  | some ('0' :: _ :: _, _) => none
  | found => found

/-- A fraction if there is a point, otherwise nothing. -/
def takeFraction? : List Char → Option (List Char × List Char)
  | '.' :: rest => (takeDigits? rest).map fun (digits, tail) => ('.' :: digits, tail)
  | s => some ([], s)

/-- The sign of an exponent, if it has one. -/
def takeSign : List Char → List Char × List Char
  | '+' :: rest => (['+'], rest)
  | '-' :: rest => (['-'], rest)
  | s => ([], s)

/-- An exponent if there is the letter for it, otherwise nothing. -/
def takeExponent? : List Char → Option (List Char × List Char)
  | [] => some ([], [])
  | c :: rest =>
    if c = 'e' || c = 'E' then
      let (sign, rest) := takeSign rest
      (takeDigits? rest).map fun (digits, tail) => (c :: sign ++ digits, tail)
    else some ([], c :: rest)

/-- The number that digits write in base ten. -/
def ofDigits (digits : List Char) : Nat :=
  digits.foldl (fun n c => n * 10 + (c.toNat - '0'.toNat)) 0

/-- The number at the front of a text, and what follows it. -/
def takeNumber? (s : List Char) : Option (Json × List Char) := do
  let (sign, s) := match s with
    | '-' :: rest => (['-'], rest)
    | s => ([], s)
  let (whole, s) ← takeWhole? s
  let (fraction, s) ← takeFraction? s
  let (exponent, s) ← takeExponent? s
  if sign = [] ∧ fraction = [] ∧ exponent = [] then return (natural (ofDigits whole), s)
  else return (verbatim (String.ofList (sign ++ whole ++ fraction ++ exponent)), s)

/-! ### Values -/

/-- The name of a field after its opening quotation mark, if it can be decoded, and what follows
it. -/
def takeName? (rest : List Char) : Option (Option String × List Char) :=
  match takeText? rest with
  | some (name, tail) => some (some (String.ofList name), tail)
  | none => (takeQuoted? rest).map fun (_, tail) => (none, tail)

/-- The object with the given fields. It is kept as it is written if the name of a field cannot be
decoded; `rest` is the text after its opening brace and `tail` the text after its closing one. -/
def ofFields (fields : List (Option String × Json)) (rest tail : List Char) : Json :=
  match fields.mapM fun (name, value) => name.map fun name => (name, value) with
  | some fields => record fields
  | none => verbatim (String.ofList ('\x7b' :: rest.take (rest.length - tail.length)))

mutual

/-- The value at the front of a text, and what follows it. The first argument bounds the number of
steps; a value takes no more steps than it has characters. -/
def readValue : Nat → List Char → Option (Json × List Char)
  | 0, _ => none
  | fuel + 1, s =>
    match skipSpace s with
    | 'n' :: rest => (Text.after? "ull".toList rest).map fun tail => (null, tail)
    | 't' :: rest => (Text.after? "rue".toList rest).map fun tail => (bool true, tail)
    | 'f' :: rest => (Text.after? "alse".toList rest).map fun tail => (bool false, tail)
    | '"' :: rest => takeTextValue? rest
    | '[' :: rest =>
      match skipSpace rest with
      | ']' :: tail => some (list [], tail)
      | _ => do
        let (item, tail) ← readValue fuel rest
        let (items, tail) ← readItems fuel tail
        return (list (item :: items), tail)
    | '\x7b' :: rest =>
      match skipSpace rest with
      | '\x7d' :: tail => some (record [], tail)
      | _ => do
        let (field, tail) ← readField fuel rest
        let (fields, tail) ← readFields fuel tail
        return (ofFields (field :: fields) rest tail, tail)
    | s => takeNumber? s

/-- The items of a list after one of them, up to the closing bracket. -/
def readItems : Nat → List Char → Option (List Json × List Char)
  | 0, _ => none
  | fuel + 1, s =>
    match skipSpace s with
    | ']' :: tail => some ([], tail)
    | ',' :: rest => do
      let (item, tail) ← readValue fuel rest
      let (items, tail) ← readItems fuel tail
      return (item :: items, tail)
    | _ => none

/-- A name, if it can be decoded, and its value. -/
def readField : Nat → List Char → Option ((Option String × Json) × List Char)
  | 0, _ => none
  | fuel + 1, s =>
    match skipSpace s with
    | '"' :: rest => do
      let (name, tail) ← takeName? rest
      let tail ← Text.after? [':'] (skipSpace tail)
      let (value, tail) ← readValue fuel tail
      return ((name, value), tail)
    | _ => none

/-- The fields of an object after one of them, up to the closing bracket. -/
def readFields : Nat → List Char → Option (List (Option String × Json) × List Char)
  | 0, _ => none
  | fuel + 1, s =>
    match skipSpace s with
    | '\x7d' :: tail => some ([], tail)
    | ',' :: rest => do
      let (field, tail) ← readField fuel rest
      let (fields, tail) ← readFields fuel tail
      return (field :: fields, tail)
    | _ => none

end

/-- The value that a text is, space around it aside. -/
def parse? (s : String) : Option Json :=
  match readValue (s.length + 1) s.toList with
  | some (json, rest) => if skipSpace rest = [] then some json else none
  | none => none

end SceneAudit.Json
