import SceneAudit.Json.Printer
import SceneAudit.Json.Reader

/-!
# What is written can be read

The reader of JSON gives back every value that is written, in any layout that breaks it by space
only, as long as no part of the value was kept as it is written. A number is over only where
something follows that ends a value, so what is said about a value is said about a text that goes on
with such a thing.

## Main definitions

* `Json.Delimited`: a text at whose front a value is over.
* `Json.Layout.IsSpaced`: a layout that puts nothing but space between tokens.
* `Json.IsPlain`: a value without any part that is kept as it is written.
* `Json.ReadsBack`: a value that is read from what is written for it.

## Main results

* `Json.Layout.isSpaced_indented`: the layout of reports for readers is of this kind.
* `Json.takeText?_quoteChars`, `Json.takeNumber?_toDigits`: texts and numbers are read back.
* `Json.readsBack_list`, `Json.readsBack_record`: lists and objects are read back if their items and
  fields are.
* `Json.parse?_render`: a plain value is read from its text.
-/

namespace SceneAudit.Json

/-! ### Texts -/

private theorem hexDigit?_digitChar {n : Nat} (small : n < 16) :
    hexDigit? (Nat.digitChar n) = some n := by
  have all : ∀ n < 16, hexDigit? (Nat.digitChar n) = some n := by decide
  exact all n small

private theorem hexQuad?_hexPair {n : Nat} (small : n < 256) :
    hexQuad? '0' '0' (Nat.digitChar (n / 16)) (Nat.digitChar (n % 16)) = some n := by
  have zero : hexDigit? '0' = some 0 := rfl
  have high : n / 16 < 16 := by omega
  have low : n % 16 < 16 := by omega
  simp only [hexQuad?, zero, hexDigit?_digitChar high, hexDigit?_digitChar low, Option.bind_eq_bind,
    Option.bind_some, Option.pure_def, Option.some.injEq]
  omega

private theorem takeText?_escaped {letter c : Char} (named : escapedChar? letter = some c)
    (rest : List Char) :
    takeText? ('\\' :: letter :: rest) = (takeText? rest).map fun (s, tail) => (c :: s, tail) := by
  have unit : letter ≠ 'u' := by
    rintro rfl
    contradiction
  rw [takeText?, named]
  rintro _ _ _ _ _ rfl
  contradiction

private theorem takeText?_control {c : Char} (control : c.toNat < 32) (rest : List Char) :
    takeText? ('\\' :: 'u' :: '0' :: '0' :: (hexPair c.toNat ++ rest)) =
      (takeText? rest).map fun (s, tail) => (c :: s, tail) := by
  have unit : hexQuad? '0' '0' (Nat.digitChar (c.toNat / 16)) (Nat.digitChar (c.toNat % 16)) =
      some c.toNat := hexQuad?_hexPair (by omega)
  have high : isHighSurrogate c.toNat = false := by
    simp only [isHighSurrogate, Bool.and_eq_false_iff, decide_eq_false_iff_not]
    omega
  have low : isLowSurrogate c.toNat = false := by
    simp only [isLowSurrogate, Bool.and_eq_false_iff, decide_eq_false_iff_not]
    omega
  simp only [hexPair, List.cons_append, List.nil_append, takeText?, unit, high, low,
    Bool.false_eq_true, ↓reduceIte, Char.ofNat_toNat]

private theorem takeText?_ordinary {c : Char} (quote : c ≠ '"') (backslash : c ≠ '\\')
    (printed : ¬ c.toNat < 32) (rest : List Char) :
    takeText? (c :: rest) = (takeText? rest).map fun (s, tail) => (c :: s, tail) := by
  rw [takeText?]
  · simp [backslash, printed]
  · exact quote
  · rintro _ _ _ _ _ rfl
    contradiction
  · rintro _ _ rfl
    contradiction

/-- A character is escaped by a letter, or by its code, or stands for itself. -/
theorem quoteChar_cases (c : Char) :
    (∃ letter, escapedChar? letter = some c ∧ quoteChar c = ['\\', letter]) ∨
      (c.toNat < 32 ∧ quoteChar c = ['\\', 'u', '0', '0'] ++ hexPair c.toNat) ∨
      (c ≠ '"' ∧ c ≠ '\\' ∧ ¬ c.toNat < 32) ∧ quoteChar c = [c] := by
  by_cases quote : c = '"'
  · exact .inl ⟨'"', by subst quote; exact ⟨rfl, rfl⟩⟩
  by_cases backslash : c = '\\'
  · exact .inl ⟨'\\', by subst backslash; exact ⟨rfl, rfl⟩⟩
  by_cases newline : c = '\n'
  · exact .inl ⟨'n', by subst newline; exact ⟨rfl, rfl⟩⟩
  by_cases carriage : c = '\r'
  · exact .inl ⟨'r', by subst carriage; exact ⟨rfl, rfl⟩⟩
  by_cases tab : c = '\t'
  · exact .inl ⟨'t', by subst tab; exact ⟨rfl, rfl⟩⟩
  by_cases backspace : c = '\x08'
  · exact .inl ⟨'b', by subst backspace; exact ⟨rfl, rfl⟩⟩
  by_cases feed : c = '\x0c'
  · exact .inl ⟨'f', by subst feed; exact ⟨rfl, rfl⟩⟩
  have unnamed : c.toNat ≠ 8 ∧ c.toNat ≠ 12 :=
    ⟨fun code => backspace (Char.toNat_inj.1 code), fun code => feed (Char.toNat_inj.1 code)⟩
  rw [quoteChar, if_neg quote, if_neg backslash, if_neg newline, if_neg carriage, if_neg tab,
    if_neg unnamed.1, if_neg unnamed.2]
  by_cases control : c.toNat < 32
  · exact .inr (.inl ⟨control, if_pos control⟩)
  · exact .inr (.inr ⟨⟨quote, backslash, control⟩, if_neg control⟩)

/-- A character is read from what is written for it. -/
private theorem takeText?_quoteChar (c : Char) (rest : List Char) :
    takeText? (quoteChar c ++ rest) = (takeText? rest).map fun (s, tail) => (c :: s, tail) := by
  obtain ⟨letter, named, written⟩ | ⟨control, written⟩ | ⟨⟨quote, backslash, printed⟩, written⟩ :=
    quoteChar_cases c
  · rw [written]
    exact takeText?_escaped named rest
  · rw [written]
    exact takeText?_control control rest
  · rw [written]
    exact takeText?_ordinary quote backslash printed rest

/-- A text is read from what is written for it. -/
theorem takeText?_quoteChars (s rest : List Char) :
    takeText? (quoteChars s ++ '"' :: rest) = some (s, rest) := by
  induction s with
  | nil => exact takeText?_quote rest
  | cons c s ih =>
    rw [quoteChars, List.flatMap_cons, List.append_assoc, takeText?_quoteChar, ← quoteChars, ih,
      Option.map_some]

theorem quoted_append (s : String) (rest : List Char) :
    quoted s ++ rest = '"' :: (quoteChars s.toList ++ '"' :: rest) := by
  rw [quoted, List.append_assoc, List.cons_append, List.singleton_append]

/-! ### Numbers -/

/-- Whether `c` may follow a value. -/
def isDelimiter (c : Char) : Bool :=
  isSpace c || c == ',' || c == ']' || c == '\x7d'

/-- A text at whose front a value is over. -/
def Delimited (rest : List Char) : Prop :=
  ∀ c ∈ rest.head?, isDelimiter c = true

/-- Nothing that may follow a value belongs to a number. -/
theorem isDigit_of_isDelimiter {c : Char} (delimiter : isDelimiter c = true) :
    c.isDigit = false ∧ c ≠ '.' ∧ c ≠ 'e' ∧ c ≠ 'E' := by
  simp only [isDelimiter, isSpace, Bool.or_eq_true, beq_iff_eq] at delimiter
  rcases delimiter with (((((rfl | rfl) | rfl) | rfl) | rfl) | rfl) | rfl <;> decide

theorem isDelimiter_of_isDigit {c : Char} (digit : c.isDigit = true) : isDelimiter c = false := by
  refine Bool.eq_false_iff.2 fun delimiter => ?_
  rw [(isDigit_of_isDelimiter delimiter).1] at digit
  contradiction

theorem isSpace_of_isDelimiter {c : Char} (inner : isDelimiter c = false) : isSpace c = false := by
  simp only [isDelimiter, Bool.or_eq_false_iff] at inner
  exact inner.1.1.1

theorem isDigit_of_mem_toDigits {n : Nat} {c : Char} (mem : c ∈ Nat.toDigits 10 n) :
    c.isDigit = true :=
  Nat.isDigit_of_mem_toDigits (by decide) (by decide) mem

/-- A number is written with a digit at its front. -/
theorem exists_toDigits_eq_cons (n : Nat) :
    ∃ first more, Nat.toDigits 10 n = first :: more ∧ first.isDigit = true := by
  obtain ⟨first, more, digits⟩ :=
    List.exists_cons_of_ne_nil (Nat.toDigits_ne_nil (b := 10) (n := n))
  exact ⟨first, more, digits, isDigit_of_mem_toDigits (digits ▸ List.mem_cons_self)⟩

/-- A number that is not zero is not written with a zero at its front. -/
theorem head?_toDigits_ne {n : Nat} (pos : 0 < n) : (Nat.toDigits 10 n).head? ≠ some '0' := by
  induction n using Nat.strongRecOn with
  | ind n ih =>
    by_cases small : n < 10
    · rw [Nat.toDigits_of_lt_base small, List.head?_singleton, ne_eq, Option.some.injEq,
        Nat.digitChar_eq_zero]
      omega
    · have front := ih (n / 10) (by omega) (by omega)
      obtain ⟨first, more, digits, -⟩ := exists_toDigits_eq_cons (n / 10)
      rw [digits] at front
      rw [Nat.toDigits_of_base_le (by decide) (by omega), digits]
      exact front

private theorem takeDigits?_toDigits (n : Nat) {rest : List Char} (delimited : Delimited rest) :
    takeDigits? (Nat.toDigits 10 n ++ rest) = some (Nat.toDigits 10 n, rest) := by
  have digits : ∀ c ∈ Nat.toDigits 10 n, c.isDigit = true := fun c => isDigit_of_mem_toDigits
  have stop : rest.takeWhile Char.isDigit = [] ∧ rest.dropWhile Char.isDigit = rest := by
    cases rest with
    | nil => exact ⟨rfl, rfl⟩
    | cons c tail =>
      have stops := (isDigit_of_isDelimiter (delimited c rfl)).1
      exact ⟨List.takeWhile_cons_of_neg (by simp [stops]),
        List.dropWhile_cons_of_neg (by simp [stops])⟩
  rw [takeDigits?, List.takeWhile_append_of_pos digits, List.dropWhile_append_of_pos digits, stop.1,
    stop.2, List.append_nil]
  split
  · rename_i none
    exact absurd none Nat.toDigits_ne_nil
  · rfl

private theorem takeWhole?_toDigits (n : Nat) {rest : List Char} (delimited : Delimited rest) :
    takeWhole? (Nat.toDigits 10 n ++ rest) = some (Nat.toDigits 10 n, rest) := by
  rw [takeWhole?, takeDigits?_toDigits n delimited]
  split
  · rename_i second more _ found
    rw [Option.some.injEq, Prod.mk.injEq] at found
    obtain rfl | pos := Nat.eq_zero_or_pos n
    · simp at found
    · exact absurd (by rw [found.1]; rfl) (head?_toDigits_ne pos)
  · rfl

private theorem takeFraction?_of_delimited {rest : List Char} (delimited : Delimited rest) :
    takeFraction? rest = some ([], rest) := by
  cases rest with
  | nil => rfl
  | cons c tail =>
    have other := (isDigit_of_isDelimiter (delimited c rfl)).2.1
    rw [takeFraction?]
    rintro _ point
    exact other (List.cons.inj point).1

private theorem takeExponent?_of_delimited {rest : List Char} (delimited : Delimited rest) :
    takeExponent? rest = some ([], rest) := by
  cases rest with
  | nil => rfl
  | cons c tail =>
    obtain ⟨-, -, lower, upper⟩ := isDigit_of_isDelimiter (delimited c rfl)
    simp [takeExponent?, lower, upper]

private theorem ofDigits_toDigits (n : Nat) : ofDigits (Nat.toDigits 10 n) = n := by
  have steps : (fun (n : Nat) (c : Char) => n * 10 + (c.toNat - '0'.toNat)) =
      fun n c => 10 * n + (c.toNat - '0'.toNat) := by
    funext n c
    rw [Nat.mul_comm]
  rw [ofDigits, steps, ← Nat.ofDigitChars_eq_foldl, Nat.ofDigitChars_ten_toDigits]

/-- A number is read from what is written for it. -/
theorem takeNumber?_toDigits (n : Nat) {rest : List Char} (delimited : Delimited rest) :
    takeNumber? (Nat.toDigits 10 n ++ rest) = some (natural n, rest) := by
  rw [takeNumber?]
  · simp only [takeWhole?_toDigits n delimited, takeFraction?_of_delimited delimited,
      takeExponent?_of_delimited delimited, Option.bind_eq_bind, Option.bind_some, and_self,
      ↓reduceIte, Option.pure_def, ofDigits_toDigits]
  · intro tail signed
    obtain ⟨first, more, digits, digit⟩ := exists_toDigits_eq_cons n
    rw [digits, List.cons_append, List.cons.injEq] at signed
    rw [signed.1] at digit
    contradiction

/-! ### Space -/

/-- A text with nothing in it but what may stand between tokens. -/
def AllSpace (s : List Char) : Prop :=
  ∀ c ∈ s, isSpace c = true

/-- A layout that puts nothing but space between tokens. -/
structure Layout.IsSpaced (layout : Layout) : Prop where
  newline : ∀ depth, AllSpace (layout.newline depth)
  colon : ∃ space, AllSpace space ∧ layout.colon = ':' :: space

theorem Layout.isSpaced_indented : Layout.indented.IsSpaced where
  newline depth := by
    refine List.forall_mem_cons.2 ⟨rfl, fun c mem => ?_⟩
    rw [List.eq_of_mem_replicate mem]
    rfl
  colon := ⟨[' '], List.forall_mem_singleton.2 rfl, rfl⟩

variable {space rest : List Char} {c : Char}

theorem skipSpace_append (blank : AllSpace space) : skipSpace (space ++ rest) = skipSpace rest :=
  List.dropWhile_append_of_pos blank

theorem skipSpace_cons (token : isSpace c = false) : skipSpace (c :: rest) = c :: rest :=
  List.dropWhile_cons_of_neg (by simp [token])

theorem skipSpace_append_cons (blank : AllSpace space) (token : isSpace c = false) :
    skipSpace (space ++ c :: rest) = c :: rest := by
  rw [skipSpace_append blank, skipSpace_cons token]

/-- A value is over where something follows that ends it, even behind space. -/
theorem delimited_append_cons (blank : AllSpace space) (delimiter : isDelimiter c = true) :
    Delimited (space ++ c :: rest) := by
  cases space with
  | nil =>
    rintro _ ⟨⟩
    exact delimiter
  | cons first space =>
    rintro _ ⟨⟩
    rw [isDelimiter, blank first List.mem_cons_self, Bool.true_or, Bool.true_or, Bool.true_or]

/-! ### Values -/

/-- A value without any part that is kept as it is written. -/
inductive IsPlain : Json → Prop
  | null : IsPlain null
  | bool (value : Bool) : IsPlain (bool value)
  | natural (value : Nat) : IsPlain (natural value)
  | text (value : String) : IsPlain (text value)
  | list {items : List Json} (plain : ∀ item ∈ items, IsPlain item) : IsPlain (list items)
  | record {fields : List (String × Json)} (plain : ∀ field ∈ fields, IsPlain field.2) :
    IsPlain (record fields)

variable {layout : Layout} {json : Json} {depth fuel : Nat}

/-- A value that is written begins with a character that ends no value. -/
theorem IsPlain.exists_write_eq_cons (plain : json.IsPlain) (layout : Layout) (depth : Nat) :
    ∃ first more, write layout depth json = first :: more ∧ isDelimiter first = false := by
  cases plain with
  | null => exact ⟨'n', _, write.eq_1 .., rfl⟩
  | bool value =>
    cases value with
    | false => exact ⟨'f', _, write.eq_3 .., rfl⟩
    | true => exact ⟨'t', _, write.eq_2 .., rfl⟩
  | natural n =>
    obtain ⟨first, more, digits, digit⟩ := exists_toDigits_eq_cons n
    exact ⟨first, more, by rw [write, ← digits]; exact Nat.toList_repr,
      isDelimiter_of_isDigit digit⟩
  | text s => exact ⟨'"', _, by rw [write, quoted, List.cons_append], rfl⟩
  | @list items plain =>
    cases items with
    | nil => exact ⟨'[', _, by rw [write], rfl⟩
    | cons item rest => exact ⟨'[', _, by rw [write]; rfl, rfl⟩
  | @record fields plain =>
    match fields with
    | [] => exact ⟨'\x7b', _, by rw [write], rfl⟩
    | (name, value) :: rest => exact ⟨'\x7b', _, by rw [write]; rfl, rfl⟩

/-! ### One step of the reader

What is read goes by the first token. For lists and objects it goes by what comes after that too:
they are empty if it is the closing bracket. -/

section Tokens

-- Each lemma of this section rewrites with the equations of the reader.
attribute [local simp] readValue readItems readField readFields

variable {s tail tail' : List Char}

private theorem readValue_null (token : skipSpace s = 'n' :: ("ull".toList ++ rest)) :
    readValue (fuel + 1) s = some (null, rest) := by
  rw [readValue, token]
  exact congrArg (Option.map _) (Text.after?_eq_some_iff.2 rfl)

private theorem readValue_true (token : skipSpace s = 't' :: ("rue".toList ++ rest)) :
    readValue (fuel + 1) s = some (bool true, rest) := by
  rw [readValue, token]
  exact congrArg (Option.map _) (Text.after?_eq_some_iff.2 rfl)

private theorem readValue_false (token : skipSpace s = 'f' :: ("alse".toList ++ rest)) :
    readValue (fuel + 1) s = some (bool false, rest) := by
  rw [readValue, token]
  exact congrArg (Option.map _) (Text.after?_eq_some_iff.2 rfl)

private theorem readValue_text (token : skipSpace s = '"' :: rest) :
    readValue (fuel + 1) s = takeTextValue? rest := by
  rw [readValue, token]
  rfl

private theorem readValue_number (token : skipSpace s = c :: rest) (digit : c.isDigit = true) :
    readValue (fuel + 1) s = takeNumber? (c :: rest) := by
  rw [readValue, token]
  split
  case h_7 => rfl
  all_goals
    rename_i letter
    rw [(List.cons.inj letter).1] at digit
    contradiction

private theorem readValue_list_nil (token : skipSpace s = '[' :: ']' :: rest) :
    readValue (fuel + 1) s = some (list [], rest) := by
  rw [readValue, token]
  rfl

/-- A list is read if its first item and those after it are. -/
theorem readValue_list_cons {item : Json} {items : List Json}
    (token : skipSpace s = '[' :: rest) (opened : (skipSpace rest).head? ≠ some ']')
    (first : readValue fuel rest = some (item, tail))
    (more : readItems fuel tail = some (items, tail')) :
    readValue (fuel + 1) s = some (list (item :: items), tail') := by
  rw [readValue, token]
  split
  case h_5 same =>
    obtain ⟨-, rfl⟩ := List.cons.inj same
    split
    · rename_i closed
      exact absurd (closed ▸ List.head?_cons) opened
    · simp only [first, Option.bind_eq_bind, Option.bind_some, more]
      rfl
  case h_7 other _ => exact absurd rfl (other rest)
  all_goals
    rename_i other
    have := (List.cons.inj other).1
    contradiction

private theorem readValue_record_nil (token : skipSpace s = '\x7b' :: '\x7d' :: rest) :
    readValue (fuel + 1) s = some (record [], rest) := by
  rw [readValue, token]
  rfl

/-- Values are read one by one if each of them is. -/
theorem mapM_map_eq_some {α β : Type} {put : α → β} {take : β → Option α} {values : List α}
    (each : ∀ value ∈ values, take (put value) = some value) :
    (values.map put).mapM take = some values := by
  induction values with
  | nil => rfl
  | cons value values ih =>
    obtain ⟨first, rest⟩ := List.forall_mem_cons.1 each
    rw [List.map_cons, List.mapM_cons, first, Option.bind_eq_bind, Option.bind_some, ih rest]
    rfl

/-- The names that were read make an object of the fields. -/
private theorem ofFields_map (fields : List (String × Json)) (rest tail : List Char) :
    ofFields (fields.map fun field => (some field.1, field.2)) rest tail = record fields := by
  rw [ofFields, mapM_map_eq_some]
  exact fun _ _ => rfl

/-- An object is read if its first field and those after it are. -/
theorem readValue_record_cons {field : String × Json} {fields : List (String × Json)}
    (token : skipSpace s = '\x7b' :: rest) (opened : (skipSpace rest).head? ≠ some '\x7d')
    (first : readField fuel rest = some ((some field.1, field.2), tail))
    (more : readFields fuel tail =
      some (fields.map fun field => (some field.1, field.2), tail')) :
    readValue (fuel + 1) s = some (record (field :: fields), tail') := by
  rw [readValue, token]
  split
  case h_6 same =>
    obtain ⟨-, rfl⟩ := List.cons.inj same
    split
    · rename_i closed
      exact absurd (closed ▸ List.head?_cons) opened
    · simp only [first, Option.bind_eq_bind, Option.bind_some, more]
      exact congrArg (fun json => some (json, tail')) (ofFields_map (field :: fields) rest tail')
  case h_7 other => exact absurd rfl (other rest)
  all_goals
    rename_i other
    have := (List.cons.inj other).1
    contradiction

/-- A field is read if its value is. -/
private theorem readField_cons {name : String} {json : Json} (blank : AllSpace space)
    (value : readValue fuel rest = some (json, tail)) :
    readField (fuel + 1) (space ++ (quoted name ++ ':' :: rest)) =
      some ((some name, json), tail) := by
  rw [readField, quoted_append, skipSpace_append_cons blank rfl]
  have colon : Text.after? [':'] (skipSpace (':' :: rest)) = some rest := by
    rw [skipSpace_cons rfl]
    exact Text.after?_eq_some_iff.2 rfl
  simp only [takeName?, takeText?_quoteChars, String.ofList_toList, Option.bind_eq_bind,
    Option.bind_some, colon, value, Option.pure_def]

private theorem readItems_nil (token : skipSpace s = ']' :: rest) :
    readItems (fuel + 1) s = some ([], rest) := by
  rw [readItems, token]
  rfl

private theorem readItems_cons {item : Json} {items : List Json} (token : skipSpace s = ',' :: rest)
    (first : readValue fuel rest = some (item, tail))
    (more : readItems fuel tail = some (items, tail')) :
    readItems (fuel + 1) s = some (item :: items, tail') := by
  rw [readItems, token]
  simp only [first, Option.bind_eq_bind, Option.bind_some, more, Option.pure_def]

private theorem readFields_nil (token : skipSpace s = '\x7d' :: rest) :
    readFields (fuel + 1) s = some ([], rest) := by
  rw [readFields, token]
  rfl

private theorem readFields_cons {field : Option String × Json}
    {fields : List (Option String × Json)}
    (token : skipSpace s = ',' :: rest) (first : readField fuel rest = some (field, tail))
    (more : readFields fuel tail = some (fields, tail')) :
    readFields (fuel + 1) s = some (field :: fields, tail') := by
  rw [readFields, token]
  simp only [first, Option.bind_eq_bind, Option.bind_some, more, Option.pure_def]

end Tokens

/-! ### Reading back -/

/-- The value is read from what is written for it, with space before it and its end behind it. As
many steps as there are characters are enough. -/
def ReadsBack (layout : Layout) (json : Json) : Prop :=
  ∀ {depth fuel : Nat} {space rest : List Char}, AllSpace space → Delimited rest →
    (write layout depth json).length ≤ fuel →
      readValue fuel (space ++ (write layout depth json ++ rest)) = some (json, rest)

/-- What is written takes at least one step to read. -/
theorem IsPlain.exists_fuel (plain : json.IsPlain)
    (enough : (write layout depth json).length ≤ fuel) : ∃ less, fuel = less + 1 := by
  obtain ⟨first, more, written, -⟩ := plain.exists_write_eq_cons layout depth
  rw [written, List.length_cons] at enough
  exact ⟨fuel - 1, by omega⟩

private theorem readsBack_null : ReadsBack layout null := by
  intro depth fuel space rest blank _ enough
  obtain ⟨fuel, rfl⟩ := IsPlain.null.exists_fuel enough
  rw [write]
  exact readValue_null (skipSpace_append_cons blank rfl)

private theorem readsBack_bool (value : Bool) : ReadsBack layout (bool value) := by
  intro depth fuel space rest blank _ enough
  obtain ⟨fuel, rfl⟩ := (IsPlain.bool value).exists_fuel enough
  cases value with
  | false =>
    rw [write]
    exact readValue_false (skipSpace_append_cons blank rfl)
  | true =>
    rw [write]
    exact readValue_true (skipSpace_append_cons blank rfl)

private theorem readsBack_natural (n : Nat) : ReadsBack layout (natural n) := by
  intro depth fuel space rest blank delimited enough
  obtain ⟨fuel, rfl⟩ := (IsPlain.natural n).exists_fuel enough
  have written : write layout depth (natural n) = Nat.toDigits 10 n := by
    rw [write]
    exact Nat.toList_repr
  obtain ⟨first, more, digits, digit⟩ := exists_toDigits_eq_cons n
  have token : skipSpace (space ++ (first :: more ++ rest)) = first :: (more ++ rest) :=
    skipSpace_append_cons blank (isSpace_of_isDelimiter (isDelimiter_of_isDigit digit))
  have number := takeNumber?_toDigits n delimited
  rw [digits] at written number
  rw [written, readValue_number token digit]
  exact number

private theorem readsBack_text (s : String) : ReadsBack layout (text s) := by
  intro depth fuel space rest blank _ enough
  obtain ⟨fuel, rfl⟩ := (IsPlain.text s).exists_fuel enough
  rw [write, quoted_append, readValue_text (skipSpace_append_cons blank rfl), takeTextValue?,
    takeText?_quoteChars]
  dsimp only
  rw [String.ofList_toList]

theorem delimited_writeItems (items : List Json) (blank : AllSpace space)
    (delimiter : isDelimiter c = true) :
    Delimited (writeItems layout depth items ++ (space ++ c :: rest)) := by
  cases items with
  | nil =>
    rw [writeItems, List.nil_append]
    exact delimited_append_cons blank delimiter
  | cons item items =>
    rw [writeItems]
    rintro _ ⟨⟩
    rfl

theorem delimited_writeFields (fields : List (String × Json)) (blank : AllSpace space)
    (delimiter : isDelimiter c = true) :
    Delimited (writeFields layout depth fields ++ (space ++ c :: rest)) := by
  match fields with
  | [] =>
    rw [writeFields, List.nil_append]
    exact delimited_append_cons blank delimiter
  | (name, value) :: fields =>
    rw [writeFields]
    rintro _ ⟨⟩
    rfl

/-- The items after one of them are read if each of them is. -/
theorem readItems_writeItems (spaced : layout.IsSpaced) {items : List Json}
    (reads : ∀ item ∈ items, ReadsBack layout item) (blank : AllSpace space)
    (enough : (writeItems layout depth items).length < fuel) :
    readItems fuel (writeItems layout depth items ++ (space ++ ']' :: rest)) =
      some (items, rest) := by
  -- The comma pays for the step that an item takes, and the closing bracket for the last step.
  induction items generalizing fuel with
  | nil =>
    obtain ⟨fuel, rfl⟩ : ∃ less, fuel = less + 1 := ⟨fuel - 1, by omega⟩
    rw [writeItems, List.nil_append]
    exact readItems_nil (skipSpace_append_cons blank rfl)
  | cons item items ih =>
    obtain ⟨fuel, rfl⟩ : ∃ less, fuel = less + 1 := ⟨fuel - 1, by omega⟩
    simp only [writeItems, List.cons_append, List.append_assoc, List.length_cons,
      List.length_append] at enough ⊢
    obtain ⟨own, others⟩ := List.forall_mem_cons.1 reads
    exact readItems_cons (skipSpace_cons rfl)
      (own (spaced.newline depth) (delimited_writeItems items blank rfl) (by omega))
      (ih others (by omega))

/-- A field is read if its value is. -/
theorem readField_writeField (spaced : layout.IsSpaced) {name : String}
    (reads : ReadsBack layout json) (blank : AllSpace space) (delimited : Delimited rest)
    (enough : (write layout depth json).length < fuel) :
    readField fuel
        (space ++ (quoted name ++ (layout.colon ++ (write layout depth json ++ rest)))) =
      some ((some name, json), rest) := by
  obtain ⟨fuel, rfl⟩ : ∃ less, fuel = less + 1 := ⟨fuel - 1, by omega⟩
  obtain ⟨gap, blankGap, colon⟩ := spaced.colon
  rw [colon, List.cons_append]
  exact readField_cons blank (reads blankGap delimited (by omega))

/-- The fields after one of them are read if the value of each of them is. -/
theorem readFields_writeFields (spaced : layout.IsSpaced) {fields : List (String × Json)}
    (reads : ∀ field ∈ fields, ReadsBack layout field.2) (blank : AllSpace space)
    (enough : (writeFields layout depth fields).length < fuel) :
    readFields fuel (writeFields layout depth fields ++ (space ++ '\x7d' :: rest)) =
      some (fields.map fun field => (some field.1, field.2), rest) := by
  induction fields generalizing fuel with
  | nil =>
    obtain ⟨fuel, rfl⟩ : ∃ less, fuel = less + 1 := ⟨fuel - 1, by omega⟩
    rw [writeFields, List.nil_append]
    exact readFields_nil (skipSpace_append_cons blank rfl)
  | cons field fields ih =>
    obtain ⟨name, value⟩ := field
    obtain ⟨fuel, rfl⟩ : ∃ less, fuel = less + 1 := ⟨fuel - 1, by omega⟩
    have quotes : 2 ≤ (quoted name).length := by simp [quoted]
    simp only [writeFields, List.cons_append, List.append_assoc, List.length_cons,
      List.length_append] at enough ⊢
    obtain ⟨own, others⟩ := List.forall_mem_cons.1 reads
    exact readFields_cons (skipSpace_cons rfl)
      (readField_writeField spaced own (spaced.newline depth)
        (delimited_writeFields fields blank rfl) (by omega))
      (ih others (by omega))

theorem readsBack_list (spaced : layout.IsSpaced) {items : List Json}
    (plain : ∀ item ∈ items, item.IsPlain) (reads : ∀ item ∈ items, ReadsBack layout item) :
    ReadsBack layout (list items) := by
  intro depth fuel space rest blank delimited enough
  obtain ⟨fuel, rfl⟩ := (IsPlain.list plain).exists_fuel enough
  cases items with
  | nil =>
    rw [write]
    exact readValue_list_nil (skipSpace_append_cons blank rfl)
  | cons item items =>
    obtain ⟨own, others⟩ := List.forall_mem_cons.1 reads
    obtain ⟨first, more, written, inner⟩ :=
      (plain item List.mem_cons_self).exists_write_eq_cons layout (depth + 1)
    simp only [write, List.cons_append, List.append_assoc, List.length_cons,
      List.length_append, List.nil_append] at enough ⊢
    refine readValue_list_cons (skipSpace_append_cons blank rfl) ?_
      (own (spaced.newline (depth + 1)) (delimited_writeItems items (spaced.newline depth) rfl)
        (by omega))
      (readItems_writeItems spaced others (spaced.newline depth) (by omega))
    rw [written, List.cons_append,
      skipSpace_append_cons (spaced.newline _) (isSpace_of_isDelimiter inner), List.head?_cons,
      ne_eq, Option.some.injEq]
    rintro rfl
    contradiction

theorem readsBack_record (spaced : layout.IsSpaced) {fields : List (String × Json)}
    (plain : ∀ field ∈ fields, field.2.IsPlain)
    (reads : ∀ field ∈ fields, ReadsBack layout field.2) :
    ReadsBack layout (record fields) := by
  intro depth fuel space rest blank delimited enough
  obtain ⟨fuel, rfl⟩ := (IsPlain.record plain).exists_fuel enough
  match fields with
  | [] =>
    rw [write]
    exact readValue_record_nil (skipSpace_append_cons blank rfl)
  | (name, value) :: fields =>
    obtain ⟨own, others⟩ := List.forall_mem_cons.1 reads
    have quotes : 2 ≤ (quoted name).length := by simp [quoted]
    simp only [write, List.cons_append, List.append_assoc, List.length_cons,
      List.length_append, List.nil_append] at enough ⊢
    refine readValue_record_cons (skipSpace_append_cons blank rfl) ?_
      (readField_writeField spaced own (spaced.newline (depth + 1))
        (delimited_writeFields fields (spaced.newline depth) rfl) (by omega))
      (readFields_writeFields spaced others (spaced.newline depth) (by omega))
    rw [quoted_append, skipSpace_append_cons (spaced.newline _) rfl, List.head?_cons]
    decide

/-- What is written for a plain value is read as this value. -/
private theorem IsPlain.readsBack (spaced : layout.IsSpaced) (plain : json.IsPlain) :
    ReadsBack layout json := by
  induction plain with
  | null => exact readsBack_null
  | bool value => exact readsBack_bool value
  | natural n => exact readsBack_natural n
  | text s => exact readsBack_text s
  | list plain ih => exact readsBack_list spaced plain ih
  | record plain ih => exact readsBack_record spaced plain ih

/-- **What is written can be read.** A plain value is read from its text in any layout, whatever
space follows. -/
theorem parse?_render (spaced : layout.IsSpaced) (plain : json.IsPlain) {after : String}
    (blank : AllSpace after.toList) : parse? (render layout json ++ after) = some json := by
  have chars : (render layout json ++ after).toList = write layout 0 json ++ after.toList := by
    rw [String.toList_append, render, String.toList_ofList]
  have delimited : Delimited after.toList := by
    intro c mem
    rw [isDelimiter, blank c (List.mem_of_head? mem)]
    rfl
  have enough : (write layout 0 json).length ≤ (render layout json ++ after).length + 1 := by
    rw [← String.length_toList, chars, List.length_append]
    omega
  have read := plain.readsBack spaced (List.forall_mem_nil _) delimited enough
  have finished : skipSpace after.toList = [] := by
    rw [← List.append_nil after.toList, skipSpace_append blank]
    rfl
  rw [List.nil_append, ← chars] at read
  rw [parse?, read]
  dsimp only
  rw [if_pos finished]

end SceneAudit.Json
