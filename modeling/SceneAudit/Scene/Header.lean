import SceneAudit.Text.Blank
import SceneAudit.Text.Quoted

/-!
# Section headers

A scene file is a sequence of sections, each opened by a header line such as
`[node name="Label" type="Label" parent="Content"]`: a tag and attributes between brackets. A
value is either quoted, with backslash escapes, or bare. A bare value runs to the first blank or
closing bracket outside of quotations and nested brackets, and is kept as it is written.

A line is a header if a letter follows its opening bracket; whether it is a well-formed one is a
second question, so that reading a line has three outcomes: no header, a header, or a fault.

## Main definitions

* `Scene.Header`: a tag and its attributes.
* `Scene.HeaderFault`: why a header cannot be read, with its wording in `HeaderFault.message`.
* `Scene.takeValue`, `Scene.takeAttribute`: the value, and the attribute, at the front of a text.
* `Scene.Header.ofLine`: the header on a line.
* `Scene.Header.render`: a header written with all of its values quoted.

## Main results

* `Scene.subset_of_takeValue`: a value is made of characters of the text.
* `Scene.length_lt_of_takeAttribute`: reading an attribute makes the text shorter, so that a header
  comes to an end.
* `Scene.takeValue_quoted`: a quoted value is read back.
-/

namespace SceneAudit.Scene

open Text

/-- Why the value of an attribute cannot be read. -/
inductive ValueFault where
  /-- A quotation is not closed on the line. -/
  | unterminatedQuote
  /-- A bracket of a bare value is not closed on the line. -/
  | unbalancedBrackets
  /-- Nothing stands where the value should be. -/
  | emptyValue
  deriving DecidableEq, Repr

/-- Why a header cannot be read. -/
inductive HeaderFault where
  /-- The closing bracket is missing. -/
  | unterminated (tag : String)
  /-- Something other than an attribute or the closing bracket follows. -/
  | unexpectedCharacter (tag : String)
  /-- No equals sign follows the key. -/
  | missingValue (key : String)
  /-- The value after the equals sign cannot be read. -/
  | badValue (key : String) (fault : ValueFault)
  deriving DecidableEq, Repr

/-- The wording of a fault in a value. -/
def ValueFault.message : ValueFault → String
  | unterminatedQuote => "unterminated quoted value"
  | unbalancedBrackets => "unbalanced brackets"
  | emptyValue => "empty value"

/-- The wording of a fault in a header. -/
def HeaderFault.message : HeaderFault → String
  | unterminated tag => "unterminated [" ++ tag ++ "] header"
  | unexpectedCharacter tag => "unexpected character in [" ++ tag ++ "] header"
  | missingValue key => "attribute " ++ key ++ " has no value"
  | badValue key fault => fault.message ++ " for attribute " ++ key

/-- A section header: its tag, and its attributes in the order in which they are written. -/
structure Header where
  /-- The kind of section. -/
  tag : String
  /-- Keys with their values. A key that is written twice stands for its last value. -/
  attributes : List (String × String)
  deriving DecidableEq, Repr

namespace Header

/-- The value of an attribute, the last one if it is written more than once. -/
def value? (header : Header) (key : String) : Option String :=
  (header.attributes.findRev? fun binding => binding.1 == key).map Prod.snd

/-- The attributes without repetition: each key once, with the value it stands for. -/
def bindings (header : Header) : List (String × String) :=
  (header.attributes.map Prod.fst).eraseDups.filterMap fun key =>
    (header.value? key).map fun value => (key, value)

end Header

/-! ### Names and values -/

/-- The characters of tags and keys: letters, digits and the underscore of ASCII. -/
def isKeyChar (c : Char) : Bool :=
  c.isAlphanum || c == '_'

/-- The brackets that open a nested part of a bare value. -/
def isOpener (c : Char) : Bool :=
  c == '(' || c == '[' || c == '{'

/-- The brackets that close a nested part of a bare value. -/
def isCloser (c : Char) : Bool :=
  c == ')' || c == ']' || c == '}'

/-- Puts `c` in front of a value that was read after it. -/
def keep (c : Char) :
    Except ValueFault (List Char × List Char) → Except ValueFault (List Char × List Char)
  | .ok (value, rest) => .ok (c :: value, rest)
  | .error fault => .error fault

/-- The bare value at the front of a text, as it is written, and what follows it. The value ends
before the first blank or `]` outside of quotations at nesting depth zero. `depth` counts the
brackets that are open, without regard to their kind, and `quoted` says whether a quotation is. -/
def takeBare (depth : Nat) (quoted : Bool) :
    List Char → Except ValueFault (List Char × List Char)
  | [] =>
    if quoted then .error .unterminatedQuote
    else if 0 < depth then .error .unbalancedBrackets
    else .ok ([], [])
  | c :: rest =>
    if quoted then
      if c = '"' then keep c (takeBare depth false rest)
      else if c = '\\' then
        match rest with
        | [] => .error .unterminatedQuote
        | escaped :: rest => keep c (keep escaped (takeBare depth true rest))
      else keep c (takeBare depth true rest)
    else if c = '"' then keep c (takeBare depth true rest)
    else if isOpener c then keep c (takeBare (depth + 1) false rest)
    else if isCloser c && 0 < depth then keep c (takeBare (depth - 1) false rest)
    else if c = ']' || (isBlank c && depth = 0) then .ok ([], c :: rest)
    else keep c (takeBare depth false rest)

/-- The value at the front of a text, and what follows it: a quoted value with its escapes
resolved, or a bare value that is not empty. -/
def takeValue : List Char → Except ValueFault (List Char × List Char)
  | '"' :: rest =>
    match Quoted.read rest with
    | some found => .ok found
    | none => .error .unterminatedQuote
  | s =>
    match takeBare 0 false s with
    | .ok ([], _) => .error .emptyValue
    | found => found

/-! ### Reading consumes the text -/

theorem keep_eq_ok {c : Char} {r : Except ValueFault (List Char × List Char)}
    {value rest : List Char} (h : keep c r = .ok (value, rest)) :
    ∃ inner, value = c :: inner ∧ r = .ok (inner, rest) := by
  match r, h with
  | .ok (inner, _), rfl => exact ⟨inner, rfl, rfl⟩

theorem exists_of_map_eq_ok {ε α β : Type} {f : α → β} {r : Except ε α} {b : β}
    (h : r.map f = .ok b) : ∃ a, r = .ok a ∧ f a = b := by
  match r, h with
  | .ok a, rfl => exact ⟨a, rfl, rfl⟩

theorem eq_ok_of_toOption {ε α : Type} {r : Except ε α} {a : α} (h : r.toOption = some a) :
    r = .ok a := by
  match r, h with
  | .ok _, rfl => rfl

/-- A bare value is kept as it is written. -/
theorem append_of_takeBare {depth : Nat} {quoted : Bool} {s value rest : List Char}
    (h : takeBare depth quoted s = .ok (value, rest)) : value ++ rest = s := by
  fun_induction takeBare depth quoted s generalizing value with
  | case1 | case2 | case5 => simp at h
  | case3 | case11 =>
    simp only [Except.ok.injEq, Prod.mk.injEq] at h
    simp [← h.1, ← h.2]
  | case6 =>
    rename_i ih
    obtain ⟨_, rfl, outer⟩ := keep_eq_ok h
    obtain ⟨_, rfl, found⟩ := keep_eq_ok outer
    rw [List.cons_append, List.cons_append, ih found]
  | case4 | case7 | case8 | case9 | case10 | case12 =>
    rename_i ih
    obtain ⟨_, rfl, found⟩ := keep_eq_ok h
    rw [List.cons_append, ih found]

/-- A value is made of characters of the text, and what follows it is the end of the text. -/
theorem subset_of_takeValue {s value rest : List Char} (h : takeValue s = .ok (value, rest)) :
    value ⊆ s ∧ rest <:+ s := by
  unfold takeValue at h
  split at h
  · split at h
    · rename_i found eq
      simp only [Except.ok.injEq] at h
      subst h
      obtain ⟨front, rfl, inside⟩ := Quoted.exists_of_read eq
      exact ⟨List.subset_cons_of_subset _ (List.Subset.trans inside (List.subset_append_left _ _)),
        '"' :: front ++ ['"'], by simp⟩
    · simp at h
  · split at h
    · simp at h
    · have whole := append_of_takeBare h
      exact ⟨whole ▸ List.subset_append_left _ _, value, whole⟩

/-- A quoted value is read back, whatever follows it. -/
theorem takeValue_quoted (s rest : List Char) :
    takeValue ('"' :: (Quoted.encode s ++ '"' :: rest)) = .ok (s, rest) := by
  rw [takeValue, Quoted.read_encode]

/-! ### Headers -/

/-- The attribute at the front of a text that starts with no blank, and what follows it. Blanks
may stand on both sides of the equals sign. -/
def takeAttribute (tag : String) :
    List Char → Except HeaderFault ((String × String) × List Char)
  | [] => .error (.unterminated tag)
  | c :: s =>
    if isKeyChar c then
      let key := String.ofList (c :: s.takeWhile isKeyChar)
      match skipBlanks (s.dropWhile isKeyChar) with
      | '=' :: s =>
        match takeValue (skipBlanks s) with
        | .ok (value, rest) => .ok ((key, String.ofList value), rest)
        | .error fault => .error (.badValue key fault)
      | _ => .error (.missingValue key)
    else .error (.unexpectedCharacter tag)

theorem length_lt_of_takeAttribute {tag : String} {s rest : List Char}
    {binding : String × String} (h : takeAttribute tag s = .ok (binding, rest)) :
    rest.length < s.length := by
  unfold takeAttribute at h
  split at h
  · simp at h
  · rename_i c s
    split at h
    · split at h
      · rename_i afterSign sign
        split at h
        · rename_i value tail eq
          simp only [Except.ok.injEq, Prod.mk.injEq] at h
          obtain ⟨-, rfl⟩ := h
          have name : (s.dropWhile isKeyChar).length ≤ s.length :=
            (List.dropWhile_suffix isKeyChar).length_le
          have beforeSign := length_skipBlanks_le (s.dropWhile isKeyChar)
          have beforeValue := length_skipBlanks_le afterSign
          have value := (subset_of_takeValue eq).2.length_le
          simp only [sign, List.length_cons] at beforeSign ⊢
          omega
        · simp at h
      · simp at h
    · simp at h

/-- A value of an attribute is made of characters of the text. -/
theorem subset_of_takeAttribute {tag : String} {s rest : List Char} {binding : String × String}
    (h : takeAttribute tag s = .ok (binding, rest)) :
    binding.2.toList ⊆ s ∧ rest <:+ s := by
  unfold takeAttribute at h
  split at h
  · simp at h
  · rename_i c s
    split at h
    · split at h
      · rename_i afterSign sign
        split at h
        · rename_i value tail eq
          simp only [Except.ok.injEq, Prod.mk.injEq] at h
          obtain ⟨rfl, rfl⟩ := h
          have front : skipBlanks afterSign <:+ c :: s := by
            refine (List.dropWhile_suffix isBlank).trans ((List.suffix_cons '=' _).trans ?_)
            rw [← sign]
            exact (List.dropWhile_suffix isBlank).trans <|
              (List.dropWhile_suffix isKeyChar).trans (List.suffix_cons c s)
          obtain ⟨inside, back⟩ := subset_of_takeValue eq
          rw [String.toList_ofList]
          exact ⟨List.Subset.trans inside front.subset, back.trans front⟩
        · simp at h
      · simp at h
    · simp at h

/-- The attributes at the front of a text, up to the closing bracket of the header. -/
def readAttributes (tag : String) (s : List Char) :
    Except HeaderFault (List (String × String)) :=
  match skipBlanks s with
  | ']' :: _ => .ok []
  | _ =>
    match _ : takeAttribute tag (skipBlanks s) with
    | .ok (binding, rest) => (readAttributes tag rest).map (binding :: ·)
    | .error fault => .error fault
termination_by s.length
decreasing_by
  rename_i found
  exact Nat.lt_of_lt_of_le (length_lt_of_takeAttribute found) (length_skipBlanks_le s)

private theorem subset_of_readAttributes {tag : String} {s : List Char}
    {attributes : List (String × String)} (h : readAttributes tag s = .ok attributes) :
    ∀ binding ∈ attributes, binding.2.toList ⊆ s := by
  fun_induction readAttributes tag s generalizing attributes with
  | case1 s rest closes =>
    obtain rfl := Except.ok.inj h
    simp
  | case2 s binding rest found _ ih =>
    obtain ⟨inside, back⟩ := subset_of_takeAttribute found
    have text : skipBlanks s ⊆ s := List.dropWhile_subset isBlank
    obtain ⟨others, later, rfl⟩ := exists_of_map_eq_ok h
    refine List.forall_mem_cons.2 ⟨List.Subset.trans inside text, fun other mem => ?_⟩
    exact List.Subset.trans (ih later other mem) (List.Subset.trans back.subset text)
  | case3 => contradiction

/-- The header on a line. A line is none if it does not start with an opening bracket and a
letter, blanks aside. What follows the closing bracket is ignored. -/
def Header.ofLine (line : List Char) : Except HeaderFault (Option Header) :=
  match trim line with
  | '[' :: c :: rest =>
    if c.isAlpha then do
      let tag := String.ofList (c :: rest.takeWhile isKeyChar)
      let attributes ← readAttributes tag (rest.dropWhile isKeyChar)
      return some { tag, attributes }
    else return none
  | _ => return none

/-- A value in a header is made of characters of its line. -/
theorem Header.subset_of_ofLine {line : List Char} {header : Header}
    (h : ofLine line = .ok (some header)) {key value : String}
    (bound : header.value? key = some value) : value.toList ⊆ line := by
  rw [value?, List.findRev?_eq_find?_reverse] at bound
  obtain ⟨binding, found, rfl⟩ := Option.map_eq_some_iff.1 bound
  have mem := List.mem_reverse.1 (List.mem_of_find?_eq_some found)
  unfold ofLine at h
  split at h
  · rename_i c rest eq
    split at h
    · dsimp only at h
      cases read : readAttributes (String.ofList (c :: rest.takeWhile isKeyChar))
        (rest.dropWhile isKeyChar) with
      | error fault =>
        rw [read] at h
        contradiction
      | ok attributes =>
        rw [read] at h
        obtain rfl := Option.some.inj (Except.ok.inj h)
        have text : rest.dropWhile isKeyChar ⊆ line := by
          refine List.Subset.trans (List.dropWhile_subset isKeyChar) ?_
          refine List.Subset.trans ?_ (eq ▸ trim_subset line)
          exact (List.subset_cons_of_subset _ (List.subset_cons_self c rest))
        exact List.Subset.trans (subset_of_readAttributes read binding mem) text
    · exact absurd (Except.ok.inj h) (Option.some_ne_none header).symm
  · exact absurd (Except.ok.inj h) (Option.some_ne_none header).symm

/-! ### Writing headers -/

/-- An attribute with its value quoted, after a blank. -/
def renderAttribute (key value : String) : List Char :=
  ' ' :: key.toList ++ '=' :: '"' :: Quoted.encode value.toList ++ ['"']

/-- The header as a line, every value quoted. -/
def Header.render (header : Header) : List Char :=
  '[' :: header.tag.toList ++
    header.attributes.flatMap (fun binding => renderAttribute binding.1 binding.2) ++ [']']

end SceneAudit.Scene
