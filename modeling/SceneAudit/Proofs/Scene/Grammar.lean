import SceneAudit.Proofs.Scene.Writing

/-!
# The grammar of section headers

What the scanner of headers accepts, stated against a grammar. The grammar says how a header is
written: an opening bracket, a tag that starts with a letter, attributes with free blanks around
them and around their signs, a closing bracket, and anything behind it. A value is quoted, with a
backslash in front of a character that is meant literally, or it is bare and goes up to the first
blank or `]` outside of quotations and brackets.

The leaves come first: quotations, then bare values, whose scanner carries the number of open
brackets and whether a quotation is open. Attributes and headers are put together from them.

## Main definitions

* `Text.Quoted.Closes`: how the rest of a quotation is written.
* `Scene.IsBare`: how the rest of a bare value is written, behind a number of open brackets.
* `Scene.IsValue`, `Scene.IsAttributes`, `Scene.Header.IsWrittenAs`: how values, attributes and
  headers are written.

## Main results

* `Text.Quoted.read_eq_some_iff`, `Scene.takeBare_eq_ok_iff`, `Scene.takeValue_eq_ok_iff`,
  `Scene.takeAttribute_eq_ok_iff`, `Scene.readAttributes_eq_ok_iff`: each part is read exactly where
  it is written.
* `Scene.Header.value?_eq_some_iff`: a key has the value that is written last for it.
* `Scene.Header.ofLine_grammar`: the lines that are headers, and what they say.
-/

namespace SceneAudit

open Text

namespace Text.Quoted

/-- The rest of a quotation, its closing mark included, and the value it stands for. -/
inductive Closes : List Char → List Char → Prop
  | mark : Closes ['"'] []
  | escaped {text value : List Char} (c : Char) (rest : Closes text value) :
      Closes ('\\' :: c :: text) (c :: value)
  | plain {text value : List Char} {c : Char} (quote : c ≠ '"') (slash : c ≠ '\\')
      (rest : Closes text value) : Closes (c :: text) (c :: value)

/-- A quoted text is read exactly where it is written. -/
theorem read_eq_some_iff {s value rest : List Char} :
    read s = some (value, rest) ↔ ∃ text, s = text ++ rest ∧ Closes text value := by
  constructor
  · intro h
    fun_induction read s generalizing value with
    | case1 | case2 => contradiction
    | case3 c tail ih =>
      obtain ⟨⟨v, t⟩, found, eq⟩ := Option.map_eq_some_iff.1 h
      simp only [Prod.mk.injEq] at eq
      obtain ⟨rfl, rfl⟩ := eq
      obtain ⟨text, rfl, closes⟩ := ih found
      exact ⟨'\\' :: c :: text, rfl, .escaped c closes⟩
    | case4 tail =>
      simp only [Option.some.injEq, Prod.mk.injEq] at h
      obtain ⟨rfl, rfl⟩ := h
      exact ⟨['"'], rfl, .mark⟩
    | case5 c tail single escape quote ih =>
      have slash : c ≠ '\\' := by
        rintro rfl
        cases tail with
        | nil => exact single rfl rfl
        | cons d tail => exact escape d tail rfl rfl
      obtain ⟨⟨v, t⟩, found, eq⟩ := Option.map_eq_some_iff.1 h
      simp only [Prod.mk.injEq] at eq
      obtain ⟨rfl, rfl⟩ := eq
      obtain ⟨text, rfl, closes⟩ := ih found
      exact ⟨c :: text, rfl, .plain quote slash closes⟩
  · rintro ⟨text, rfl, closes⟩
    induction closes with
    | mark => rfl
    | escaped c rest ih =>
      rw [List.cons_append, List.cons_append, read_escape, ih]
      rfl
    | plain quote slash rest ih =>
      rw [List.cons_append, read_plain _ quote slash, ih]
      rfl

/-- A text that starts with the rest of a quotation goes on behind it in one way. -/
theorem Closes.rest_eq {text value rest text' value' rest' : List Char}
    (closes : Closes text value) (closes' : Closes text' value')
    (eq : text ++ rest = text' ++ rest') : rest = rest' := by
  have found : read (text ++ rest) = some (value, rest) :=
    read_eq_some_iff.2 ⟨text, rfl, closes⟩
  have found' : read (text ++ rest) = some (value', rest') :=
    read_eq_some_iff.2 ⟨text', eq, closes'⟩
  exact (Prod.mk.inj (Option.some.inj (found.symm.trans found'))).2

end Text.Quoted

namespace Scene

/-! ### The grammar -/

/-- A blank or `]`, which ends a bare value where no bracket is open. -/
def EndsBare (c : Char) : Prop :=
  isBlank c = true ∨ c = ']'

instance (c : Char) : Decidable (EndsBare c) :=
  inferInstanceAs (Decidable (_ ∨ _))

/-- How many brackets are open behind `c`, if `depth` are open before it. Their kinds are of no
account, and where none is open none is closed. -/
def nesting (depth : Nat) (c : Char) : Nat :=
  if isOpener c then depth + 1 else if isCloser c then depth - 1 else depth

/-- The rest of a bare value, behind `depth` open brackets. All of them are closed in it, and every
quotation, and it goes on beyond blanks and `]` only where a bracket or a quotation is open. -/
inductive IsBare : Nat → List Char → Prop
  | done : IsBare 0 []
  | quotation {depth : Nat} {text value rest : List Char} (quoted : Quoted.Closes text value)
      (more : IsBare depth rest) : IsBare depth ('"' :: (text ++ rest))
  | char {depth : Nat} {c : Char} {rest : List Char} (quote : c ≠ '"')
      (goes : EndsBare c → depth ≠ 0) (more : IsBare (nesting depth c) rest) :
      IsBare depth (c :: rest)

/-- How a value is written in front of `rest`: quoted, or bare and then as it is. A bare value does
not start with a quotation and goes up to a blank or `]`, or else to the end of the text, where no
header is complete. -/
inductive IsValue : List Char → List Char → List Char → Prop
  | quoted {text value : List Char} (closes : Quoted.Closes text value) (rest : List Char) :
      IsValue ('"' :: text) value rest
  | bare {text rest : List Char} (nonempty : text ≠ []) (unquoted : text.head? ≠ some '"')
      (bare : IsBare 0 text) (ends : ∀ c ∈ rest.head?, EndsBare c) : IsValue text text rest

/-- How attributes are written behind the tag of a header, with the closing bracket and anything
behind it. Blanks are free in front of each attribute and on both sides of its sign. -/
inductive IsAttributes : List Char → List (String × String) → Prop
  | close {blanks : List Char} (blank : ∀ c ∈ blanks, isBlank c = true) (anything : List Char) :
      IsAttributes (blanks ++ ']' :: anything) []
  | binding {before left right text rest : List Char} {key value : String}
      {others : List (String × String)} (blankBefore : ∀ c ∈ before, isBlank c = true)
      (named : IsKey key) (blankLeft : ∀ c ∈ left, isBlank c = true)
      (blankRight : ∀ c ∈ right, isBlank c = true) (written : IsValue text value.toList rest)
      (more : IsAttributes rest others) :
      IsAttributes (before ++ (key.toList ++ (left ++ '=' :: (right ++ (text ++ rest)))))
        ((key, value) :: others)

/-- A line opens a section if it starts with an opening bracket and a letter. -/
def StartsHeader (line : List Char) : Prop :=
  ∃ c rest, line = '[' :: c :: rest ∧ c.isAlpha = true

/-- How a header is written: its tag, which starts with a letter, up to the first character that
none of its characters can be, and its attributes. -/
def Header.IsWrittenAs (header : Header) (line : List Char) : Prop :=
  ∃ rest, line = '[' :: (header.tag.toList ++ rest) ∧ StartsHeader line ∧ IsKey header.tag ∧
    (∀ c ∈ rest.head?, isKeyChar c = false) ∧ IsAttributes rest header.attributes

/-! ### Bare values -/

private theorem takeBare_mark (depth : Nat) (s : List Char) :
    takeBare depth true ('"' :: s) = keep '"' (takeBare depth false s) := by
  rw [takeBare.eq_def]
  rfl

private theorem takeBare_escaped (depth : Nat) (c : Char) (s : List Char) :
    takeBare depth true ('\\' :: c :: s) = keep '\\' (keep c (takeBare depth true s)) := by
  rw [takeBare.eq_def]
  rfl

private theorem takeBare_plain {c : Char} (quote : c ≠ '"') (slash : c ≠ '\\') (depth : Nat)
    (s : List Char) : takeBare depth true (c :: s) = keep c (takeBare depth true s) := by
  rw [takeBare.eq_def]
  simp only [↓reduceIte, quote, slash]

private theorem takeBare_open (depth : Nat) (s : List Char) :
    takeBare depth false ('"' :: s) = keep '"' (takeBare depth true s) := by
  rw [takeBare.eq_def]
  rfl

/-- A quotation in a bare value is kept with its marks. -/
private theorem takeBare_quotation {depth : Nat} {text v value rest s : List Char}
    (closes : Quoted.Closes text v) (found : takeBare depth false s = .ok (value, rest)) :
    takeBare depth true (text ++ s) = .ok (text ++ value, rest) := by
  induction closes with
  | mark => rw [List.singleton_append, takeBare_mark, found]; rfl
  | escaped c _ ih => rw [List.cons_append, List.cons_append, takeBare_escaped, ih]; rfl
  | plain quote slash _ ih => rw [List.cons_append, takeBare_plain quote slash, ih]; rfl

theorem not_isOpener_of_endsBare {c : Char} (ends : EndsBare c) : ¬isOpener c = true := by
  intro opens
  simp only [isOpener, Bool.or_eq_true, beq_iff_eq] at opens
  rcases opens with (rfl | rfl) | rfl <;> exact absurd ends (by decide)

private theorem takeBare_ends {c : Char} (ends : EndsBare c) (s : List Char) :
    takeBare 0 false (c :: s) = .ok ([], c :: s) := by
  have quote : c ≠ '"' := by
    rintro rfl
    exact absurd ends (by decide)
  have opener := not_isOpener_of_endsBare ends
  rw [takeBare.eq_def]
  simp [quote, opener, ends.symm]

private theorem takeBare_char {depth : Nat} {c : Char} (quote : c ≠ '"')
    (goes : EndsBare c → depth ≠ 0) (s : List Char) :
    takeBare depth false (c :: s) = keep c (takeBare (nesting depth c) false s) := by
  rw [takeBare.eq_def, nesting]
  simp only [Bool.false_eq_true, ↓reduceIte, quote]
  by_cases opener : isOpener c = true
  · simp only [opener, ↓reduceIte]
  by_cases inside : 0 < depth
  · by_cases closer : isCloser c = true
    · simp only [opener, closer, inside, decide_true, Bool.and_self, ↓reduceIte]
      rfl
    · have other : c ≠ ']' := by
        rintro rfl
        exact closer rfl
      simp [opener, closer, other, Nat.ne_of_gt inside]
  · obtain rfl : depth = 0 := Nat.eq_zero_of_not_pos inside
    have more : ¬EndsBare c := fun ends => goes ends rfl
    rw [EndsBare, not_or] at more
    simp [opener, more]

/-- What is read as the rest of a bare value, within a quotation or not, is one. -/
theorem isBare_of_takeBare {depth : Nat} {quoted : Bool} {s value rest : List Char}
    (h : takeBare depth quoted s = .ok (value, rest)) :
    (∀ c ∈ rest.head?, EndsBare c) ∧ (quoted = false → IsBare depth value) ∧
      (quoted = true → ∃ text v more, value = text ++ more ∧ Quoted.Closes text v ∧
        IsBare depth more) := by
  fun_induction takeBare depth quoted s generalizing value with
  | case1 | case2 | case5 => contradiction
  | case3 depth quoted outside closed =>
    simp only [Except.ok.injEq, Prod.mk.injEq] at h
    obtain ⟨rfl, rfl⟩ := h
    obtain rfl : depth = 0 := Nat.eq_zero_of_not_pos closed
    exact ⟨fun c mem => absurd mem (Option.not_mem_none c), fun _ => .done,
      fun inside => absurd inside outside⟩
  | case4 depth rest ih =>
    obtain ⟨inner, rfl, found⟩ := keep_eq_ok h
    obtain ⟨ends, bare, -⟩ := ih found
    exact ⟨ends, Bool.noConfusion, fun _ => ⟨['"'], [], inner, rfl, .mark, bare rfl⟩⟩
  | case6 depth c rest _ ih =>
    obtain ⟨_, rfl, outer⟩ := keep_eq_ok h
    obtain ⟨inner, rfl, found⟩ := keep_eq_ok outer
    obtain ⟨ends, -, quotation⟩ := ih found
    obtain ⟨text, v, more, rfl, closes, bare⟩ := quotation rfl
    exact ⟨ends, Bool.noConfusion, fun _ =>
      ⟨'\\' :: c :: text, c :: v, more, rfl, .escaped c closes, bare⟩⟩
  | case7 depth c rest quote slash ih =>
    obtain ⟨inner, rfl, found⟩ := keep_eq_ok h
    obtain ⟨ends, -, quotation⟩ := ih found
    obtain ⟨text, v, more, rfl, closes, bare⟩ := quotation rfl
    exact ⟨ends, Bool.noConfusion, fun _ =>
      ⟨c :: text, c :: v, more, rfl, .plain quote slash closes, bare⟩⟩
  | case8 depth quoted rest outside ih =>
    obtain ⟨inner, rfl, found⟩ := keep_eq_ok h
    obtain ⟨ends, -, quotation⟩ := ih found
    obtain ⟨text, v, more, rfl, closes, bare⟩ := quotation rfl
    exact ⟨ends, fun _ => .quotation closes bare, fun inside => absurd inside outside⟩
  | case9 depth quoted c rest outside quote opener ih =>
    obtain ⟨inner, rfl, found⟩ := keep_eq_ok h
    obtain ⟨ends, bare, -⟩ := ih found
    have deeper : nesting depth c = depth + 1 := by rw [nesting, if_pos opener]
    exact ⟨ends, fun _ => .char quote (fun stop => absurd opener (not_isOpener_of_endsBare stop))
      (deeper ▸ bare rfl), fun inside => absurd inside outside⟩
  | case10 depth quoted c rest outside quote opener closer ih =>
    obtain ⟨inner, rfl, found⟩ := keep_eq_ok h
    obtain ⟨ends, bare, -⟩ := ih found
    rw [Bool.and_eq_true, decide_eq_true_eq] at closer
    have back : nesting depth c = depth - 1 := by
      rw [nesting, if_neg opener, if_pos closer.1]
    exact ⟨ends, fun _ => .char quote (fun _ => Nat.ne_of_gt closer.2) (back ▸ bare rfl),
      fun inside => absurd inside outside⟩
  | case11 depth quoted c rest outside quote opener closer stops =>
    simp only [Except.ok.injEq, Prod.mk.injEq] at h
    obtain ⟨rfl, rfl⟩ := h
    rw [Bool.or_eq_true, Bool.and_eq_true, decide_eq_true_eq, decide_eq_true_eq] at stops
    obtain rfl : depth = 0 := by
      rcases stops with rfl | blank
      · exact Nat.eq_zero_of_not_pos fun inside => closer (by simp [inside, isCloser])
      · exact blank.2
    have ends : EndsBare c := stops.symm.imp_left And.left
    exact ⟨fun d mem => Option.mem_some_iff.1 mem ▸ ends, fun _ => .done,
      fun inside => absurd inside outside⟩
  | case12 depth quoted c rest outside quote opener closer stops ih =>
    obtain ⟨inner, rfl, found⟩ := keep_eq_ok h
    obtain ⟨ends, bare, -⟩ := ih found
    have goes : EndsBare c → depth ≠ 0 := by
      rintro stop rfl
      exact stops (by simpa using stop.symm)
    have same : nesting depth c = depth := by
      rw [nesting, if_neg opener]
      split
      · rename_i closing
        have outer : ¬0 < depth := fun inside => closer (by simp [closing, inside])
        omega
      · rfl
    exact ⟨ends, fun _ => .char quote goes (by rw [same]; exact bare rfl),
      fun inside => absurd inside outside⟩

/-- A bare value is read exactly where it is written, up to its end. -/
theorem takeBare_eq_ok_iff {depth : Nat} {s value rest : List Char} :
    takeBare depth false s = .ok (value, rest) ↔
      s = value ++ rest ∧ IsBare depth value ∧ ∀ c ∈ rest.head?, EndsBare c := by
  constructor
  · intro h
    obtain ⟨ends, bare, -⟩ := isBare_of_takeBare h
    exact ⟨(append_of_takeBare h).symm, bare rfl, ends⟩
  · rintro ⟨rfl, bare, ends⟩
    induction bare with
    | done =>
      cases rest with
      | nil => rfl
      | cons c rest => exact takeBare_ends (ends c rfl) rest
    | quotation quoted more ih =>
      rw [List.cons_append, List.append_assoc, takeBare_open, takeBare_quotation quoted ih]
      rfl
    | char quote goes more ih =>
      rw [List.cons_append, takeBare_char quote goes, ih]
      rfl

/-! ### Values and attributes -/

/-- A value is read exactly where it is written. -/
theorem takeValue_eq_ok_iff {s value rest : List Char} :
    takeValue s = .ok (value, rest) ↔ ∃ text, s = text ++ rest ∧ IsValue text value rest := by
  constructor
  · intro h
    unfold takeValue at h
    split at h
    · rename_i behind
      split at h
      · rename_i found eq
        obtain rfl := Except.ok.inj h
        obtain ⟨text, rfl, closes⟩ := Quoted.read_eq_some_iff.1 eq
        exact ⟨'"' :: text, rfl, .quoted closes rest⟩
      · contradiction
    · rename_i unquoted
      split at h
      · contradiction
      · rename_i nonempty
        obtain ⟨rfl, bare, ends⟩ := takeBare_eq_ok_iff.1 h
        refine ⟨value, rfl, .bare ?_ ?_ bare ends⟩
        · rintro rfl
          exact nonempty rest h
        · intro mark
          obtain ⟨behind, rfl⟩ := List.head?_eq_some_iff.1 mark
          exact unquoted _ rfl
  · rintro ⟨text, rfl, written⟩
    cases written with
    | quoted closes =>
      rw [List.cons_append, takeValue, Quoted.read_eq_some_iff.2 ⟨_, rfl, closes⟩]
    | bare nonempty unquoted bare ends =>
      obtain ⟨c, others, rfl⟩ := List.exists_cons_of_ne_nil nonempty
      have quote : c ≠ '"' := by
        rintro rfl
        exact unquoted rfl
      have found : takeBare 0 false (c :: others ++ rest) = .ok (c :: others, rest) :=
        takeBare_eq_ok_iff.2 ⟨rfl, bare, ends⟩
      rw [List.cons_append] at found ⊢
      rw [takeValue, found]
      exact fun _ same => quote (List.cons.inj same).1

/-- A value does not start with a blank. -/
theorem IsValue.exists_head? {text value rest : List Char} (written : IsValue text value rest) :
    ∃ c others, text = c :: others ∧ isBlank c = false := by
  cases written with
  | quoted closes => exact ⟨'"', _, rfl, rfl⟩
  | bare nonempty unquoted bare ends =>
    cases bare with
    | done => contradiction
    | quotation quoted more => exact absurd rfl unquoted
    | @char _ c others quote goes more =>
      refine ⟨c, others, rfl, Bool.eq_false_iff.2 fun blank => ?_⟩
      exact goes (.inl blank) rfl

theorem IsValue.starts {text value rest : List Char} (written : IsValue text value rest) :
    ∀ c ∈ (text ++ rest).head?, isBlank c = false := by
  obtain ⟨d, others, rfl, plain⟩ := written.exists_head?
  exact fun c mem => Option.some.inj mem ▸ plain

/-- Behind a key and its sign, the rest of an attribute is its value. -/
theorem takeAttribute_of_key {tag key : String} {left right s : List Char} (named : IsKey key)
    (blankLeft : ∀ c ∈ left, isBlank c = true) (blankRight : ∀ c ∈ right, isBlank c = true)
    (starts : ∀ c ∈ s.head?, isBlank c = false) :
    takeAttribute tag (key.toList ++ (left ++ '=' :: (right ++ s))) =
      match takeValue s with
      | .ok (value, rest) => .ok ((key, String.ofList value), rest)
      | .error fault => .error (.badValue key fault) := by
  obtain ⟨c, others, eq⟩ := List.exists_cons_of_ne_nil named.1
  have first : isKeyChar c = true := named.char c (by simp [eq])
  have more : ∀ d ∈ others, isKeyChar d = true := fun d mem => named.char d (by simp [eq, mem])
  have name : String.ofList (c :: others) = key := by rw [← eq, String.ofList_toList]
  have stop : ∀ e ∈ (left ++ '=' :: (right ++ s)).head?, isKeyChar e = false := by
    intro e mem
    rw [Bool.eq_false_iff]
    intro char
    cases left with
    | nil =>
      obtain rfl := Option.some.inj mem
      exact absurd char (by decide)
    | cons blank left =>
      obtain rfl := Option.some.inj mem
      exact absurd (blankLeft _ List.mem_cons_self) (by simp [isBlank_of_isKeyChar char])
  have value : skipBlanks (right ++ s) = s := skipBlanks_append blankRight starts
  rw [eq, List.cons_append, takeAttribute, if_pos first, takeWhile_append_of_stop more stop,
    dropWhile_append_of_stop more stop, name, skipBlanks_append_cons blankLeft rfl]
  cases found : takeValue s with
  | ok read => simp only [value, found]
  | error fault => simp only [value, found]

/-- An attribute is read exactly where it is written. -/
theorem takeAttribute_eq_ok_iff {tag key value : String} {s rest : List Char} :
    takeAttribute tag s = .ok ((key, value), rest) ↔
      IsKey key ∧ ∃ left right text, (∀ c ∈ left, isBlank c = true) ∧
        (∀ c ∈ right, isBlank c = true) ∧ IsValue text value.toList rest ∧
        s = key.toList ++ (left ++ '=' :: (right ++ (text ++ rest))) := by
  constructor
  · intro h
    unfold takeAttribute at h
    split at h
    · contradiction
    rename_i c s
    split at h
    · rename_i first
      split at h
      · rename_i behind sign
        split at h
        · rename_i found tail eq
          simp only [Except.ok.injEq, Prod.mk.injEq] at h
          obtain ⟨⟨rfl, rfl⟩, rfl⟩ := h
          obtain ⟨text, front, written⟩ := takeValue_eq_ok_iff.1 eq
          obtain ⟨left, blankLeft, eqLeft⟩ := exists_skipBlanks (s.dropWhile isKeyChar)
          obtain ⟨right, blankRight, eqRight⟩ := exists_skipBlanks behind
          rw [sign, eqRight, front] at eqLeft
          have named : IsKey (String.ofList (c :: s.takeWhile isKeyChar)) := by
            rw [IsKey, String.toList_ofList, List.all_cons, first, List.all_takeWhile]
            exact ⟨List.cons_ne_nil _ _, rfl⟩
          refine ⟨named, left, right, text, blankLeft, blankRight, ?_, ?_⟩
          · rwa [String.toList_ofList]
          · rw [String.toList_ofList, ← eqLeft, List.cons_append, List.takeWhile_append_dropWhile]
        · contradiction
      · contradiction
    · contradiction
  · rintro ⟨named, left, right, text, blankLeft, blankRight, written, rfl⟩
    rw [takeAttribute_of_key named blankLeft blankRight written.starts,
      takeValue_eq_ok_iff.2 ⟨_, rfl, written⟩]
    simp only [String.ofList_toList]

/-- What starts with a key is read as an attribute and the ones behind it. -/
theorem readAttributes_of_key {tag key : String} {before s : List Char}
    (blankBefore : ∀ c ∈ before, isBlank c = true) (named : IsKey key) :
    readAttributes tag (before ++ (key.toList ++ s)) =
      match takeAttribute tag (key.toList ++ s) with
      | .ok (binding, rest) => (readAttributes tag rest).map (binding :: ·)
      | .error fault => .error fault := by
  obtain ⟨c, name, eq⟩ := List.exists_cons_of_ne_nil named.1
  have first : isKeyChar c = true := named.char c (by simp [eq])
  have bracket : c ≠ ']' := by
    rintro rfl
    contradiction
  have front : skipBlanks (before ++ (c :: (name ++ s))) = c :: (name ++ s) :=
    skipBlanks_append_cons blankBefore (isBlank_of_isKeyChar first)
  rw [eq, List.cons_append]
  cases found : takeAttribute tag (c :: (name ++ s)) with
  | ok read => exact readAttributes_of_takeAttribute front bracket found
  | error fault =>
    rw [readAttributes, front]
    split
    · rename_i close
      exact absurd (List.cons.inj close).1 bracket
    · split
      · rename_i read
        rw [found] at read
        contradiction
      · rename_i fails
        rw [found] at fails
        exact congrArg _ (Except.error.inj fails).symm

/-- The attributes of a header are read exactly where they are written. -/
theorem readAttributes_eq_ok_iff {tag : String} {s : List Char}
    {attributes : List (String × String)} :
    readAttributes tag s = .ok attributes ↔ IsAttributes s attributes := by
  constructor
  · intro h
    fun_induction readAttributes tag s generalizing attributes with
    | case1 s rest closes =>
      obtain rfl := Except.ok.inj h
      obtain ⟨blanks, blank, eq⟩ := exists_skipBlanks s
      rw [closes] at eq
      exact eq ▸ .close blank rest
    | case2 s binding rest found _ ih =>
      obtain ⟨others, later, rfl⟩ := exists_of_map_eq_ok h
      obtain ⟨key, value⟩ := binding
      obtain ⟨named, left, right, text, blankLeft, blankRight, written, front⟩ :=
        takeAttribute_eq_ok_iff.1 found
      obtain ⟨blanks, blank, eq⟩ := exists_skipBlanks s
      rw [front] at eq
      exact eq ▸ .binding blank named blankLeft blankRight written (ih later)
    | case3 => contradiction
  · intro written
    induction written with
    | close blank anything =>
      rw [readAttributes, skipBlanks_append_cons blank rfl]
      rfl
    | @binding before left right text rest key value others blankBefore named blankLeft
        blankRight written more ih =>
      have found : takeAttribute tag
          (key.toList ++ (left ++ '=' :: (right ++ (text ++ rest)))) = .ok ((key, value), rest) :=
        takeAttribute_eq_ok_iff.2 ⟨named, left, right, text, blankLeft, blankRight, written, rfl⟩
      rw [readAttributes_of_key blankBefore named, found]
      dsimp only
      rw [ih]
      rfl

/-! ### Headers -/

namespace Header

/-- A line that opens a section is a header or has a fault. -/
theorem ofLine_of_trim {line : List Char} {c : Char} {rest : List Char}
    (eq : trim line = '[' :: c :: rest) (letter : c.isAlpha = true) :
    ofLine line = (readAttributes (String.ofList (c :: rest.takeWhile isKeyChar))
      (rest.dropWhile isKeyChar)).map fun attributes =>
        some ⟨String.ofList (c :: rest.takeWhile isKeyChar), attributes⟩ := by
  rw [ofLine, eq]
  simp only [letter, ↓reduceIte]
  rfl

theorem ofLine_eq_none_iff {line : List Char} :
    ofLine line = .ok none ↔ ¬StartsHeader (trim line) := by
  constructor
  · rintro none ⟨c, rest, eq, letter⟩
    rw [ofLine_of_trim eq letter] at none
    obtain ⟨attributes, -, some⟩ := exists_of_map_eq_ok none
    exact absurd some (Option.some_ne_none _)
  · intro other
    unfold ofLine
    split
    · rename_i c rest eq
      have letter : ¬c.isAlpha = true := fun letter => other ⟨c, rest, eq, letter⟩
      rw [if_neg letter]
      rfl
    · rfl

/-- Behind the tag of a header, its attributes are read. -/
theorem ofLine_of_tag {line rest : List Char} {tag : String}
    (eq : trim line = '[' :: (tag.toList ++ rest)) (starts : StartsHeader (trim line))
    (named : IsKey tag) (stop : ∀ c ∈ rest.head?, isKeyChar c = false) :
    ofLine line = (readAttributes tag rest).map fun attributes => some ⟨tag, attributes⟩ := by
  obtain ⟨c, tail, start, letter⟩ := starts
  obtain ⟨d, others, name⟩ := List.exists_cons_of_ne_nil named.1
  rw [eq, name, List.cons_append, List.cons.injEq, List.cons.injEq] at start
  obtain ⟨-, rfl, rfl⟩ := start
  have more : ∀ e ∈ others, isKeyChar e = true := fun e mem => named.char e (by simp [name, mem])
  have same : String.ofList (d :: others) = tag := by rw [← name, String.ofList_toList]
  rw [name, List.cons_append] at eq
  rw [ofLine_of_trim eq letter, takeWhile_append_of_stop more stop,
    dropWhile_append_of_stop more stop, same]

/-- A header is read exactly where it is written. -/
theorem ofLine_eq_some_iff {line : List Char} {header : Header} :
    ofLine line = .ok (some header) ↔ header.IsWrittenAs (trim line) := by
  constructor
  · intro h
    by_cases starts : StartsHeader (trim line)
    · obtain ⟨c, rest, eq, letter⟩ := starts
      rw [ofLine_of_trim eq letter] at h
      obtain ⟨attributes, read, same⟩ := exists_of_map_eq_ok h
      obtain rfl := Option.some.inj same
      refine ⟨rest.dropWhile isKeyChar, ?_, ⟨c, rest, eq, letter⟩, ?_, ?_,
        readAttributes_eq_ok_iff.1 read⟩
      · rw [eq, String.toList_ofList, List.cons_append, List.takeWhile_append_dropWhile]
      · have first : isKeyChar c = true := by simp [isKeyChar, Char.isAlphanum, letter]
        rw [IsKey, String.toList_ofList, List.all_cons, first, List.all_takeWhile]
        exact ⟨List.cons_ne_nil _ _, rfl⟩
      · intro d mem
        have stops := List.head?_dropWhile_not isKeyChar rest
        rwa [Option.mem_def.1 mem] at stops
    · rw [ofLine_eq_none_iff.2 starts] at h
      exact absurd (Except.ok.inj h) (Option.some_ne_none header).symm
  · rintro ⟨rest, eq, starts, named, stop, attributes⟩
    rw [ofLine_of_tag eq starts named stop, readAttributes_eq_ok_iff.2 attributes]
    rfl

/-- A key has the value that is written last for it. -/
theorem value?_eq_some_iff {header : Header} {key value : String} :
    header.value? key = some value ↔
      ∃ front back, header.attributes = front ++ (key, value) :: back ∧
        key ∉ back.map Prod.fst := by
  have last (back : List (String × String)) :
      key ∉ back.map Prod.fst ↔ ∀ binding ∈ back.reverse, (!binding.1 == key) = true := by
    simp only [List.mem_map, not_exists, not_and, List.mem_reverse, Bool.not_eq_true',
      beq_eq_false_iff_ne]
  rw [value?, List.findRev?_eq_find?_reverse, Option.map_eq_some_iff]
  constructor
  · rintro ⟨⟨name, _⟩, found, rfl⟩
    obtain ⟨same, back, front, eq, none⟩ := List.find?_eq_some_iff_append.1 found
    obtain rfl := beq_iff_eq.1 same
    refine ⟨front.reverse, back.reverse, ?_, ?_⟩
    · simpa using congrArg List.reverse eq
    · rwa [last, List.reverse_reverse]
  · rintro ⟨front, back, eq, none⟩
    refine ⟨(key, value), List.find?_eq_some_iff_append.2 ⟨BEq.rfl, back.reverse, front.reverse, ?_,
      (last back).1 none⟩, rfl⟩
    rw [eq, List.reverse_append, List.reverse_cons, List.append_assoc, List.singleton_append]

private theorem nodup_eraseDups : (keys : List String) → keys.eraseDups.Nodup
  | [] => List.nodup_nil
  | key :: rest => by
    have shorter : (rest.filter fun other => !other == key).length < rest.length + 1 :=
      Nat.lt_succ_of_le (List.length_filter_le ..)
    rw [List.eraseDups_cons, List.nodup_cons, List.mem_eraseDups]
    exact ⟨by simp, nodup_eraseDups _⟩
termination_by keys => keys.length

private theorem mem_bindings_iff {header : Header} {key value : String} :
    (key, value) ∈ header.bindings ↔ header.value? key = some value := by
  rw [bindings, List.mem_filterMap]
  constructor
  · rintro ⟨name, -, found⟩
    obtain ⟨_, eq, same⟩ := Option.map_eq_some_iff.1 found
    simp only [Prod.mk.injEq] at same
    obtain ⟨rfl, rfl⟩ := same
    exact eq
  · intro found
    obtain ⟨front, back, eq, -⟩ := value?_eq_some_iff.1 found
    refine ⟨key, List.mem_eraseDups.2 ?_, by rw [found]; rfl⟩
    rw [eq]
    simp

/-- No key is bound twice. -/
private theorem nodup_keys_bindings (header : Header) : (header.bindings.map Prod.fst).Nodup := by
  have keys (names : List String) : ((names.filterMap fun key =>
      (header.value? key).map fun value => (key, value)).map Prod.fst).Sublist names := by
    induction names with
    | nil => exact List.Sublist.refl _
    | cons key rest ih =>
      cases found : header.value? key with
      | none => simpa [found] using ih.cons key
      | some value => simpa [found] using ih.cons_cons key
  exact (nodup_eraseDups _).sublist (keys _)

/-- **The grammar of headers.** A line is no header exactly if it does not start with an opening
bracket and a letter, blanks aside. It is one exactly if it is written as the grammar says, and
then it has the tag and the attributes that are written. Each key is bound once, to the value that
is written last for it. A header with any keys and any values at all, written with the values
quoted, is read back. -/
theorem ofLine_grammar :
    (∀ line, ofLine line = .ok none ↔ ¬StartsHeader (trim line)) ∧
      (∀ line header, ofLine line = .ok (some header) ↔ header.IsWrittenAs (trim line)) ∧
      (∀ header : Header, (header.bindings.map Prod.fst).Nodup ∧ ∀ key value,
        (key, value) ∈ header.bindings ↔ ∃ front back,
          header.attributes = front ++ (key, value) :: back ∧ key ∉ back.map Prod.fst) ∧
      ∀ header : Header, header.IsWritable → ofLine header.render = .ok (some header) :=
  ⟨fun _ => ofLine_eq_none_iff, fun _ _ => ofLine_eq_some_iff,
    fun header => ⟨nodup_keys_bindings header, fun _ _ =>
      mem_bindings_iff.trans value?_eq_some_iff⟩,
    fun _ => ofLine_render⟩

/-- A header of which every value has to be escaped is read back, and so is one whose bare value has
brackets of three kinds, blanks and a `]` in a quotation. -/
theorem ofLine_grammar_nested :
    let escaped : Header := ⟨"node", [("name", "\"]"), ("name", "\\"), ("type", "")]⟩
    let nested : Header := ⟨"node", [("groups", "[(\"] \\\"\", 1\x7d, 2]"), ("id", ")1")]⟩
    escaped.IsWritable ∧ ofLine escaped.render = .ok (some escaped) ∧
      nested.IsWrittenAs (trim " [node groups = [(\"] \\\"\", 1\x7d, 2] id=)1]; 3".toList) := by
  intro escaped nested
  have tag : "node".toList = ['n', 'o', 'd', 'e'] := by decide +kernel
  have keys : ∀ binding ∈ escaped.attributes, IsKey binding.1 := by decide +kernel
  have writable : escaped.IsWritable := ⟨⟨'n', _, tag, rfl⟩, by decide +kernel, keys⟩
  have read : ofLine " [node groups = [(\"] \\\"\", 1\x7d, 2] id=)1]; 3".toList =
      .ok (some nested) := by
    -- Outcomes have no decidable equality, but optional headers have.
    have accepted : (ofLine " [node groups = [(\"] \\\"\", 1\x7d, 2] id=)1]; 3".toList).toOption =
        some (some nested) := by
      decide +kernel
    generalize ofLine _ = outcome at accepted ⊢
    cases outcome with
    | error fault => contradiction
    | ok found => exact congrArg _ (Option.some.inj accepted)
  refine ⟨writable, ofLine_grammar.2.2.2 escaped writable, ?_⟩
  exact (ofLine_grammar.2.1 _ nested).1 read

end Header

end Scene

end SceneAudit
