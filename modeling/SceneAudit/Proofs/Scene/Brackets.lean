import SceneAudit.Proofs.Scene.Grammar

/-!
# Brackets in bare values

A bare value is meant to be balanced: quotations aside, each opening bracket is closed by a bracket
of its own kind, in the right order, and no bracket is closed that is not open. The scanner of bare
values counts how many brackets are open and does not remember their kinds, and where none is open
it passes over a closing bracket other than `]`. What it accepts is therefore balanced as far as
this count can tell: every bracket that it sees opened has been closed by one of some kind.

Whether a text is balanced is decided by the brackets that are still open in front of each of its
parts, which is what the proofs carry along a bare value, next to the number that the scanner keeps.
If a bare value continues to a balanced text, the open brackets are as many as the scanner counts,
and none is open at its end. So a bare value is balanced exactly if no closing bracket in it is
misplaced, that is, if it is the front of a balanced text. All brackets being square is enough,
since a `]` that closes nothing ends the value.

## Main definitions

* `Scene.IsBalanced`, `Scene.IsBalancedFront`: balanced texts and their fronts.
* `Scene.ClosesAll`: what may follow in a balanced text behind the given open brackets.
* `Scene.StartsBalanced`: a balanced text stands in front and ends like a bare value.
* `Scene.ReachesValue`, `Scene.Header.ValueAt`: where the value of an attribute starts.
* `Scene.Header.BindsQuoted`, `Scene.Header.BindsBare`: the values that are written in a line.

## Main results

* `Scene.ClosesAll.cons_cases`: the first character of the rest of a balanced text.
* `Scene.IsBare.closesAll`: a bare value in a balanced text closes what is open before it.
* `Scene.IsBare.isBalanced_iff`: which bare values are balanced.
* `Scene.ReachesValue.readAttributes_of_fault`: a value that cannot be read is a fault.
* `Scene.Header.ofLine_balanced`: the bare values of headers, and when they are balanced.
-/

namespace SceneAudit.Scene

open Text

/-! ### Balanced texts -/

/-- The closing bracket of the kind of an opening one. -/
def closerOf (c : Char) : Char :=
  if c = '(' then ')' else if c = '[' then ']' else '}'

/-- A balanced text: what stands in quotations is of no account, each opening bracket is followed
by a balanced text and the closing bracket of its kind, and there is no other closing bracket. -/
inductive IsBalanced : List Char → Prop
  | nil : IsBalanced []
  | plain {c : Char} {rest : List Char} (quote : c ≠ '"') (opener : ¬isOpener c = true)
      (closer : ¬isCloser c = true) (more : IsBalanced rest) : IsBalanced (c :: rest)
  | quotation {text value rest : List Char} (quoted : Quoted.Closes text value)
      (more : IsBalanced rest) : IsBalanced ('"' :: (text ++ rest))
  | group {c : Char} {inside rest : List Char} (opener : isOpener c = true)
      (balanced : IsBalanced inside) (more : IsBalanced rest) :
      IsBalanced (c :: (inside ++ closerOf c :: rest))

/-- The front of a balanced text. Brackets and quotations may be open at its end, but each closing
bracket in it closes the one that was opened last. -/
def IsBalancedFront (s : List Char) : Prop :=
  ∃ behind, IsBalanced (s ++ behind)

/-- What may follow in a balanced text where brackets are open, the one that was opened last being
the first: it closes each of them, with balanced texts in between. -/
def ClosesAll : List Char → List Char → Prop
  | [], s => IsBalanced s
  | c :: opened, s =>
    ∃ inside rest, s = inside ++ closerOf c :: rest ∧ IsBalanced inside ∧ ClosesAll opened rest

theorem isCloser_closerOf (c : Char) : isCloser (closerOf c) = true := by
  unfold closerOf
  split
  · rfl
  · split <;> rfl

theorem not_isOpener_of_isCloser {c : Char} (closer : isCloser c = true) : ¬isOpener c = true := by
  simp only [isCloser, Bool.or_eq_true, beq_iff_eq] at closer
  rcases closer with (rfl | rfl) | rfl <;> decide

/-- The rest of a balanced text starts with a character of no account, with a quotation, with an
opening bracket, or with the one that closes what was opened last. -/
theorem ClosesAll.cons_cases {opened s : List Char} {c : Char} (h : ClosesAll opened (c :: s)) :
    (c ≠ '"' ∧ ¬isOpener c = true ∧ ¬isCloser c = true ∧ ClosesAll opened s) ∨
      (c = '"' ∧ ∃ text value rest, s = text ++ rest ∧ Quoted.Closes text value ∧
        ClosesAll opened rest) ∨
      (isOpener c = true ∧ ClosesAll (c :: opened) s) ∨
      ∃ d others, opened = d :: others ∧ c = closerOf d ∧ ClosesAll others s := by
  cases opened with
  | nil =>
    cases h with
    | plain quote opener closer more => exact .inl ⟨quote, opener, closer, more⟩
    | quotation quoted more => exact .inr (.inl ⟨rfl, _, _, _, rfl, quoted, more⟩)
    | group opener balanced more => exact .inr (.inr (.inl ⟨opener, _, _, rfl, balanced, more⟩))
  | cons d others =>
    obtain ⟨inside, rest, eq, balanced, closed⟩ := h
    cases balanced with
    | nil =>
      obtain ⟨rfl, rfl⟩ := List.cons.inj eq
      exact .inr (.inr (.inr ⟨d, others, rfl, rfl, closed⟩))
    | plain quote opener closer more =>
      obtain ⟨rfl, rfl⟩ := List.cons.inj eq
      exact .inl ⟨quote, opener, closer, _, rest, rfl, more, closed⟩
    | @quotation text value tail quoted more =>
      obtain ⟨rfl, rfl⟩ := List.cons.inj eq
      exact .inr (.inl ⟨rfl, text, value, tail ++ closerOf d :: rest, List.append_assoc ..,
        quoted, tail, rest, rfl, more, closed⟩)
    | @group _ group tail opener within more =>
      obtain ⟨rfl, rfl⟩ := List.cons.inj eq
      exact .inr (.inr (.inl ⟨opener, group, tail ++ closerOf d :: rest, List.append_assoc ..,
        within, tail, rest, rfl, more, closed⟩))

/-! The same, read in both directions, for each kind of character. -/

theorem closesAll_plain {opened s : List Char} {c : Char} (quote : c ≠ '"')
    (opener : ¬isOpener c = true) (closer : ¬isCloser c = true) :
    ClosesAll opened (c :: s) ↔ ClosesAll opened s := by
  constructor
  · intro h
    obtain ⟨-, -, -, more⟩ | ⟨rfl, -⟩ | ⟨opens, -⟩ | ⟨d, _, -, rfl, -⟩ := h.cons_cases
    · exact more
    · contradiction
    · contradiction
    · exact absurd (isCloser_closerOf d) closer
  · intro h
    cases opened with
    | nil => exact .plain quote opener closer h
    | cons d others =>
      obtain ⟨inside, rest, rfl, balanced, closed⟩ := h
      exact ⟨c :: inside, rest, rfl, .plain quote opener closer balanced, closed⟩

theorem closesAll_quotation {opened text value s : List Char}
    (quoted : Quoted.Closes text value) :
    ClosesAll opened ('"' :: (text ++ s)) ↔ ClosesAll opened s := by
  constructor
  · intro h
    obtain ⟨quote, -⟩ | ⟨-, other, _, rest, eq, closes, more⟩ | ⟨opens, -⟩ | ⟨d, _, -, mark, -⟩ :=
      h.cons_cases
    · contradiction
    · exact quoted.rest_eq closes eq ▸ more
    · contradiction
    · exact absurd (mark ▸ isCloser_closerOf d) (by decide)
  · intro h
    cases opened with
    | nil => exact .quotation quoted h
    | cons d others =>
      obtain ⟨inside, rest, rfl, balanced, closed⟩ := h
      refine ⟨'"' :: (text ++ inside), rest, ?_, .quotation quoted balanced, closed⟩
      rw [List.cons_append, List.append_assoc]

theorem closesAll_opener {opened s : List Char} {c : Char} (opener : isOpener c = true) :
    ClosesAll opened (c :: s) ↔ ClosesAll (c :: opened) s := by
  constructor
  · intro h
    obtain ⟨-, other, -⟩ | ⟨rfl, -⟩ | ⟨-, more⟩ | ⟨d, _, -, rfl, -⟩ := h.cons_cases
    · contradiction
    · contradiction
    · exact more
    · exact absurd opener (not_isOpener_of_isCloser (isCloser_closerOf d))
  · rintro ⟨inside, rest, rfl, balanced, closed⟩
    cases opened with
    | nil => exact .group opener balanced closed
    | cons d others =>
      obtain ⟨tail, rest, rfl, more, closed⟩ := closed
      refine ⟨c :: (inside ++ closerOf c :: tail), rest, ?_, .group opener balanced more, closed⟩
      rw [List.cons_append, List.append_assoc, List.cons_append]

theorem closesAll_closer {opened s : List Char} {c : Char} (closer : isCloser c = true) :
    ClosesAll opened (c :: s) ↔ ∃ d others, opened = d :: others ∧ c = closerOf d ∧
      ClosesAll others s := by
  constructor
  · intro h
    obtain ⟨-, -, other, -⟩ | ⟨rfl, -⟩ | ⟨opener, -⟩ | closes := h.cons_cases
    · contradiction
    · contradiction
    · exact absurd opener (not_isOpener_of_isCloser closer)
    · exact closes
  · rintro ⟨d, others, rfl, rfl, closed⟩
    exact ⟨[], s, rfl, .nil, closed⟩

/-- A bracket that is opened in a balanced text is closed in it. -/
theorem IsBalanced.closerOf_mem {c : Char} {s : List Char} (balanced : IsBalanced (c :: s))
    (opener : isOpener c = true) : closerOf c ∈ s := by
  have closes : ClosesAll [] (c :: s) := balanced
  obtain ⟨inside, rest, rfl, -⟩ := (closesAll_opener opener).1 closes
  exact List.mem_append_right inside List.mem_cons_self

/-! ### Bare values -/

/-- If the scanner's count is the number of open brackets and the text goes on in a balanced way, a
bare value closes all that is open before it, and what follows it is balanced. -/
theorem IsBare.closesAll {depth : Nat} {value : List Char} (bare : IsBare depth value)
    {opened behind : List Char} (count : opened.length = depth)
    (closes : ClosesAll opened (value ++ behind)) :
    ClosesAll opened value ∧ IsBalanced behind := by
  induction bare generalizing opened with
  | done =>
    obtain rfl := List.eq_nil_of_length_eq_zero count
    exact ⟨.nil, closes⟩
  | quotation quoted more ih =>
    rw [List.cons_append, List.append_assoc, closesAll_quotation quoted] at closes
    rw [closesAll_quotation quoted]
    exact ih count closes
  | @char depth c rest quote goes more ih =>
    rw [List.cons_append] at closes
    rw [nesting] at ih
    by_cases opener : isOpener c = true
    · rw [closesAll_opener opener] at closes ⊢
      rw [if_pos opener] at ih
      exact ih (congrArg (· + 1) count) closes
    by_cases closer : isCloser c = true
    · rw [closesAll_closer closer] at closes
      obtain ⟨d, others, rfl, rfl, closes⟩ := closes
      rw [if_neg opener, if_pos closer, ← count] at ih
      obtain ⟨closed, balanced⟩ := ih rfl closes
      exact ⟨(closesAll_closer closer).2 ⟨d, others, rfl, rfl, closed⟩, balanced⟩
    · rw [closesAll_plain quote opener closer] at closes ⊢
      rw [if_neg opener, if_neg closer] at ih
      exact ih count closes

/-- A bare value is balanced exactly if no closing bracket in it is misplaced. -/
theorem IsBare.isBalanced_iff {value : List Char} (bare : IsBare 0 value) :
    IsBalanced value ↔ IsBalancedFront value := by
  constructor
  · intro balanced
    exact ⟨[], by rwa [List.append_nil]⟩
  · rintro ⟨behind, balanced⟩
    have closes : ClosesAll [] (value ++ behind) := balanced
    exact (bare.closesAll rfl closes).1

/-- A bare value all of whose brackets are square closes as many as the scanner has counted. -/
theorem IsBare.closesAll_of_square {depth : Nat} {value : List Char} (bare : IsBare depth value)
    (square : ∀ c ∈ value, c ∉ ['(', ')', '{', '}']) :
    ClosesAll (List.replicate depth '[') value := by
  induction bare with
  | done => exact .nil
  | quotation quoted more ih =>
    rw [closesAll_quotation quoted]
    exact ih fun c mem => square c (List.mem_cons_of_mem _ (List.mem_append_right _ mem))
  | @char depth c rest quote goes more ih =>
    have first := square c List.mem_cons_self
    simp only [List.mem_cons, List.not_mem_nil, or_false, not_or] at first
    have later := ih fun d mem => square d (List.mem_cons_of_mem c mem)
    rw [nesting] at later
    by_cases opener : isOpener c = true
    · obtain rfl : c = '[' := by simpa [isOpener, first] using opener
      exact (closesAll_opener rfl).2 later
    by_cases closer : isCloser c = true
    · obtain rfl : c = ']' := by simpa [isCloser, first] using closer
      -- Outside of all brackets the value would have ended here.
      obtain ⟨outer, rfl⟩ := Nat.exists_eq_succ_of_ne_zero (goes (.inr rfl))
      exact (closesAll_closer rfl).2 ⟨'[', _, List.replicate_succ, rfl, later⟩
    · rw [if_neg opener, if_neg closer] at later
      exact (closesAll_plain quote opener closer).2 later

/-! ### Where values are written -/

/-- How the attributes of a header go on up to the value of one of them, which starts the last text.
The attributes in front of it are complete. -/
inductive ReachesValue : List Char → String → List Char → Prop
  | here {before left right s : List Char} {key : String}
      (blankBefore : ∀ c ∈ before, isBlank c = true) (named : IsKey key)
      (blankLeft : ∀ c ∈ left, isBlank c = true) (blankRight : ∀ c ∈ right, isBlank c = true)
      (starts : ∀ c ∈ s.head?, isBlank c = false) :
      ReachesValue (before ++ (key.toList ++ (left ++ '=' :: (right ++ s)))) key s
  | later {before left right text value rest s : List Char} {other key : String}
      (blankBefore : ∀ c ∈ before, isBlank c = true) (named : IsKey other)
      (blankLeft : ∀ c ∈ left, isBlank c = true) (blankRight : ∀ c ∈ right, isBlank c = true)
      (written : IsValue text value rest) (more : ReachesValue rest key s) :
      ReachesValue (before ++ (other.toList ++ (left ++ '=' :: (right ++ (text ++ rest))))) key s

/-- Behind a key and its sign, a value and the attributes behind it are read. -/
theorem readAttributes_of_value {tag key : String} {before left right s : List Char}
    (blankBefore : ∀ c ∈ before, isBlank c = true) (named : IsKey key)
    (blankLeft : ∀ c ∈ left, isBlank c = true) (blankRight : ∀ c ∈ right, isBlank c = true)
    (starts : ∀ c ∈ s.head?, isBlank c = false) :
    readAttributes tag (before ++ (key.toList ++ (left ++ '=' :: (right ++ s)))) =
      match takeValue s with
      | .ok (value, rest) => (readAttributes tag rest).map ((key, String.ofList value) :: ·)
      | .error fault => .error (.badValue key fault) := by
  rw [readAttributes_of_key blankBefore named,
    takeAttribute_of_key named blankLeft blankRight starts]
  cases takeValue s with
  | ok found => rfl
  | error fault => rfl

/-- A value that cannot be read is a fault of its header. -/
theorem ReachesValue.readAttributes_of_fault {tag key : String} {text s : List Char}
    {fault : ValueFault} (reaches : ReachesValue text key s) (fails : takeValue s = .error fault) :
    readAttributes tag text = .error (.badValue key fault) := by
  induction reaches with
  | here blankBefore named blankLeft blankRight starts =>
    rw [readAttributes_of_value blankBefore named blankLeft blankRight starts, fails]
  | later blankBefore named blankLeft blankRight written more ih =>
    rw [readAttributes_of_value blankBefore named blankLeft blankRight written.starts,
      takeValue_eq_ok_iff.2 ⟨_, rfl, written⟩]
    dsimp only
    rw [ih fails]
    rfl

/-- A value that is read is one of the attributes. -/
theorem ReachesValue.mem_readAttributes {tag key : String} {text s value rest : List Char}
    {attributes : List (String × String)} (reaches : ReachesValue text key s)
    (found : takeValue s = .ok (value, rest)) (read : readAttributes tag text = .ok attributes) :
    (key, String.ofList value) ∈ attributes := by
  induction reaches generalizing attributes with
  | here blankBefore named blankLeft blankRight starts =>
    rw [readAttributes_of_value blankBefore named blankLeft blankRight starts, found] at read
    obtain ⟨others, -, rfl⟩ := exists_of_map_eq_ok read
    exact List.mem_cons_self
  | later blankBefore named blankLeft blankRight written more ih =>
    rw [readAttributes_of_value blankBefore named blankLeft blankRight written.starts,
      takeValue_eq_ok_iff.2 ⟨_, rfl, written⟩] at read
    obtain ⟨others, later, rfl⟩ := exists_of_map_eq_ok read
    exact List.mem_cons_of_mem _ (ih found later)

/-- Each attribute has its value written somewhere. -/
theorem IsAttributes.exists_reachesValue {text : List Char} {attributes : List (String × String)}
    (written : IsAttributes text attributes) {key value : String}
    (mem : (key, value) ∈ attributes) :
    ∃ s rest, ReachesValue text key s ∧ takeValue s = .ok (value.toList, rest) := by
  induction written with
  | close => contradiction
  | binding blankBefore named blankLeft blankRight written more ih =>
    cases mem with
    | head =>
      exact ⟨_, _, .here blankBefore named blankLeft blankRight written.starts,
        takeValue_eq_ok_iff.2 ⟨_, rfl, written⟩⟩
    | tail _ mem =>
      obtain ⟨s, rest, reaches, found⟩ := ih mem
      exact ⟨s, rest, .later blankBefore named blankLeft blankRight written reaches, found⟩

/-- A balanced text stands in front, and it ends like a bare value: at the end of the whole text, or
before a blank or `]`. -/
def StartsBalanced (s : List Char) : Prop :=
  ∃ value rest, s = value ++ rest ∧ value ≠ [] ∧ IsBalanced value ∧ ∀ c ∈ rest.head?, EndsBare c

/-- Where no closing bracket is misplaced, a value that does not start with a quotation can be read
only if a balanced text stands there. -/
theorem exists_takeValue_eq_error {s : List Char} (unquoted : s.head? ≠ some '"')
    (front : IsBalancedFront s) (unbalanced : ¬StartsBalanced s) :
    ∃ fault, takeValue s = .error fault := by
  cases found : takeValue s with
  | error fault => exact ⟨fault, rfl⟩
  | ok read =>
    obtain ⟨value, rest⟩ := read
    obtain ⟨text, rfl, written⟩ := takeValue_eq_ok_iff.1 found
    cases written with
    | quoted => exact absurd rfl unquoted
    | bare nonempty _ bare ends =>
      obtain ⟨behind, balanced⟩ := front
      rw [List.append_assoc] at balanced
      exact absurd ⟨_, _, rfl, nonempty, bare.isBalanced_iff.2 ⟨_, balanced⟩, ends⟩ unbalanced

namespace Header

/-- The value for `key`, or one of them, starts at `s` in a line that opens a section. -/
def ValueAt (line : List Char) (key : String) (s : List Char) : Prop :=
  ∃ tag rest, trim line = '[' :: (String.toList tag ++ rest) ∧ StartsHeader (trim line) ∧
    IsKey tag ∧ (∀ c ∈ rest.head?, isKeyChar c = false) ∧ ReachesValue rest key s

/-- The line has the value for `key` in quotation marks. -/
def BindsQuoted (line : List Char) (key value : String) : Prop :=
  ∃ text rest, ValueAt line key ('"' :: (text ++ rest)) ∧ Quoted.Closes text value.toList

/-- The line has the value for `key` as it is, up to where a bare value ends. -/
def BindsBare (line : List Char) (key value : String) : Prop :=
  value.toList.head? ≠ some '"' ∧
    ∃ rest, ValueAt line key (value.toList ++ rest) ∧ IsValue value.toList value.toList rest

private theorem BindsBare.isBare {line : List Char} {key value : String}
    (binds : BindsBare line key value) : IsBare 0 value.toList := by
  obtain ⟨unquoted, rest, -, written⟩ := binds
  generalize value.toList = text at unquoted written
  cases written with
  | quoted => exact absurd rfl unquoted
  | bare _ _ bare _ => exact bare

/-- The values that are written in a line are the ones that are read in it. -/
theorem bindsQuoted_or_bindsBare_iff {line : List Char} {key value : String} :
    BindsQuoted line key value ∨ BindsBare line key value ↔
      ∃ s rest, ValueAt line key s ∧ takeValue s = .ok (value.toList, rest) := by
  constructor
  · rintro (⟨text, rest, valueAt, closes⟩ | ⟨-, rest, valueAt, written⟩)
    · exact ⟨_, rest, valueAt, takeValue_eq_ok_iff.2 ⟨'"' :: text, rfl, .quoted closes rest⟩⟩
    · exact ⟨_, rest, valueAt, takeValue_eq_ok_iff.2 ⟨_, rfl, written⟩⟩
  · rintro ⟨s, rest, valueAt, found⟩
    obtain ⟨text, rfl, written⟩ := takeValue_eq_ok_iff.1 found
    generalize eq : value.toList = v at written
    cases written with
    | @quoted text _ closes =>
      exact .inl ⟨text, rest, valueAt, eq.symm ▸ closes⟩
    | bare nonempty unquoted bare ends =>
      subst eq
      exact .inr ⟨unquoted, rest, valueAt, .bare nonempty unquoted bare ends⟩

/-- The attributes of a header are the values that are written in its line. -/
theorem mem_attributes_iff {line : List Char} {header : Header}
    (accepted : ofLine line = .ok (some header)) {key value : String} :
    (key, value) ∈ header.attributes ↔ BindsQuoted line key value ∨ BindsBare line key value := by
  rw [bindsQuoted_or_bindsBare_iff]
  constructor
  · intro mem
    obtain ⟨rest, eq, starts, named, stop, written⟩ := ofLine_eq_some_iff.1 accepted
    obtain ⟨s, behind, reaches, found⟩ := written.exists_reachesValue mem
    exact ⟨s, behind, ⟨_, rest, eq, starts, named, stop, reaches⟩, found⟩
  · rintro ⟨s, behind, ⟨tag, rest, eq, starts, named, stop, reaches⟩, found⟩
    rw [ofLine_of_tag eq starts named stop] at accepted
    obtain ⟨attributes, read, same⟩ := exists_of_map_eq_ok accepted
    obtain rfl := Option.some.inj same
    simpa using reaches.mem_readAttributes found read

/-- The value of the first attribute, with one blank in front of it, starts behind its sign. -/
theorem valueAt_first (tag : String) {line s : List Char} {key : String}
    (eq : trim line = '[' :: (tag.toList ++ ' ' :: (key.toList ++ '=' :: s)))
    (starts : StartsHeader (trim line)) (tagged : IsKey tag) (named : IsKey key)
    (front : skipBlanks s = s) : ValueAt line key s := by
  have blank : ∀ c ∈ [' '], isBlank c = true := fun c mem => List.mem_singleton.1 mem ▸ rfl
  have plain : ∀ c ∈ s.head?, isBlank c = false := by
    intro c mem
    obtain ⟨rest, eq⟩ := List.head?_eq_some_iff.1 mem
    exact isBlank_of_skipBlanks (front.trans eq)
  refine ⟨tag, _, eq, starts, tagged, fun c mem => Option.some.inj mem ▸ rfl, ?_⟩
  exact .here blank named (List.forall_mem_nil _) (List.forall_mem_nil _) plain

theorem BindsBare.of_takeValue (rest : List Char) {line : List Char} {key value : String}
    (valueAt : ValueAt line key (value.toList ++ rest)) (unquoted : value.toList.head? ≠ some '"')
    (found : (takeValue (value.toList ++ rest)).toOption = some (value.toList, rest)) :
    BindsBare line key value := by
  obtain ⟨text, eq, written⟩ := takeValue_eq_ok_iff.1 (eq_ok_of_toOption found)
  obtain rfl := List.append_cancel_right eq
  exact ⟨unquoted, rest, valueAt, written⟩

/-- **Brackets in bare values.** If a line is accepted as a header, its attributes are the values
that are written in it, in quotation marks or bare. A bare value is balanced exactly if no closing
bracket in it is misplaced, and always if all of its brackets are square. If no closing bracket is
misplaced from the start of a bare value on and yet no balanced value stands there, since a bracket
or a quotation remains open, the line is rejected with a fault of that value. -/
theorem ofLine_balanced (line : List Char) :
    (∀ header, ofLine line = .ok (some header) → ∀ key value,
      (key, value) ∈ header.attributes ↔ BindsQuoted line key value ∨ BindsBare line key value) ∧
      (∀ key value, BindsBare line key value →
        (IsBalanced value.toList ↔ IsBalancedFront value.toList) ∧
          ((∀ c ∈ value.toList, c ∉ ['(', ')', '{', '}']) → IsBalanced value.toList)) ∧
      ∀ key s, ValueAt line key s → s.head? ≠ some '"' → IsBalancedFront s →
        ¬StartsBalanced s → ∃ fault, ofLine line = .error (.badValue key fault) := by
  refine ⟨fun _ accepted _ _ => mem_attributes_iff accepted, fun _ _ binds =>
    ⟨binds.isBare.isBalanced_iff, binds.isBare.closesAll_of_square⟩, ?_⟩
  rintro key s ⟨tag, rest, eq, starts, named, stop, reaches⟩ unquoted front unbalanced
  obtain ⟨fault, fails⟩ := exists_takeValue_eq_error unquoted front unbalanced
  refine ⟨fault, ?_⟩
  rw [ofLine_of_tag eq starts named stop, reaches.readAttributes_of_fault fails]
  rfl

/-- A list of groups in a header is balanced. Where its own closing bracket and the one of the
header are missing, it is a fault. -/
theorem ofLine_balanced_groups :
    (∃ header, ofLine "[node groups=[\"a\", 1] id=7]".toList = .ok (some header) ∧
      ("groups", "[\"a\", 1]") ∈ header.attributes) ∧
      IsBalanced "[\"a\", 1]".toList ∧
      ∃ fault, ofLine "[node groups=[\"a\", 1".toList = .error (.badValue "groups" fault) := by
  have binds : BindsBare "[node groups=[\"a\", 1] id=7]".toList "groups" "[\"a\", 1]" := by
    refine .of_takeValue " id=7]".toList ?_ (by decide +kernel) (by decide +kernel)
    refine valueAt_first "node" (by decide +kernel) ?_ (by decide +kernel)
      (by decide +kernel) (by decide +kernel)
    exact ⟨'n', "ode groups=[\"a\", 1] id=7]".toList, by decide +kernel, rfl⟩
  have square : "[\"a\", 1]".toList.all (fun c => c ∉ ['(', ')', '{', '}']) = true := by
    decide +kernel
  have balanced : IsBalanced "[\"a\", 1]".toList :=
    ((ofLine_balanced _).2.1 _ _ binds).2 fun c mem =>
      of_decide_eq_true (List.all_eq_true.1 square c mem)
  refine ⟨?_, balanced, ?_⟩
  · let header : Header := ⟨"node", [("groups", "[\"a\", 1]"), ("id", "7")]⟩
    have accepted : ofLine "[node groups=[\"a\", 1] id=7]".toList = .ok (some header) :=
      eq_ok_of_toOption (by decide +kernel)
    exact ⟨header, accepted, ((ofLine_balanced _).1 _ accepted _ _).2 (.inr binds)⟩
  · refine (ofLine_balanced _).2.2 _ "[\"a\", 1".toList ?_ (by decide +kernel) ⟨[']'], ?_⟩ ?_
    · refine valueAt_first "node" (by decide +kernel) ?_ (by decide +kernel)
        (by decide +kernel) (by decide +kernel)
      exact ⟨'n', "ode groups=[\"a\", 1".toList, by decide +kernel, rfl⟩
    · have whole : "[\"a\", 1".toList ++ [']'] = "[\"a\", 1]".toList := by decide +kernel
      rwa [whole]
    · rintro ⟨value, rest, eq, nonempty, closed, -⟩
      obtain ⟨c, others, rfl⟩ := List.exists_cons_of_ne_nil nonempty
      have first : "[\"a\", 1".toList = '[' :: "\"a\", 1".toList := by decide +kernel
      rw [first, List.cons_append] at eq
      obtain ⟨rfl, tail⟩ := List.cons.inj eq
      have closer : ']' ∈ "\"a\", 1".toList :=
        tail ▸ List.mem_append_left rest (closed.closerOf_mem rfl)
      exact absurd closer (by decide +kernel)

/-- A bracket that is closed by one of another kind is accepted. -/
theorem not_isBalanced_groups :
    (∃ header, ofLine "[node groups=(] id=1]".toList = .ok (some header) ∧
      ("groups", "(]") ∈ header.attributes) ∧
      BindsBare "[node groups=(] id=1]".toList "groups" "(]" ∧ ¬IsBalanced "(]".toList := by
  refine ⟨⟨⟨"node", [("groups", "(]"), ("id", "1")]⟩, eq_ok_of_toOption (by decide +kernel),
    List.mem_cons_self⟩, ?_, fun closed => ?_⟩
  · refine .of_takeValue " id=1]".toList ?_ (by decide +kernel) (by decide +kernel)
    refine valueAt_first "node" (by decide +kernel) ?_ (by decide +kernel)
      (by decide +kernel) (by decide +kernel)
    exact ⟨'n', "ode groups=(] id=1]".toList, by decide +kernel, rfl⟩
  · have text : "(]".toList = ['(', ']'] := by decide +kernel
    rw [text] at closed
    exact absurd (closed.closerOf_mem rfl) (by decide)

end Header

end SceneAudit.Scene
