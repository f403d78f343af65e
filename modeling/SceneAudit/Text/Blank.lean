import SceneAudit.Text.Scan

/-!
# Blank characters

The characters that count as white space, in scene files and scripts alike, are those with the
Unicode property `White_Space`: the ASCII blanks and line breaks, the next-line character, the
no-break space, the typographic spaces and the two separators. A zero-width space is not among
them.

## Main definitions

* `Text.inRanges`: membership of a character in a table of code point ranges.
* `Text.isBlank`: the property `White_Space`.
* `Text.trim`: a text without the blanks at both of its ends.

## Main results

* `Text.trim_eq_self`: a text that neither starts nor ends with a blank is left alone.
* `Text.exists_trim`: a text is its trimmed part between some blanks.
* `Text.trim_trim`: trimming twice is trimming once.
-/

namespace SceneAudit.Text

/-- Whether the code point of `c` lies in one of the ranges of `table`, ends included. -/
def inRanges (table : List (Nat × Nat)) (c : Char) : Bool :=
  table.any fun range => range.1 ≤ c.toNat && c.toNat ≤ range.2

/-- The code points with the property `White_Space`. -/
def blankRanges : List (Nat × Nat) :=
  [(0x9, 0xD), (0x20, 0x20), (0x85, 0x85), (0xA0, 0xA0), (0x1680, 0x1680), (0x2000, 0x200A),
    (0x2028, 0x2029), (0x202F, 0x202F), (0x205F, 0x205F), (0x3000, 0x3000)]

/-- Whether `c` is white space. -/
def isBlank (c : Char) : Bool :=
  inRanges blankRanges c

/-- The text from its first character that is not blank on. -/
def skipBlanks (s : List Char) : List Char :=
  s.dropWhile isBlank

/-- The text up to its last character that is not blank. -/
def dropTrailingBlanks (s : List Char) : List Char :=
  (s.reverse.dropWhile isBlank).reverse

/-- The text without the blanks at its two ends. -/
def trim (s : List Char) : List Char :=
  dropTrailingBlanks (skipBlanks s)

/-! ### Skipping and trimming -/

theorem length_skipBlanks_le (s : List Char) : (skipBlanks s).length ≤ s.length :=
  (List.dropWhile_suffix isBlank).length_le

theorem skipBlanks_cons_of_blank {c : Char} {s : List Char} (h : isBlank c = true) :
    skipBlanks (c :: s) = skipBlanks s := by
  simp [skipBlanks, h]

theorem skipBlanks_cons_of_not_blank {c : Char} {s : List Char} (h : isBlank c = false) :
    skipBlanks (c :: s) = c :: s := by
  simp [skipBlanks, h]

theorem trim_eq_self {s : List Char} (first : ∀ c ∈ s.head?, isBlank c = false)
    (last : ∀ c ∈ s.getLast?, isBlank c = false) : trim s = s := by
  have front : skipBlanks s = s := by
    cases s with
    | nil => rfl
    | cons c s => exact skipBlanks_cons_of_not_blank (first c (by simp))
  rw [trim, front, dropTrailingBlanks]
  have back : s.reverse.dropWhile isBlank = s.reverse := by
    cases h : s.reverse with
    | nil => rfl
    | cons c r =>
      have hc : s.getLast? = some c := by simp [← List.head?_reverse, h]
      simp [last c (by simp [hc])]
  rw [back, List.reverse_reverse]

theorem dropTrailingBlanks_append {s trail : List Char} (blank : ∀ c ∈ trail, isBlank c = true) :
    dropTrailingBlanks (s ++ trail) = dropTrailingBlanks s := by
  rw [dropTrailingBlanks, List.reverse_append,
    List.dropWhile_append_of_pos fun c mem => blank c (List.mem_reverse.1 mem), dropTrailingBlanks]

theorem dropTrailingBlanks_append_cons {c : Char} (last : isBlank c = false) (s rest : List Char) :
    dropTrailingBlanks (s ++ c :: rest) = s ++ c :: dropTrailingBlanks rest := by
  have reversed : (s ++ c :: rest).reverse = rest.reverse ++ c :: s.reverse := by
    simp only [List.reverse_append, List.reverse_cons, List.append_assoc, List.cons_append,
      List.nil_append]
  rw [dropTrailingBlanks, reversed, dropWhile_append_cons last, List.reverse_append,
    List.reverse_cons, List.reverse_reverse, List.append_assoc, List.singleton_append,
    dropTrailingBlanks]

/-- A text is its part without trailing blanks and some blanks. -/
theorem exists_dropTrailingBlanks (s : List Char) :
    ∃ trail, s = dropTrailingBlanks s ++ trail ∧ ∀ c ∈ trail, isBlank c = true := by
  refine ⟨(s.reverse.takeWhile isBlank).reverse, ?_, fun c mem => ?_⟩
  · rw [dropTrailingBlanks, ← List.reverse_append, List.takeWhile_append_dropWhile,
      List.reverse_reverse]
  · exact List.all_eq_true.1 List.all_takeWhile c (List.mem_reverse.1 mem)

/-- A text is its trimmed part between some blanks. -/
theorem exists_trim (s : List Char) :
    ∃ lead trail, s = lead ++ (trim s ++ trail) ∧ (∀ c ∈ lead, isBlank c = true) ∧
      ∀ c ∈ trail, isBlank c = true := by
  obtain ⟨trail, eq, blank⟩ := exists_dropTrailingBlanks (skipBlanks s)
  refine ⟨s.takeWhile isBlank, trail, ?_, List.all_eq_true.1 List.all_takeWhile, blank⟩
  rw [trim, ← eq, skipBlanks, List.takeWhile_append_dropWhile]

private theorem dropTrailingBlanks_dropTrailingBlanks (s : List Char) :
    dropTrailingBlanks (dropTrailingBlanks s) = dropTrailingBlanks s := by
  obtain ⟨trail, eq, blank⟩ := exists_dropTrailingBlanks s
  conv => rhs; rw [eq, dropTrailingBlanks_append blank]

theorem skipBlanks_append {blanks s : List Char} (blank : ∀ c ∈ blanks, isBlank c = true)
    (stop : ∀ c ∈ s.head?, isBlank c = false) : skipBlanks (blanks ++ s) = s :=
  dropWhile_append_of_stop blank stop

theorem skipBlanks_append_cons {blanks s : List Char} {c : Char}
    (blank : ∀ d ∈ blanks, isBlank d = true) (other : isBlank c = false) :
    skipBlanks (blanks ++ c :: s) = c :: s :=
  skipBlanks_append blank fun _ mem => Option.mem_some_iff.1 mem ▸ other

/-- A text is some blanks and what is left when they are skipped. -/
theorem exists_skipBlanks (s : List Char) :
    ∃ blanks, (∀ c ∈ blanks, isBlank c = true) ∧ s = blanks ++ skipBlanks s :=
  ⟨s.takeWhile isBlank, List.all_eq_true.1 List.all_takeWhile,
    (List.takeWhile_append_dropWhile ..).symm⟩

/-- The first character behind the blanks is none. -/
theorem isBlank_of_skipBlanks {c : Char} {s rest : List Char} (h : skipBlanks s = c :: rest) :
    isBlank c = false := by
  have stops := List.head?_dropWhile_not isBlank s
  rwa [← skipBlanks, h] at stops

@[simp] theorem trim_trim (s : List Char) : trim (trim s) = trim s := by
  cases front : skipBlanks s with
  | nil =>
    have empty : trim s = [] := by
      rw [trim, front]
      rfl
    rw [empty]
    rfl
  | cons c rest =>
    have first := isBlank_of_skipBlanks front
    have whole : trim s = c :: dropTrailingBlanks rest := by
      rw [trim, front]
      exact dropTrailingBlanks_append_cons first [] rest
    rw [whole, trim, skipBlanks_cons_of_not_blank first, ← List.nil_append (c :: _),
      dropTrailingBlanks_append_cons first, dropTrailingBlanks_dropTrailingBlanks]

theorem trim_subset (s : List Char) : trim s ⊆ s := by
  obtain ⟨lead, trail, eq, -, -⟩ := exists_trim s
  conv => rhs; rw [eq]
  exact List.Subset.trans (List.subset_append_left _ trail) (List.subset_append_right lead _)

theorem trim_append_blanks {s trail : List Char} (blank : ∀ c ∈ trail, isBlank c = true) :
    trim (s ++ trail) = trim s := by
  have none : trail.dropWhile isBlank = [] := by
    rw [← List.append_nil trail, List.dropWhile_append_of_pos blank, List.dropWhile_nil]
  rw [trim, skipBlanks, List.dropWhile_append]
  split
  · rename_i empty
    rw [none, trim, skipBlanks, List.isEmpty_iff.1 empty]
  · exact dropTrailingBlanks_append blank

/-- Between blanks in front and a character that is not blank nothing is cut off, if what stands
there does not start with a blank. -/
theorem trim_append_cons {lead s : List Char} (blank : ∀ c ∈ lead, isBlank c = true)
    (first : ∃ c ∈ s.head?, isBlank c = false) {d : Char} (last : isBlank d = false)
    (rest : List Char) :
    trim (lead ++ (s ++ d :: rest)) = s ++ d :: dropTrailingBlanks rest := by
  obtain ⟨c, head, plain⟩ := first
  obtain ⟨tail, rfl⟩ := List.head?_eq_some_iff.1 head
  rw [trim, skipBlanks, List.dropWhile_append_of_pos blank, ← skipBlanks, List.cons_append,
    skipBlanks_cons_of_not_blank plain, ← List.cons_append, dropTrailingBlanks_append_cons last]

end SceneAudit.Text
