/-!
# Lines of a text

A line ends at a line feed, and one carriage return before the line feed belongs to the break.
A text that ends with a line feed has no further, empty line after it; a carriage return that no
line feed follows is a character of its line.

## Main definitions

* `Text.lines`: the lines of a text, without their breaks.
* `Text.EndsLine`: a text behind which a new line begins.

## Main results

* `Text.lines_append_break`: a line break separates the lines before it from the lines after it.
* `Text.EndsLine.lines_append`: so does the end of a text that ends with a line break.
* `Text.exists_lines_append_newline`: what stands before the first line feed is the first line, but
  for a carriage return at its end.
* `Text.lines_append_newline`: without a carriage return it is the line as it stands.
* `Text.line_induction`: induction over the lines of a text.
* `Text.newline_not_mem_of_mem_lines`: no line contains a line feed.
-/

namespace SceneAudit.Text

/-- The lines of a text, without their breaks. -/
def lines : List Char → List (List Char)
  | [] => []
  | '\r' :: '\n' :: rest => [] :: lines rest
  | '\n' :: rest => [] :: lines rest
  | c :: rest =>
    match lines rest with
    | [] => [[c]]
    | line :: more => (c :: line) :: more

private theorem lines_break (rest : List Char) : lines ('\n' :: rest) = [] :: lines rest := by
  rw [lines]

private theorem lines_ne_nil {c : Char} {rest : List Char} : lines (c :: rest) ≠ [] := by
  intro h
  unfold lines at h
  split at h <;> try contradiction
  split at h <;> contradiction

/-- A line break separates the lines before it from the lines after it. -/
theorem lines_append_break (s rest : List Char) :
    lines (s ++ '\n' :: rest) = lines (s ++ ['\n']) ++ lines rest := by
  fun_induction lines s with
  | case1 => simp [lines]
  | case2 tail ih => simp [lines, ih]
  | case3 tail ih => simp [lines, ih]
  | case4 c tail notBreak notFeed eq ih =>
    cases tail with
    | nil => by_cases hc : c = '\r' <;> simp [lines, hc]
    | cons d tail => exact absurd eq lines_ne_nil
  | case5 c tail notBreak notFeed line more eq ih =>
    cases tail with
    | nil => simp [lines] at eq
    | cons d tail =>
      have step (u : List Char) : lines (c :: d :: (tail ++ u)) =
          match lines (d :: (tail ++ u)) with
          | [] => [[c]]
          | line :: more => (c :: line) :: more := by
        rw [lines]
        · intro _ hc hd
          simp only [List.cons.injEq] at hd
          exact notBreak tail hc (by simp [hd.1])
        · exact notFeed
      simp only [List.cons_append] at ih ⊢
      rw [step, step, ih]
      cases h : lines (d :: (tail ++ ['\n'])) with
      | nil => exact absurd h lines_ne_nil
      | cons first others => rfl

/-- A new line begins behind the text: it is empty, or it ends with a line feed. -/
def EndsLine (s : List Char) : Prop :=
  s = [] ∨ s.getLast? = some '\n'

instance (s : List Char) : Decidable (EndsLine s) :=
  inferInstanceAs (Decidable (_ ∨ _))

theorem endsLine_append_newline (s : List Char) : EndsLine (s ++ ['\n']) :=
  .inr List.getLast?_concat

theorem EndsLine.append {s t : List Char} (first : EndsLine s) (second : EndsLine t) :
    EndsLine (s ++ t) := by
  rcases second with rfl | last
  · rwa [List.append_nil]
  · exact .inr (by rw [List.getLast?_append, last, Option.some_or])

/-- Where a new line begins, the lines before it are separated from the lines after it. -/
theorem EndsLine.lines_append {s : List Char} (h : EndsLine s) (rest : List Char) :
    lines (s ++ rest) = lines s ++ lines rest := by
  rcases h with rfl | last
  · rfl
  · obtain ⟨front, rfl⟩ := List.getLast?_eq_some_iff.1 last
    rw [List.append_assoc, List.singleton_append, lines_append_break]

/-- What stands before the first line feed is the first line, without a carriage return at its
end. -/
theorem exists_lines_append_newline {s : List Char} (feed : '\n' ∉ s) (rest : List Char) :
    ∃ line, lines (s ++ '\n' :: rest) = line :: lines rest ∧ (s = line ∨ s = line ++ ['\r']) := by
  induction s with
  | nil => exact ⟨[], lines_break rest, .inl rfl⟩
  | cons c s ih =>
    rw [List.mem_cons, not_or] at feed
    obtain ⟨line, eq, ends⟩ := ih feed.2
    by_cases carriage : c = '\r' ∧ s = []
    · obtain ⟨rfl, rfl⟩ := carriage
      exact ⟨[], by rw [List.cons_append, List.nil_append, lines], .inr rfl⟩
    · refine ⟨c :: line, ?_, ?_⟩
      · rw [List.cons_append, lines, eq]
        · rintro tail rfl start
          cases s with
          | nil => exact carriage ⟨rfl, rfl⟩
          | cons d s =>
            rw [List.cons_append, List.cons.injEq] at start
            exact feed.2 (start.1 ▸ List.mem_cons_self)
        · exact fun same => feed.1 same.symm
      · exact ends.imp (congrArg (c :: ·)) (congrArg (c :: ·))

/-- What stands before the first line feed is the first line, unless a carriage return ends it. -/
theorem lines_append_newline {s : List Char} (feed : '\n' ∉ s) (carriage : s.getLast? ≠ some '\r')
    (rest : List Char) : lines (s ++ '\n' :: rest) = s :: lines rest := by
  obtain ⟨line, eq, rfl | rfl⟩ := exists_lines_append_newline feed rest
  · exact eq
  · exact absurd List.getLast?_concat carriage

/-- A text without line feeds is one line, unless it is empty. -/
theorem lines_of_no_newline {s : List Char} (feed : '\n' ∉ s) (nonempty : s ≠ []) :
    lines s = [s] := by
  induction s with
  | nil => contradiction
  | cons c s ih =>
    rw [List.mem_cons, not_or] at feed
    have later : lines s = [] ∧ s = [] ∨ lines s = [s] := by
      cases s with
      | nil => exact .inl ⟨rfl, rfl⟩
      | cons d s => exact .inr (ih feed.2 (List.cons_ne_nil d s))
    rw [lines]
    · rcases later with ⟨eq, rfl⟩ | eq
      · rw [eq]
      · rw [eq]
    · rintro tail rfl rfl
      exact feed.2 List.mem_cons_self
    · exact fun same => feed.1 same.symm

/-- Line by line: what holds of texts without line feeds, and of every line in front of a text of
which it holds, holds of all texts. -/
theorem line_induction {motive : List Char → Prop} (last : ∀ s, '\n' ∉ s → motive s)
    (line : ∀ s rest, '\n' ∉ s → motive rest → motive (s ++ '\n' :: rest)) (s : List Char) :
    motive s := by
  by_cases feed : '\n' ∈ s
  · obtain ⟨front, rest, eq, plain⟩ := List.eq_append_cons_of_mem feed
    have shorter : rest.length < s.length := by
      rw [eq, List.length_append, List.length_cons]
      omega
    rw [eq]
    exact line front rest plain (line_induction last line rest)
  · exact last s feed
termination_by s.length

/-- A text that is followed by a line feed has one line more than line feeds. -/
theorem length_lines_append_newline (s : List Char) :
    (lines (s ++ ['\n'])).length = s.count '\n' + 1 := by
  induction s using line_induction with
  | last s plain =>
    obtain ⟨line, eq, -⟩ := exists_lines_append_newline plain []
    rw [eq, List.count_eq_zero_of_not_mem plain]
    rfl
  | line s rest plain ih =>
    obtain ⟨line, eq, -⟩ := exists_lines_append_newline plain (rest ++ ['\n'])
    rw [List.append_assoc, List.cons_append, eq, List.length_cons, ih, List.count_append,
      List.count_eq_zero_of_not_mem plain, List.count_cons_self, Nat.zero_add]

/-- No line contains a line feed. -/
theorem newline_not_mem_of_mem_lines {s line : List Char} (h : line ∈ lines s) : '\n' ∉ line := by
  fun_induction lines s generalizing line with
  | case1 => simp at h
  | case2 tail ih =>
    rcases List.mem_cons.1 h with rfl | h
    · simp
    · exact ih h
  | case3 tail ih =>
    rcases List.mem_cons.1 h with rfl | h
    · simp
    · exact ih h
  | case4 c tail notBreak notFeed eq ih =>
    simp only [List.mem_singleton] at h
    subst h
    simpa using fun hc : '\n' = c => notFeed hc.symm
  | case5 c tail notBreak notFeed first more eq ih =>
    rcases List.mem_cons.1 h with rfl | h
    · intro hm
      rcases List.mem_cons.1 hm with hc | hm
      · exact notFeed hc.symm
      · exact ih (by simp [eq]) hm
    · exact ih (by simp [eq, h])

end SceneAudit.Text
