import SceneAudit.Scene.File
import SceneAudit.Text.Word

/-!
# Inserting a property

A property whose value is quoted is opaque: however many lines its value spans and whatever stands
on them, reading a scene with such a property gives what reading the scene without it gives, except
that everything below is some lines further down. The section in which it is inserted stays open:
properties that follow it belong to the same node as before.

## Main definitions

* `Scene.propertyText`: a property with a quoted value.
* `Scene.IsPropertyKey`: the keys of properties.
* `Scene.shiftLine`, `SceneFile.renumber`: moving what stands below a line.

## Main results

* `Scene.entries_congr`: blanks at the ends of lines are of no consequence.
* `Scene.entries_lines_propertyText`: a property with a quoted value is a single entry.
* `SceneFile.ofEntries_map`: where the entries stand is seen in line numbers only.
* `SceneFile.ofEntries_insert`: an entry that attaches nothing is of no consequence.
* `SceneFile.read_insert`: a property with a quoted value only moves what is below it.
-/

namespace SceneAudit

open Text

namespace Scene

/-! ### Blanks at the ends of lines -/

theorem Entry.ofLine?_dropTrailingBlanks (line : List Char) :
    ofLine? (dropTrailingBlanks line) = ofLine? line := by
  obtain ⟨trail, eq, blank⟩ := exists_dropTrailingBlanks line
  have same : trim line = trim (dropTrailingBlanks line) :=
    (congrArg trim eq).trans (trim_append_blanks blank)
  rw [ofLine?, ofLine?, same]

theorem openAfter_dropTrailingBlanks (inside : Bool) (line : List Char) :
    Quoted.openAfter inside (dropTrailingBlanks line) = Quoted.openAfter inside line := by
  obtain ⟨trail, eq, blank⟩ := exists_dropTrailingBlanks line
  have plain : '"' ∉ trail := fun mem => absurd (blank _ mem) (by decide)
  exact ((congrArg _ eq).trans (Quoted.openAfter_append_of_no_quote inside _ plain)).symm

variable {front back : List (List Char)}

private theorem entries_map_dropTrailingBlanks (inside : Bool) (n : Nat)
    (lines : List (List Char)) :
    entries inside n (lines.map dropTrailingBlanks) = entries inside n lines := by
  fun_induction entries inside n lines with
  | case1 => rw [List.map_nil, entries]
  | case2 n line rest ih => rw [List.map_cons, entries, openAfter_dropTrailingBlanks, ih]
  | case3 n line rest entry ih =>
    rw [List.map_cons, entries, Entry.ofLine?_dropTrailingBlanks, ih]

private theorem openAfterLines_map_dropTrailingBlanks (inside : Bool) (lines : List (List Char)) :
    openAfterLines inside (lines.map dropTrailingBlanks) = openAfterLines inside lines := by
  fun_induction openAfterLines inside lines with
  | case1 => rw [List.map_nil, openAfterLines]
  | case2 line rest ih => rw [List.map_cons, openAfterLines, openAfter_dropTrailingBlanks, ih]
  | case3 line rest ih =>
    rw [List.map_cons, openAfterLines, Entry.ofLine?_dropTrailingBlanks, ih]

/-- Blanks at the ends of lines are of no consequence. -/
theorem entries_congr (same : front.map dropTrailingBlanks = back.map dropTrailingBlanks)
    (inside : Bool) (n : Nat) : entries inside n front = entries inside n back := by
  rw [← entries_map_dropTrailingBlanks, same, entries_map_dropTrailingBlanks]

theorem openAfterLines_congr (same : front.map dropTrailingBlanks = back.map dropTrailingBlanks)
    (inside : Bool) : openAfterLines inside front = openAfterLines inside back := by
  rw [← openAfterLines_map_dropTrailingBlanks, same, openAfterLines_map_dropTrailingBlanks]

/-- What stands before the first line feed is the first line, but for blanks at its end. -/
theorem map_dropTrailingBlanks_lines {s : List Char} (feed : '\n' ∉ s) (rest : List Char) :
    (lines (s ++ '\n' :: rest)).map dropTrailingBlanks =
      (s :: lines rest).map dropTrailingBlanks := by
  obtain ⟨line, eq, rfl | rfl⟩ := exists_lines_append_newline feed rest
  · rw [eq]
  · have carriage : ∀ c ∈ ['\r'], isBlank c = true := fun c mem => List.mem_singleton.1 mem ▸ rfl
    rw [eq, List.map_cons, List.map_cons, dropTrailingBlanks_append carriage]

/-! ### Closing the last line -/

/-- The text with a line feed at its end, unless a new line begins there anyway. -/
def closeLine (s : List Char) : List Char :=
  if EndsLine s then s else s ++ ['\n']

theorem endsLine_closeLine (s : List Char) : EndsLine (closeLine s) := by
  rw [closeLine]
  split
  · assumption
  · exact endsLine_append_newline s

/-- Closing the last line does not change the lines, but for blanks at the end. -/
theorem map_dropTrailingBlanks_closeLine (s : List Char) :
    (lines (closeLine s)).map dropTrailingBlanks = (lines s).map dropTrailingBlanks := by
  rw [closeLine]
  split
  · rfl
  · rename_i unclosed
    induction s using line_induction with
    | last s plain =>
      have nonempty : s ≠ [] := fun empty => unclosed (.inl empty)
      rw [map_dropTrailingBlanks_lines plain, lines_of_no_newline plain nonempty, lines]
    | line s rest plain ih =>
      have later : ¬ EndsLine rest := by
        intro closed
        have whole := (endsLine_append_newline s).append closed
        rw [List.append_assoc] at whole
        exact unclosed whole
      rw [List.append_assoc, List.cons_append, map_dropTrailingBlanks_lines plain,
        map_dropTrailingBlanks_lines plain, List.map_cons, List.map_cons, ih later]

/-! ### Properties with a quoted value -/

/-- A key of a property: word characters and slashes, the first of them no slash. -/
def IsPropertyKey (key : String) : Prop :=
  (∃ c ∈ key.toList.head?, isWord c = true) ∧ ∀ c ∈ key.toList, isWord c = true ∨ c = '/'

instance (key : String) : Decidable (IsPropertyKey key) :=
  decidable_of_iff
    (key.toList.head?.any isWord = true ∧ (key.toList.all fun c => isWord c || c == '/') = true)
    (by simp [IsPropertyKey, Option.any_eq_true])

/-- The line of a property up to the opening quotation mark of its value. -/
def propertyStart (key : String) : List Char :=
  key.toList ++ [' ', '=', ' ']

/-- A property with a quoted value, up to the end of its last line. -/
def propertyText (key value : String) : List Char :=
  propertyStart key ++ '"' :: (Quoted.encode value.toList ++ ['"', '\n'])

variable {key : String}

theorem IsPropertyKey.not_mem (named : IsPropertyKey key) {c : Char} (plain : isWord c = false)
    (slash : c ≠ '/') : c ∉ key.toList := by
  intro mem
  rcases named.2 c mem with word | same
  · exact absurd (word.symm.trans plain) (by decide)
  · exact slash same

theorem IsPropertyKey.not_mem_propertyStart (named : IsPropertyKey key) {c : Char}
    (plain : isWord c = false) (other : c ∉ ['/', ' ', '=']) : c ∉ propertyStart key := by
  simp only [List.mem_cons, List.not_mem_nil, or_false, not_or] at other
  simp [propertyStart, named.not_mem plain other.1, other]

/-- Only a `script` property whose value starts with the name of the constructor attaches a
resource. -/
theorem exists_of_attachedResource? {property : List Char} {identifier : String}
    (h : attachedResource? property = some identifier) :
    ∃ blanks rest value, property = "script".toList ++ (blanks ++ '=' :: rest) ∧
      (∀ c ∈ blanks, isBlank c = true) ∧ skipBlanks rest = "ExtResource(".toList ++ value := by
  simp only [attachedResource?, Option.bind_eq_bind, Option.bind_eq_some_iff] at h
  obtain ⟨afterKey, key, afterSign, sign, value, start, -⟩ := h
  rw [after?_eq_some_iff] at key sign start
  refine ⟨afterKey.takeWhile isBlank, afterSign, value, ?_, List.all_eq_true.1 List.all_takeWhile,
    start⟩
  rw [key, ← List.singleton_append, ← sign, skipBlanks, List.takeWhile_append_dropWhile]

/-- A property with a quoted value attaches nothing, even if its key is that of the script. -/
theorem attachedResource?_eq_none (named : IsPropertyKey key) (value : List Char) :
    attachedResource? (propertyStart key ++ '"' :: value) = none := by
  refine Option.eq_none_iff_forall_ne_some.2 fun identifier attached => ?_
  obtain ⟨blanks, rest, constructed, eq, blank, start⟩ := exists_of_attachedResource? attached
  -- Both sides of the equation are the same from their first equals sign on.
  have sign {front rest : List Char} (plain : '=' ∉ front) :
      (front ++ '=' :: rest).dropWhile (· != '=') = '=' :: rest := by
    rw [List.dropWhile_append_of_pos fun c mem => bne_iff_ne.2 (ne_of_mem_of_not_mem mem plain),
      List.dropWhile_cons_of_neg (by decide)]
  have before : '=' ∉ key.toList ++ [' '] := by
    simp [named.not_mem (c := '=') rfl (by decide)]
  have before' : '=' ∉ "script".toList ++ blanks := by
    rw [List.mem_append, not_or]
    exact ⟨by decide +kernel, fun mem => absurd (blank _ mem) (by decide)⟩
  have written : propertyStart key ++ '"' :: value =
      (key.toList ++ [' ']) ++ '=' :: (' ' :: '"' :: value) := by
    simp [propertyStart]
  have found : rest = ' ' :: '"' :: value := by
    have cut := congrArg (List.dropWhile (· != '=')) (written.symm.trans eq)
    rw [sign before, ← List.append_assoc, sign before', List.cons.injEq] at cut
    exact cut.2.symm
  have constructor : "ExtResource(".toList = 'E' :: "xtResource(".toList := by decide +kernel
  have mark : skipBlanks (' ' :: '"' :: value) = '"' :: value :=
    (skipBlanks_cons_of_blank rfl).trans (skipBlanks_cons_of_not_blank rfl)
  rw [found, mark, constructor, List.cons_append, List.cons.injEq] at start
  exact absurd start.1 (by decide)

/-- A line that does not start with a bracket is no header. -/
theorem Header.ofLine_of_head? {line : List Char} (other : (trim line).head? ≠ some '[') :
    Header.ofLine line = .ok none := by
  unfold ofLine
  split
  · rename_i eq
    rw [eq] at other
    exact absurd rfl other
  · rfl

/-- The first line of a property is an entry of its own. -/
theorem Entry.ofLine?_property (named : IsPropertyKey key) (value : List Char) :
    ofLine? (propertyStart key ++ '"' :: value) =
      some (.property (propertyStart key ++ '"' :: dropTrailingBlanks value)) := by
  obtain ⟨⟨c, head, word⟩, -⟩ := named
  have first : (propertyStart key).head? = some c := by
    rw [propertyStart, List.head?_append, head, Option.some_or]
  have trimmed (value : List Char) : trim (propertyStart key ++ '"' :: value) =
      propertyStart key ++ '"' :: dropTrailingBlanks value :=
    @trim_append_cons [] _ nofun ⟨c, first, isBlank_of_isWord word⟩ '"' rfl value
  have comment : c ≠ ';' := by
    rintro rfl
    contradiction
  have bracket : c ≠ '[' := by
    rintro rfl
    contradiction
  have none : Header.ofLine (propertyStart key ++ '"' :: dropTrailingBlanks value) = .ok none :=
    Header.ofLine_of_head? (by simp [trimmed, first, bracket])
  rw [ofLine?, trimmed]
  simp [first, comment, none]

/-- The first line of a property leaves a quotation open if its part of the value does not close
it. -/
private theorem Entry.leavesOpen_property (named : IsPropertyKey key) (value : List Char) :
    leavesOpen (ofLine? (propertyStart key ++ '"' :: value)) = Quoted.openAfter true value := by
  have plain : '"' ∉ propertyStart key := named.not_mem_propertyStart rfl (by decide)
  rw [ofLine?_property named, leavesOpen, Quoted.openAfter_false_append plain, Quoted.openAfter,
    Bool.not_false, openAfter_dropTrailingBlanks]

/-- The rest of a quoted value is passed over, and its quotation mark closes the quotation. -/
theorem entries_lines_encode (value : List Char) :
    openAfterLines true (lines (Quoted.encode value ++ ['"', '\n'])) = false ∧
      ∀ n, entries true n (lines (Quoted.encode value ++ ['"', '\n'])) = [] := by
  induction value using line_induction with
  | last s plain =>
    have feed : '\n' ∉ Quoted.encode s ++ ['"'] := by
      simp [Quoted.mem_encode, plain]
    have written : Quoted.encode s ++ ['"', '\n'] = Quoted.encode s ++ ['"'] ++ '\n' :: [] := by
      simp
    rw [written]
    constructor
    · rw [openAfterLines_congr (map_dropTrailingBlanks_lines feed []), openAfterLines,
        Quoted.openAfter_encode_append]
      rfl
    · intro n
      rw [entries_congr (map_dropTrailingBlanks_lines feed []), entries]
      rfl
  | line s rest plain ih =>
    have feed : '\n' ∉ Quoted.encode s := by
      rwa [Quoted.mem_encode (by decide)]
    have written : Quoted.encode (s ++ '\n' :: rest) ++ ['"', '\n'] =
        Quoted.encode s ++ '\n' :: (Quoted.encode rest ++ ['"', '\n']) := by
      simp [Quoted.encode_append, Quoted.encode_cons]
    rw [written]
    constructor
    · rw [openAfterLines_congr (map_dropTrailingBlanks_lines feed _), openAfterLines,
        Quoted.openAfter_encode, ih.1]
    · intro n
      rw [entries_congr (map_dropTrailingBlanks_lines feed _), entries, Quoted.openAfter_encode,
        ih.2]

/-- **A property with a quoted value is a single entry**, which attaches nothing, and no quotation
is open after it. -/
theorem entries_lines_propertyText (named : IsPropertyKey key) (value : String) :
    openAfterLines false (lines (propertyText key value)) = false ∧
      ∃ text, attachedResource? text = none ∧
        ∀ n, entries false n (lines (propertyText key value)) = [(n, .property text)] := by
  -- What is left of the value behind its first line, and what stands on that line.
  obtain ⟨first, rest, written, plain, opened, remaining⟩ :
      ∃ first rest, propertyText key value = propertyStart key ++ '"' :: first ++ '\n' :: rest ∧
        '\n' ∉ first ∧ openAfterLines (Quoted.openAfter true first) (lines rest) = false ∧
        ∀ n, entries (Quoted.openAfter true first) n (lines rest) = [] := by
    by_cases feed : '\n' ∈ value.toList
    · obtain ⟨front, back, eq, plain⟩ := List.eq_append_cons_of_mem feed
      obtain ⟨closed, passed⟩ := entries_lines_encode back
      refine ⟨Quoted.encode front, Quoted.encode back ++ ['"', '\n'], ?_, ?_, ?_, ?_⟩
      · simp [propertyText, eq, Quoted.encode_append, Quoted.encode_cons]
      · rwa [Quoted.mem_encode (by decide)]
      · rw [Quoted.openAfter_encode, closed]
      · intro n
        rw [Quoted.openAfter_encode, passed]
    · have closes : Quoted.openAfter true (Quoted.encode value.toList ++ ['"']) = false := by
        rw [Quoted.openAfter_encode_append]
        rfl
      refine ⟨Quoted.encode value.toList ++ ['"'], [], ?_, ?_, ?_, ?_⟩
      · simp [propertyText]
      · simp [Quoted.mem_encode, feed]
      · rw [closes, lines, openAfterLines]
      · intro n
        rw [lines, entries]
  have start : '\n' ∉ propertyStart key ++ '"' :: first := by
    simp [named.not_mem_propertyStart (c := '\n') rfl (by decide), plain]
  have line := map_dropTrailingBlanks_lines start rest
  rw [written]
  refine ⟨?_, propertyStart key ++ '"' :: dropTrailingBlanks first,
    attachedResource?_eq_none named _, fun n => ?_⟩
  · rw [openAfterLines_congr line, openAfterLines, Entry.leavesOpen_property named, opened]
  · rw [entries_congr line, entries, Entry.leavesOpen_property named, remaining,
      Entry.ofLine?_property named]
    rfl

/-- A property takes one line more than its value has line feeds. -/
private theorem length_lines_propertyText (named : IsPropertyKey key) (value : String) :
    (lines (propertyText key value)).length = value.toList.count '\n' + 1 := by
  have start : '\n' ∉ propertyStart key := named.not_mem_propertyStart rfl (by decide)
  have written : propertyText key value =
      propertyStart key ++ '"' :: (Quoted.encode value.toList ++ ['"']) ++ ['\n'] := by
    simp [propertyText]
  rw [written, length_lines_append_newline, List.count_append, List.count_eq_zero_of_not_mem start,
    List.count_cons_of_ne (by decide), List.count_append, Quoted.count_encode (by decide)]
  simp

private theorem endsLine_propertyText (key value : String) : EndsLine (propertyText key value) := by
  have last := endsLine_append_newline
    (propertyStart key ++ '"' :: (Quoted.encode value.toList ++ ['"']))
  simpa [propertyText] using last

/-! ### Numbers of lines -/

/-- The entries of lines that are counted from further on. -/
theorem entries_add (inside : Bool) (n k : Nat) (lines : List (List Char)) :
    entries inside (n + k) lines = (entries inside n lines).map (Prod.map (· + k) id) := by
  induction lines generalizing inside n with
  | nil => rw [entries, entries, List.map_nil]
  | cons line rest ih =>
    have next : n + k + 1 = n + 1 + k := by omega
    cases inside with
    | true => rw [entries, entries, next, ih]
    | false =>
      rw [entries, entries, next, ih, List.map_append]
      cases Entry.ofLine? line <;> rfl

/-- The entries of some lines have the numbers of these lines. -/
theorem bounds_of_mem_entries {inside : Bool} {n : Nat} {lines : List (List Char)}
    {numbered : Nat × Entry} (h : numbered ∈ entries inside n lines) :
    n ≤ numbered.1 ∧ numbered.1 < n + lines.length := by
  fun_induction entries inside n lines with
  | case1 => contradiction
  | case2 n line rest ih =>
    have later := ih h
    rw [List.length_cons]
    omega
  | case3 n line rest entry ih =>
    rw [List.length_cons]
    rcases List.mem_append.1 h with here | later
    · obtain ⟨found, -, rfl⟩ := Option.map_eq_some_iff.1 (Option.mem_toList.1 here)
      exact ⟨Nat.le_refl n, by omega⟩
    · have := ih later
      omega

/-- The line to which a line moves if `count` lines are inserted behind line `last`. -/
def shiftLine (last count n : Nat) : Nat :=
  if n ≤ last then n else n + count

/-- The entries of a text in two pieces, of which those of the second piece stand further down. -/
theorem map_shiftLine_entries {front back : List (List Char)} (count : Nat)
    (closed : openAfterLines false front = false) :
    (entries false 1 (front ++ back)).map (Prod.map (shiftLine front.length count) id) =
      entries false 1 front ++ entries false (1 + front.length + count) back := by
  rw [entries_append, closed, List.map_append, entries_add false (1 + front.length) count]
  congr 1
  · refine (List.map_congr_left fun numbered mem => ?_).trans (List.map_id _)
    have bounds := bounds_of_mem_entries mem
    have stays : shiftLine front.length count numbered.1 = numbered.1 := if_pos (by omega)
    rw [Prod.map, stays]
    rfl
  · refine List.map_congr_left fun numbered mem => ?_
    have bounds := bounds_of_mem_entries mem
    have moves : shiftLine front.length count numbered.1 = numbered.1 + count := if_neg (by omega)
    rw [Prod.map, moves]
    rfl

namespace NodeRecord

/-- The node with its line moved. -/
def renumber (move : Nat → Nat) (record : NodeRecord) : NodeRecord :=
  { record with line := move record.line }

private theorem ofHeader?_renumber (move : Nat → Nat) (header : Header) (n : Nat) :
    ofHeader? header (move n) = (ofHeader? header n).map (renumber move) := by
  unfold ofHeader?
  split
  · rfl
  · split <;> rfl

end NodeRecord

/-- The issue with its line moved. -/
def Issue.renumber (move : Nat → Nat) (issue : Issue) : Issue :=
  { issue with line := move issue.line }

namespace Declaration

/-- The declaration with its line moved. -/
def renumber (move : Nat → Nat) : Declaration → Declaration
  | node record resource => node (record.renumber move) resource
  | broken line fault => broken (move line) fault
  | unnamed line => unnamed (move line)

variable (move : Nat → Nat) (resources : List (String × String))

private theorem record?_renumber (declaration : Declaration) :
    (declaration.renumber move).record? resources =
      (declaration.record? resources).map (NodeRecord.renumber move) := by
  cases declaration <;> rfl

private theorem issue?_renumber (declaration : Declaration) :
    (declaration.renumber move).issue? resources =
      (declaration.issue? resources).map (Issue.renumber move) := by
  cases declaration with
  | node record resource =>
    cases resource with
    | none => rfl
    | some identifier =>
      rw [renumber, issue?, issue?]
      cases resourcePath? resources identifier <;> rfl
  | broken line fault => rfl
  | unnamed line => rfl

end Declaration

variable (move : Nat → Nat) (numbered : List (Nat × Entry))

private theorem sectionResource?_map :
    sectionResource? (numbered.map (Prod.map move id)) = sectionResource? numbered := by
  induction numbered with
  | nil => rfl
  | cons head rest ih =>
    obtain ⟨n, entry⟩ := head
    cases entry with
    | property text => simp only [List.map_cons, Prod.map, id, sectionResource?, ih]
    | opening header => rfl
    | broken fault => rfl

private theorem resources_map :
    resources (numbered.map (Prod.map move id)) = resources numbered := by
  rw [resources, resources, List.filterMap_map]
  rfl

private theorem declarations_map :
    declarations (numbered.map (Prod.map move id)) =
      (declarations numbered).map (Declaration.renumber move) := by
  induction numbered with
  | nil => rfl
  | cons head rest ih =>
    obtain ⟨n, entry⟩ := head
    cases entry with
    | property text => exact ih
    | broken fault => exact congrArg (_ :: ·) ih
    | opening header =>
      simp only [List.map_cons, Prod.map, id, declarations, NodeRecord.ofHeader?_renumber, ih]
      split
      · cases NodeRecord.ofHeader? header n with
        | none => rfl
        | some record =>
          simp only [Option.map_some, sectionResource?_map, List.map_cons, Declaration.renumber]
      · rfl

variable {numbered} {text : List Char}

private theorem sectionResource?_insert (nothing : attachedResource? text = none) (n : Nat)
    (front back : List (Nat × Entry)) :
    sectionResource? (front ++ (n, .property text) :: back) = sectionResource? (front ++ back) := by
  induction front with
  | nil => rw [List.nil_append, List.nil_append, sectionResource?, nothing, Option.or_none]
  | cons head rest ih =>
    obtain ⟨m, entry⟩ := head
    cases entry with
    | property other => simp only [List.cons_append, sectionResource?, ih]
    | opening header => rfl
    | broken fault => rfl

private theorem declarations_insert (nothing : attachedResource? text = none) (n : Nat)
    (front back : List (Nat × Entry)) :
    declarations (front ++ (n, .property text) :: back) = declarations (front ++ back) := by
  induction front with
  | nil => rfl
  | cons head rest ih =>
    obtain ⟨m, entry⟩ := head
    cases entry with
    | property other => exact ih
    | opening header =>
      simp only [List.cons_append, declarations, sectionResource?_insert nothing, ih]
    | broken fault => exact congrArg (_ :: ·) ih

end Scene

namespace SceneFile

open Scene

/-- What is declared, with all lines moved. -/
def renumber (move : Nat → Nat) (file : SceneFile) : SceneFile where
  records := file.records.map (NodeRecord.renumber move)
  issues := file.issues.map (Issue.renumber move)

/-- Where the entries stand is seen in line numbers only. -/
theorem ofEntries_map (move : Nat → Nat) (numbered : List (Nat × Entry)) :
    ofEntries (numbered.map (Prod.map move id)) = (ofEntries numbered).renumber move := by
  rw [ofEntries, ofEntries, renumber, mk.injEq, declarations_map, resources_map]
  constructor
  · rw [List.filterMap_map, List.map_filterMap]
    exact congrArg (List.filterMap · _) (funext (Declaration.record?_renumber move _))
  · rw [List.filterMap_map, List.map_filterMap]
    exact congrArg (List.filterMap · _) (funext (Declaration.issue?_renumber move _))

/-- A property that attaches nothing is of no consequence. -/
theorem ofEntries_insert {text : List Char} (nothing : attachedResource? text = none) (n : Nat)
    (front back : List (Nat × Entry)) :
    ofEntries (front ++ (n, .property text) :: back) = ofEntries (front ++ back) := by
  have same : resources (front ++ (n, .property text) :: back) = resources (front ++ back) := by
    simp [resources, Entry.resource?]
  rw [ofEntries, ofEntries, declarations_insert nothing, same]

/-- **A property with a quoted value is opaque.** It is inserted between two lines of a text, or
behind its last line, at a place where no quotation is open. Its value is any text at all and may
span several lines. Then the same nodes with the same scripts are read, and the same issues, as
without it, those behind the place as many lines further down as the property takes. As this is so
for any text that follows, its section stays open: a script attached in the next line still
belongs to the node above. -/
theorem read_insert {front back : List Char} {key : String}
    (boundary : EndsLine front ∨ back = [])
    (closed : openAfterLines false (lines front) = false) (named : IsPropertyKey key)
    (value : String) :
    read (String.ofList (closeLine front ++ propertyText key value ++ back)) =
      (read (String.ofList (front ++ back))).renumber
        (shiftLine (lines front).length (value.toList.count '\n' + 1)) := by
  have whole : lines (front ++ back) = lines front ++ lines back := by
    rcases boundary with ends | rfl
    · exact ends.lines_append back
    · rw [List.append_nil, lines, List.append_nil]
  have front' := map_dropTrailingBlanks_closeLine front
  have length : (lines (closeLine front)).length = (lines front).length := by
    simpa only [List.length_map] using congrArg List.length front'
  obtain ⟨closed', text, nothing, property⟩ := entries_lines_propertyText named value
  rw [read, read, String.toList_ofList, String.toList_ofList, whole, ← ofEntries_map,
    map_shiftLine_entries _ closed, List.append_assoc, (endsLine_closeLine front).lines_append,
    (endsLine_propertyText key value).lines_append, entries_append, entries_append,
    openAfterLines_congr front', closed, closed', entries_congr front', property, length,
    length_lines_propertyText named, List.singleton_append, ofEntries_insert nothing]

/-- A text on three lines, of which one looks like a node and one like its script, is given to a
node in front of its script. -/
theorem read_insert_credits :
    let front := "[node name=Credits]\n".toList
    let back := "script = ExtResource(1)\n[ext_resource id=1 path=a.gd]\n[node name=B]\n".toList
    let value := "Thanks to \"you\" \\\n[node name=\"Nobody\"]\nscript = ExtResource(\"2\")"
    (EndsLine front ∧ openAfterLines false (lines front) = false ∧ IsPropertyKey "bbcode/text") ∧
      read (String.ofList (closeLine front ++ propertyText "bbcode/text" value ++ back)) =
        { records := [⟨"Credits", none, .absent, some "a.gd", 1⟩, ⟨"B", none, .absent, none, 7⟩]
          issues := [] } := by
  intro front back value
  have ends : EndsLine front := by decide +kernel
  have closed : openAfterLines false (lines front) = false := by decide +kernel
  have named : IsPropertyKey "bbcode/text" := by decide +kernel
  refine ⟨⟨ends, closed, named⟩, ?_⟩
  rw [read_insert (.inl ends) closed named value]
  decide +kernel

end SceneFile

end SceneAudit
