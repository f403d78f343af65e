import SceneAudit.Proofs.Script.Binding

/-!
# Replacing the path of a reference

A suggestion is followed by an edit of one line: the path behind the first path sign of the line
gives way to another text, and the rest of the script stays as it is, line breaks included. What the
edited script refers to is what the script referred to before, except that the one reference now
has the node path that is read from the new text, or is gone if that text starts with none.

## Main definitions

* `Script.IsPassedOver`: a line is blank or a comment.
* `Script.replacePath`: a line with another text in place of its node path.
* `Script.changeLine`: a text with one of its lines changed.
* `Script.Reference.replaceIn`: a script with another text in place of the path of a reference.

## Main results

* `Script.referencesFrom_lines`: the references of a text, line by line.
* `Script.ofLine?_trim_replacePath`: the binding on a line whose path is replaced.
* `Script.exists_references_replaceIn`: the references of a script after one path is replaced.
-/

namespace SceneAudit.Script

open Text

/-! ### Edits -/

/-- The line with `new` in place of the `length` characters behind its first path sign. -/
def replacePath (length : Nat) (new line : List Char) : List Char :=
  line.takeWhile (· != pathSign) ++
    pathSign :: (new ++ (line.dropWhile (· != pathSign)).drop (length + 1))

/-- The text up to its first line feed. -/
def firstLine (s : List Char) : List Char :=
  s.takeWhile (· != '\n')

/-- The text after its first line feed. -/
def laterLines (s : List Char) : List Char :=
  (s.dropWhile (· != '\n')).drop 1

/-- The text with what stands behind its first `n` line feeds, up to the next one, changed. -/
def changeLine (f : List Char → List Char) : Nat → List Char → List Char
  | 0, s => f (firstLine s) ++ s.dropWhile (· != '\n')
  | n + 1, s =>
    firstLine s ++
      match s.dropWhile (· != '\n') with
      | [] => []
      | c :: rest => c :: changeLine f n rest

/-- The reference with another path. -/
def Reference.withPath (reference : Reference) (path : List Char) : Reference :=
  { reference with path := String.ofList path }

/-- The script with `new` in place of the path of the reference. -/
def Reference.replaceIn (reference : Reference) (new code : String) : String :=
  String.ofList <|
    changeLine (replacePath reference.path.length new.toList) (reference.line - 1) code.toList

/-! ### References line by line -/

/-- The reference that a binding on line `n` makes, if the lines before leave a mark or not. -/
def Binding.reference (binding : Binding) (marked : Bool) (n : Nat) : Reference where
  line := n
  variableName := binding.variableName
  path := binding.path
  cached := marked || binding.marked

/-- Whether a cache mark waits for its declaration after a line, blanks at its ends removed. -/
def marksNext (marked : Bool) (text : List Char) : Bool :=
  if text = [] || text.head? = some '#' then marked else text = cacheMark.toList

/-- A declaration starts with the mark or with `var`. -/
theorem Binding.head?_of_declared? {s rest : List Char} {marked : Bool} {variableName : String}
    (h : declared? s = some (marked, variableName, rest)) : ∃ c ∈ s.head?, c = '@' ∨ c = 'v' := by
  obtain ⟨⟨name, afterName⟩, named, -⟩ := Option.bind_eq_some_iff.1 h
  cases mark : afterMark? s with
  | some found =>
    obtain ⟨afterSign, sign, -⟩ := Option.bind_eq_some_iff.1 mark
    rw [after?_eq_some_iff.1 sign]
    exact ⟨'@', rfl, .inl rfl⟩
  | none =>
    rw [mark, Option.getD_none] at named
    obtain ⟨afterVar, var, -⟩ := Option.bind_eq_some_iff.1 named
    rw [after?_eq_some_iff.1 var]
    exact ⟨'v', rfl, .inr rfl⟩

private theorem Binding.head?_of_ofLine? {s : List Char} {binding : Binding}
    (h : ofLine? s = some binding) : ∃ c ∈ s.head?, c = '@' ∨ c = 'v' := by
  rw [ofLine?_eq] at h
  obtain ⟨⟨_, _, _⟩, declared, -⟩ := Option.bind_eq_some_iff.1 h
  exact head?_of_declared? declared

/-- A blank line or a comment, blanks at its ends removed. -/
def IsPassedOver (text : List Char) : Prop :=
  text = [] ∨ text.head? = some '#'

theorem isPassedOver_iff {text : List Char} :
    (text = [] || text.head? = some '#') = true ↔ IsPassedOver text := by
  rw [Bool.or_eq_true, decide_eq_true_eq, decide_eq_true_eq]
  rfl

/-- There is no binding on a line that is passed over. -/
theorem Binding.not_isPassedOver {text : List Char} {binding : Binding}
    (h : ofLine? text = some binding) : ¬IsPassedOver text := by
  obtain ⟨c, head, start⟩ := head?_of_ofLine? h
  rintro (rfl | comment)
  · contradiction
  · obtain rfl : '#' = c := Option.some.inj (comment.symm.trans head)
    exact absurd start (by decide)

theorem referencesFrom_cons (marked : Bool) (n : Nat) (line : List Char)
    (rest : List (List Char)) :
    referencesFrom marked n (line :: rest) =
      ((Binding.ofLine? (trim line)).map (Binding.reference · marked n)).toList ++
        referencesFrom (marksNext marked (trim line)) (n + 1) rest := by
  have silent {text : List Char} (h : (text = [] || text.head? = some '#') = true) :
      Binding.ofLine? text = none :=
    Option.eq_none_iff_forall_ne_some.2 fun _ found =>
      Binding.not_isPassedOver found (isPassedOver_iff.1 h)
  rw [referencesFrom, marksNext]
  split
  · rename_i quiet
    rw [silent quiet]
    rfl
  · split
    · rename_i mark
      rw [mark]
      rfl
    · rename_i plain
      rw [decide_eq_false plain]
      rfl

private theorem newline_not_mem_firstLine (s : List Char) : '\n' ∉ firstLine s := fun mem => by
  simpa using List.all_eq_true.1 List.all_takeWhile _ mem

section Lines

variable {front : List Char} (feed : '\n' ∉ front) (rest : List Char)

include feed

theorem firstLine_eq_self : firstLine front = front := by
  rw [firstLine, ← List.append_nil front,
    List.takeWhile_append_of_pos (bne_of_not_mem feed), List.takeWhile_nil]

theorem dropWhile_eq_nil : front.dropWhile (· != '\n') = [] := by
  rw [← List.append_nil front,
    List.dropWhile_append_of_pos (bne_of_not_mem feed), List.dropWhile_nil]

theorem firstLine_append_newline : firstLine (front ++ '\n' :: rest) = front := by
  rw [firstLine, takeWhile_append_cons (by decide), ← firstLine, firstLine_eq_self feed]

theorem dropWhile_append_newline :
    (front ++ '\n' :: rest).dropWhile (· != '\n') = '\n' :: rest := by
  rw [dropWhile_append_cons (by decide), dropWhile_eq_nil feed, List.nil_append]

theorem laterLines_append_newline : laterLines (front ++ '\n' :: rest) = rest := by
  rw [laterLines, dropWhile_append_newline feed, List.drop_one, List.tail_cons]

end Lines

/-- The references of a text, line by line. Should a carriage return stand at the end of its first
line, it is blank. -/
theorem referencesFrom_lines (marked : Bool) (n : Nat) (s : List Char) :
    referencesFrom marked n (lines s) =
      ((Binding.ofLine? (trim (firstLine s))).map (Binding.reference · marked n)).toList ++
        referencesFrom (marksNext marked (trim (firstLine s))) (n + 1)
          (lines (laterLines s)) := by
  by_cases breaks : '\n' ∈ s
  · obtain ⟨front, rest, rfl, feed⟩ := List.eq_append_cons_of_mem breaks
    obtain ⟨line, eq, ends⟩ := exists_lines_append_newline feed rest
    have same : trim front = trim line := by
      rcases ends with rfl | rfl
      · rfl
      · exact trim_append_blanks (List.forall_mem_singleton.2 rfl)
    rw [firstLine_append_newline feed, laterLines_append_newline feed, eq, referencesFrom_cons,
      same]
  · have last : laterLines s = [] := by rw [laterLines, dropWhile_eq_nil breaks, List.drop_nil]
    rw [firstLine_eq_self breaks, last]
    cases s with
    | nil => rfl
    | cons c s => rw [lines_of_no_newline breaks (List.cons_ne_nil c s), referencesFrom_cons]; rfl

/-! ### Replacing on a line -/

private theorem replacePath_append {front : List Char} (fresh : pathSign ∉ front)
    (old new rest : List Char) :
    replacePath old.length new (front ++ pathSign :: (old ++ rest)) =
      front ++ pathSign :: (new ++ rest) := by
  have others := bne_of_not_mem fresh
  rw [replacePath, List.takeWhile_append_of_pos others, List.dropWhile_append_of_pos others]
  simp

/-- After a line with a declaration no cache mark waits. -/
theorem marksNext_of_declared {front : List Char} {variableName : String} {own : Bool}
    (declared : Binding.declared? front = some (own, variableName, [])) (marked : Bool)
    (rest : List Char) : marksNext marked (front ++ pathSign :: rest) = false := by
  obtain ⟨c, head, start⟩ := Binding.head?_of_declared? declared
  obtain ⟨tail, rfl⟩ := List.head?_eq_some_iff.1 head
  have comment : c ≠ '#' := by
    rintro rfl
    exact absurd start (by decide)
  have mark : c :: tail ++ pathSign :: rest ≠ cacheMark.toList := fun same => by
    have sign : pathSign ∈ cacheMark.toList := same ▸ List.mem_append_cons_self
    exact absurd sign (by decide)
  rw [marksNext, if_neg (by simp [comment]), decide_eq_false mark]

/-- On a line with a binding, what is read in front of the path stays as it is, and the path is the
one that is read from the new text. -/
theorem ofLine?_trim_replacePath (new : List Char) {line : List Char} {binding : Binding}
    (h : Binding.ofLine? (trim line) = some binding) :
    Binding.ofLine? (trim (replacePath binding.path.length new line)) =
        (nodePath? new).map (fun path => { binding with path := String.ofList path }) ∧
      ∀ marked, marksNext marked (trim line) = false ∧
        marksNext marked (trim (replacePath binding.path.length new line)) = false := by
  obtain ⟨lead, front, tail, rest, eq, text, blankLead, fresh, stop, declared⟩ :=
    Binding.exists_of_ofLine?_trim h
  have edited : replacePath binding.path.length new line =
      lead ++ (front ++ pathSign :: (new ++ rest)) := by
    conv => lhs; rw [eq, ← String.length_toList]
    rw [replacePath_append fresh, List.append_assoc]
  have start : ∃ c ∈ front.head?, isBlank c = false := by
    obtain ⟨c, head, rfl | rfl⟩ := Binding.head?_of_declared? declared
    · exact ⟨'@', head, by decide +kernel⟩
    · exact ⟨'v', head, by decide +kernel⟩
  have trimmed : trim (replacePath binding.path.length new line) =
      front ++ pathSign :: dropTrailingBlanks (new ++ rest) := by
    rw [edited, trim_append_cons blankLead start Binding.isBlank_pathSign]
  have path : nodePath? (dropTrailingBlanks (new ++ rest)) = nodePath? new := by
    refine nodePath?_congr ?_
    rw [takePath_dropTrailingBlanks, takePath_append stop]
  refine ⟨?_, fun marked => ⟨?_, ?_⟩⟩
  · rw [trimmed, Binding.ofLine?_append_sign _ _ declared, path]
  · rw [text, marksNext_of_declared declared]
  · rw [trimmed, marksNext_of_declared declared]

/-! ### Replacing in a script -/

private theorem newline_not_mem_replacePath (length : Nat) {new line : List Char}
    (feed : '\n' ∉ new) (inside : '\n' ∉ line) : '\n' ∉ replacePath length new line := by
  rw [replacePath, List.mem_append, List.mem_cons, List.mem_append]
  rintro (before | sign | changed | after)
  · exact inside (List.takeWhile_subset _ before)
  · exact absurd sign (by decide)
  · exact feed changed
  · exact inside ((List.dropWhile_suffix _).subset (List.mem_of_mem_drop after))

section ChangeLine

variable {f : List Char → List Char} {k : Nat} {s : List Char}

/-- Changing the first line leaves the others alone. -/
theorem lines_changeLine_zero (feed : '\n' ∉ f (firstLine s)) :
    firstLine (changeLine f 0 s) = f (firstLine s) ∧
      laterLines (changeLine f 0 s) = laterLines s := by
  by_cases breaks : '\n' ∈ s
  · obtain ⟨front, rest, rfl, fresh⟩ := List.eq_append_cons_of_mem breaks
    rw [changeLine, dropWhile_append_newline fresh, firstLine_append_newline feed,
      laterLines_append_newline feed, laterLines_append_newline fresh]
    exact ⟨rfl, rfl⟩
  · rw [changeLine, dropWhile_eq_nil breaks, List.append_nil, firstLine_eq_self feed, laterLines,
      laterLines, dropWhile_eq_nil feed, dropWhile_eq_nil breaks]
    exact ⟨rfl, rfl⟩

/-- Changing a later line leaves the first one alone. -/
private theorem lines_changeLine_succ (breaks : '\n' ∈ s) :
    firstLine (changeLine f (k + 1) s) = firstLine s ∧
      laterLines (changeLine f (k + 1) s) = changeLine f k (laterLines s) := by
  obtain ⟨front, rest, rfl, fresh⟩ := List.eq_append_cons_of_mem breaks
  rw [changeLine, dropWhile_append_newline fresh, firstLine_append_newline fresh,
    laterLines_append_newline fresh rest]
  exact ⟨firstLine_append_newline fresh _, laterLines_append_newline fresh _⟩

end ChangeLine

private theorem exists_referencesFrom_changeLine {reference : Reference} {new : List Char}
    (feed : '\n' ∉ new) {marked : Bool} {n k : Nat} {s : List Char}
    (mem : reference ∈ referencesFrom marked n (lines s)) (line : reference.line = n + k) :
    ∃ front back, referencesFrom marked n (lines s) = front ++ reference :: back ∧
      referencesFrom marked n
          (lines (changeLine (replacePath reference.path.length new) k s)) =
        front ++ (((nodePath? new).map reference.withPath).toList ++ back) := by
  induction k generalizing marked n s with
  | zero =>
    rw [referencesFrom_lines, List.mem_append] at mem
    rcases mem with here | later
    · rw [Option.mem_toList, Option.map_eq_some_iff] at here
      obtain ⟨binding, found, rfl⟩ := here
      obtain ⟨read, next⟩ := ofLine?_trim_replacePath new found
      have kept := newline_not_mem_replacePath binding.path.length feed
        (newline_not_mem_firstLine s)
      obtain ⟨first, others⟩ := lines_changeLine_zero kept
      refine ⟨[], referencesFrom false (n + 1) (lines (laterLines s)), ?_, ?_⟩
      · rw [referencesFrom_lines, found, (next marked).1]
        rfl
      · change referencesFrom marked n
          (lines (changeLine (replacePath binding.path.length new) 0 s)) = _
        rw [referencesFrom_lines, first, others, read, (next marked).2, Option.map_map]
        rfl
    · have after := le_line_of_mem_referencesFrom later
      omega
  | succ k ih =>
    rw [referencesFrom_lines, List.mem_append] at mem
    rcases mem with here | later
    · rw [Option.mem_toList, Option.map_eq_some_iff] at here
      obtain ⟨binding, -, rfl⟩ := here
      rw [Binding.reference] at line
      dsimp only at line
      omega
    · by_cases breaks : '\n' ∈ s
      · obtain ⟨front, back, before, after⟩ := ih later (by omega)
        obtain ⟨first, others⟩ := lines_changeLine_succ breaks
        refine ⟨((Binding.ofLine? (trim (firstLine s))).map
          (Binding.reference · marked n)).toList ++ front, back, ?_, ?_⟩
        · rw [referencesFrom_lines, before, ← List.append_assoc]
        · rw [referencesFrom_lines, first, others, after, ← List.append_assoc]
      · rw [laterLines, dropWhile_eq_nil breaks] at later
        contradiction

/-- **One path is replaced and nothing else changes.** The references of a script after the path of
one of them is replaced are the same but for this one, which has the node path that is read from
the new text. It is gone if the new text starts with none. -/
theorem exists_references_replaceIn {reference : Reference} {new code : String}
    (feed : '\n' ∉ new.toList) (mem : reference ∈ references code) :
    ∃ front back, references code = front ++ reference :: back ∧
      references (reference.replaceIn new code) =
        front ++ (((nodePath? new.toList).map reference.withPath).toList ++ back) := by
  have first := le_line_of_mem_referencesFrom mem
  have line : reference.line = 1 + (reference.line - 1) := by omega
  have text : (reference.replaceIn new code).toList =
      changeLine (replacePath reference.path.length new.toList) (reference.line - 1)
        code.toList := by
    rw [Reference.replaceIn, String.toList_ofList]
  rw [references, references, text]
  exact exists_referencesFrom_changeLine feed mem line

end SceneAudit.Script
