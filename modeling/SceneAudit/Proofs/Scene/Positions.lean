import SceneAudit.Proofs.Scene.Insertion

/-!
# What stands at a position of a scene

The entries of a scene are those of its lines, position by position, and so are its declarations:
a position declares something if its line stands outside of quotations and is a header or fails to
be one. What a node attaches depends on the positions behind it, so what is read from a position on
is described from the last line up.

Positions are counted from zero and lines from one, so that the line at position `i` is line
`i + 1`.

## Main definitions

* `Scene.IsOutside`: a position at which no quotation is open.
* `Scene.ReadsAt`: the outcome of reading the line at a position as a header.
* `Scene.entryAt?`, `Scene.declarationAt?`: what the line at a position says and declares.
* `Scene.Entry.declaration?`: what an entry declares.
* `Scene.entriesFrom`: the entries from a position on.

## Main results

* `Scene.entryAt?_eq_opening_iff`, `Scene.entryAt?_eq_broken_iff`: the headers and the faults.
* `Scene.position_induction`: induction from the last line up.
* `Scene.collect_eq_filterMap`: what is collected from the entries of a scene, position by position.
* `Scene.declarations_eq_filterMap`: the declarations of a scene, position by position.
* `Scene.pairwise_line_declarations`: they stand on different lines, in the order of the lines.
-/

namespace SceneAudit.Scene

open Text

variable {header : Header} {fault : HeaderFault}

/-! ### What a line says -/

section

variable {line text : List Char}

private theorem Header.ofLine_trim (line : List Char) :
    Header.ofLine (trim line) = Header.ofLine line := by
  rw [ofLine, ofLine, trim_trim]

/-- A blank line or a comment. -/
def SaysNothing (line : List Char) : Prop :=
  trim line = [] ∨ (trim line).head? = some ';'

instance (line : List Char) : Decidable (SaysNothing line) :=
  inferInstanceAs (Decidable (_ ∨ _))

namespace Entry

/-- What a line says is decided by its header, except for a line that is blank or a comment. -/
theorem ofLine?_eq (line : List Char) :
    ofLine? line =
      match Header.ofLine line with
      | .ok (some header) => some (.opening header)
      | .ok none => if SaysNothing line then none else some (.property (trim line))
      | .error fault => some (.broken fault) := by
  rw [ofLine?, Header.ofLine_trim]
  by_cases nothing : SaysNothing line
  · have none : Header.ofLine line = .ok none := by
      refine Header.ofLine_of_head? ?_
      rcases nothing with empty | comment
      · rw [empty]
        decide
      · rw [comment]
        decide
    rw [none]
    simp only [nothing, ↓reduceIte]
    rw [SaysNothing] at nothing
    simp only [nothing, Bool.or_eq_true, decide_eq_true_eq, ↓reduceIte]
  · have something :
        ¬(decide (trim line = []) || decide ((trim line).head? = some ';')) = true := by
      rwa [Bool.or_eq_true, decide_eq_true_eq, decide_eq_true_eq]
    cases Header.ofLine line with
    | error fault => exact if_neg something
    | ok found =>
      cases found with
      | none => exact (if_neg something).trans (if_neg nothing).symm
      | some header => exact if_neg something

theorem ofLine?_eq_opening_iff :
    ofLine? line = some (.opening header) ↔ Header.ofLine line = .ok (some header) := by
  rw [ofLine?_eq]
  split
  · rename_i eq
    simp [eq]
  · rename_i eq
    split <;> simp [eq]
  · rename_i eq
    simp [eq]

theorem ofLine?_eq_broken_iff :
    ofLine? line = some (.broken fault) ↔ Header.ofLine line = .error fault := by
  rw [ofLine?_eq]
  split
  · rename_i eq
    simp [eq]
  · rename_i eq
    split <;> simp [eq]
  · rename_i eq
    simp [eq]

theorem ofLine?_eq_property_iff :
    ofLine? line = some (.property text) ↔
      Header.ofLine line = .ok none ∧ ¬SaysNothing line ∧ text = trim line := by
  rw [ofLine?_eq]
  split
  · rename_i eq
    simp [eq]
  · rename_i eq
    split
    · rename_i nothing
      simp [nothing]
    · rename_i tells
      simp [eq, tells, eq_comm]
  · rename_i eq
    simp [eq]

end Entry

end

/-! ### What stands at a position -/

variable {lines : List (List Char)} {i : Nat}

/-- The line at position `i` stands outside of quotations. -/
def IsOutside (lines : List (List Char)) (i : Nat) : Prop :=
  openAfterLines false (lines.take i) = false

instance (lines : List (List Char)) (i : Nat) : Decidable (IsOutside lines i) :=
  inferInstanceAs (Decidable (_ = _))

/-- The line at position `i` stands outside of quotations and has the given outcome as a header. -/
def ReadsAt (lines : List (List Char)) (i : Nat)
    (outcome : Except HeaderFault (Option Header)) : Prop :=
  IsOutside lines i ∧ ∃ line, lines[i]? = some line ∧ Header.ofLine line = outcome

/-- What the line at position `i` says, if it stands outside of quotations. -/
def entryAt? (lines : List (List Char)) (i : Nat) : Option Entry :=
  if IsOutside lines i then lines[i]?.bind Entry.ofLine? else none

/-- The entries of the lines from position `i` on. -/
def entriesFrom (lines : List (List Char)) (i : Nat) : List (Nat × Entry) :=
  entries (openAfterLines false (lines.take i)) (i + 1) (lines.drop i)

private theorem openAfterLines_append (inside : Bool) (front back : List (List Char)) :
    openAfterLines inside (front ++ back) =
      openAfterLines (openAfterLines inside front) back := by
  fun_induction openAfterLines inside front with
  | case1 => rfl
  | case2 line rest ih => exact ih
  | case3 line rest ih => exact ih

theorem entryAt?_eq_some_iff {entry : Entry} :
    entryAt? lines i = some entry ↔
      IsOutside lines i ∧ ∃ line, lines[i]? = some line ∧ Entry.ofLine? line = some entry := by
  rw [entryAt?]
  split
  · rename_i outside
    rw [Option.bind_eq_some_iff]
    exact (and_iff_right outside).symm
  · rename_i inside
    simp [inside]

theorem entryAt?_eq_opening_iff :
    entryAt? lines i = some (.opening header) ↔ ReadsAt lines i (.ok (some header)) := by
  simp only [entryAt?_eq_some_iff, Entry.ofLine?_eq_opening_iff, ReadsAt]

theorem entryAt?_eq_broken_iff :
    entryAt? lines i = some (.broken fault) ↔ ReadsAt lines i (.error fault) := by
  simp only [entryAt?_eq_some_iff, Entry.ofLine?_eq_broken_iff, ReadsAt]

theorem entryAt?_of_length_le (le : lines.length ≤ i) : entryAt? lines i = none := by
  rw [entryAt?, List.getElem?_eq_none le, Option.bind_none, ite_self]

/-! ### From a position on -/

theorem entriesFrom_of_length_le (le : lines.length ≤ i) : entriesFrom lines i = [] := by
  rw [entriesFrom, List.drop_eq_nil_of_le le, entries]

theorem entriesFrom_eq (lines : List (List Char)) (i : Nat) :
    entriesFrom lines i =
      ((entryAt? lines i).map (i + 1, ·)).toList ++ entriesFrom lines (i + 1) := by
  by_cases lt : i < lines.length
  · have taken : lines.take (i + 1) = lines.take i ++ [lines[i]] := by simp
    rw [entriesFrom, entriesFrom, List.drop_eq_getElem_cons lt, taken, openAfterLines_append,
      entryAt?, List.getElem?_eq_getElem lt, Option.bind_some]
    by_cases outside : IsOutside lines i
    · rw [if_pos outside, outside, entries]
      rfl
    · rw [if_neg outside, (Bool.not_eq_false _).mp outside]
      rfl
  · have le := Nat.le_of_not_lt lt
    rw [entriesFrom_of_length_le le, entriesFrom_of_length_le (Nat.le_succ_of_le le),
      entryAt?_of_length_le le]
    rfl

/-- From the last line up: what holds behind the last line, and at each position if it holds at the
next, holds at all positions. -/
theorem position_induction {motive : Nat → Prop} (length : Nat)
    (behind : ∀ i, length ≤ i → motive i)
    (position : ∀ i, i < length → motive (i + 1) → motive i) (i : Nat) : motive i := by
  by_cases lt : i < length
  · exact position i lt (position_induction length behind position (i + 1))
  · exact behind i (Nat.le_of_not_lt lt)
termination_by length - i

section

variable {α : Type} {collect : List (Nat × Entry) → List α} {at? : Nat → Option α} {length : Nat}

/-- What is collected from the entries of a scene, if it is collected position by position. -/
theorem collect_eq_filterMap (empty : collect [] = [])
    (position : ∀ i,
      collect (entriesFrom lines i) = (at? i).toList ++ collect (entriesFrom lines (i + 1))) :
    collect (entries false 1 lines) = (List.range lines.length).filterMap at? := by
  have from_ (i : Nat) : collect (entriesFrom lines i) =
      (List.range' i (lines.length - i)).filterMap at? := by
    induction i using position_induction lines.length with
    | behind i le => rw [entriesFrom_of_length_le le, Nat.sub_eq_zero_of_le le, empty]; rfl
    | position i lt ih =>
      have more : lines.length - i = lines.length - (i + 1) + 1 := by omega
      rw [position, ih, more, List.range'_succ, List.filterMap_cons]
      cases at? i <;> rfl
  rw [List.range_eq_range']
  exact from_ 0

theorem mem_filterMap_range_iff (behind : ∀ i, length ≤ i → at? i = none) {a : α} :
    a ∈ (List.range length).filterMap at? ↔ ∃ i, at? i = some a := by
  rw [List.mem_filterMap]
  refine ⟨fun ⟨i, _, found⟩ => ⟨i, found⟩, fun ⟨i, found⟩ => ⟨i, ?_, found⟩⟩
  rw [List.mem_range]
  refine Nat.lt_of_not_le fun le => ?_
  rw [behind i le] at found
  contradiction

end

/-! ### Declarations -/

/-- The line on which a declaration stands. -/
def Declaration.line : Declaration → Nat
  | node record _ => record.line
  | broken line _ | unnamed line => line

/-- What an entry on line `n` declares, if its section attaches the given resource. -/
def Entry.declaration? (n : Nat) (resource : Option String) : Entry → Option Declaration
  | .opening header =>
    if header.tag = "node" then
      match NodeRecord.ofHeader? header n with
      | some record => some (.node record resource)
      | none => some (.unnamed n)
    else none
  | .broken fault => some (.broken n fault)
  | .property _ => none

theorem declarations_cons (n : Nat) (entry : Entry) (rest : List (Nat × Entry)) :
    declarations ((n, entry) :: rest) =
      (entry.declaration? n (sectionResource? rest)).toList ++ declarations rest := by
  cases entry with
  | property text => rfl
  | broken fault => rfl
  | opening header =>
    rw [declarations, Entry.declaration?]
    split
    · cases NodeRecord.ofHeader? header n <;> rfl
    · rfl

theorem Entry.line_of_declaration? {n : Nat} {resource : Option String} {entry : Entry}
    {declaration : Declaration} (h : entry.declaration? n resource = some declaration) :
    declaration.line = n := by
  unfold declaration? at h
  split at h
  · split at h
    · split at h
      · rename_i record declared
        exact Option.some.inj h ▸ (NodeRecord.ofHeader_eq_some_iff.1 declared).2.2.2.2.2
      · exact Option.some.inj h ▸ rfl
    · contradiction
  · exact Option.some.inj h ▸ rfl
  · contradiction

/-- What the line at position `i` declares. A node attaches what the lines behind it say. -/
def declarationAt? (lines : List (List Char)) (i : Nat) : Option Declaration :=
  (entryAt? lines i).bind
    (Entry.declaration? (i + 1) (sectionResource? (entriesFrom lines (i + 1))))

theorem line_of_declarationAt? {declaration : Declaration}
    (h : declarationAt? lines i = some declaration) : declaration.line = i + 1 := by
  obtain ⟨entry, -, declared⟩ := Option.bind_eq_some_iff.1 h
  exact Entry.line_of_declaration? declared

private theorem declarations_entriesFrom (lines : List (List Char)) (i : Nat) :
    declarations (entriesFrom lines i) =
      (declarationAt? lines i).toList ++ declarations (entriesFrom lines (i + 1)) := by
  rw [entriesFrom_eq, declarationAt?]
  cases entryAt? lines i with
  | none => rfl
  | some entry => exact declarations_cons (i + 1) entry _

/-- **The declarations of a scene** are what the lines at its positions declare. -/
theorem declarations_eq_filterMap (lines : List (List Char)) :
    declarations (entries false 1 lines) =
      (List.range lines.length).filterMap (declarationAt? lines) :=
  collect_eq_filterMap rfl (declarations_entriesFrom lines)

theorem declarationAt?_of_length_le (le : lines.length ≤ i) : declarationAt? lines i = none := by
  rw [declarationAt?, entryAt?_of_length_le le, Option.bind_none]

theorem mem_declarations_iff {declaration : Declaration} :
    declaration ∈ declarations (entries false 1 lines) ↔
      ∃ i, declarationAt? lines i = some declaration := by
  rw [declarations_eq_filterMap]
  exact mem_filterMap_range_iff fun _ => declarationAt?_of_length_le

/-- Declarations stand on different lines, in the order of the lines. -/
theorem pairwise_line_declarations (lines : List (List Char)) :
    (declarations (entries false 1 lines)).Pairwise fun one other => one.line < other.line := by
  rw [declarations_eq_filterMap, List.pairwise_filterMap]
  refine List.pairwise_lt_range.imp fun lt one found other found' => ?_
  rw [line_of_declarationAt? found, line_of_declarationAt? found']
  exact Nat.succ_lt_succ lt

end SceneAudit.Scene
