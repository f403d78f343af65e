import SceneAudit.Script.Reference
import SceneAudit.Text.Segment

/-!
# Bindings around the path sign

A binding is read in two parts that know nothing of each other: what stands in front of the first
path sign of the line says that a variable is bound and which one, and what stands behind it is read
for a node path. The path is the longest one that starts right behind the sign, so that it can be
exchanged for any other text and what comes after it plays no role.

## Main definitions

* `Script.IsNodePath`: a path of segments that are made of word characters.
* `Script.nodePath?`: the node path at the front of a text.
* `Script.Binding.declared?`: what stands in front of the node path.

## Main results

* `Script.takePath_append`: a node path ends where it ends, whatever else follows.
* `Script.nodePath?_of_isNodePath`: a node path is read back.
* `Script.Binding.ofLine?_append_sign`: the two parts of a binding are read on their own.
* `Script.Binding.exists_of_ofLine?`: a line with a binding has the two parts.
-/

namespace SceneAudit.Script

open Text

/-! ### Node paths -/

/-- Segments that are made of word characters and are not empty, joined by slashes. -/
def IsNodePath (path : String) : Prop :=
  ∀ piece ∈ pieces path.toList, piece ≠ [] ∧ ∀ c ∈ piece, isWord c = true

instance (path : String) : Decidable (IsNodePath path) :=
  decidable_of_iff ((pieces path.toList).all fun piece => !piece.isEmpty && piece.all isWord)
    (by simp [IsNodePath])

/-- The node path at the front of a text, if the text starts with a word character. -/
def nodePath? (s : List Char) : Option (List Char) :=
  if (takePath s).head?.any isWord then some (takePath s) else none

theorem takePath_cons_cons (c next : Char) (rest : List Char) :
    takePath (c :: next :: rest) =
      if isWord c || (c = '/' && isWord next) then c :: takePath (next :: rest) else [] := by
  rw [takePath]

theorem takePath_cons_of_isWord {c : Char} (word : isWord c = true) (rest : List Char) :
    takePath (c :: rest) = c :: takePath rest := by
  cases rest with
  | nil => simp [takePath, word]
  | cons next rest => simp [takePath, word]

theorem head_of_takePath_eq_nil {c : Char} {rest : List Char} (h : takePath (c :: rest) = []) :
    isWord c = false := by
  refine Bool.eq_false_iff.2 fun word => ?_
  rw [takePath_cons_of_isWord word] at h
  contradiction

/-- What no path goes on into does not change what is read in front of it. -/
theorem takePath_append {tail : List Char} (stop : takePath tail = []) (s : List Char) :
    takePath (s ++ tail) = takePath s := by
  induction s with
  | nil => exact stop
  | cons c s ih =>
    cases s with
    | nil =>
      -- A slash is taken only for the word character behind it, which the tail does not have.
      cases tail with
      | nil => rfl
      | cons next tail => simp [takePath, head_of_takePath_eq_nil stop, stop]
    | cons next s =>
      rw [List.cons_append, List.cons_append, takePath_cons_cons, takePath_cons_cons,
        ← List.cons_append, ih]

/-- No path goes on behind the one that was taken. -/
private theorem takePath_drop (s : List Char) : takePath (s.drop (takePath s).length) = [] := by
  fun_induction takePath s with
  | case1 => rfl
  | case2 => rfl
  | case3 c other => simp [takePath, other]
  | case4 c next rest taken ih => exact ih
  | case5 c next rest other => simp [takePath, other]

theorem takePath_of_isBlank {trail : List Char} (blank : ∀ c ∈ trail, isBlank c = true) :
    takePath trail = [] := by
  cases trail with
  | nil => rfl
  | cons c trail =>
    have slash : c ≠ '/' := by
      rintro rfl
      exact absurd (blank '/' List.mem_cons_self) (by decide +kernel)
    have word := isWord_of_isBlank (blank c List.mem_cons_self)
    cases trail with
    | nil => simp [takePath, word]
    | cons next trail => simp [takePath, word, slash]

theorem takePath_dropTrailingBlanks (s : List Char) :
    takePath (dropTrailingBlanks s) = takePath s := by
  obtain ⟨trail, eq, blank⟩ := exists_dropTrailingBlanks s
  conv => rhs; rw [eq]
  exact (takePath_append (takePath_of_isBlank blank) _).symm

private theorem takePath_of_isWord {s : List Char} (words : ∀ c ∈ s, isWord c = true) :
    takePath s = s := by
  induction s with
  | nil => rfl
  | cons c s ih =>
    rw [takePath_cons_of_isWord (words c List.mem_cons_self),
      ih fun d mem => words d (List.mem_cons_of_mem c mem)]

private theorem takePath_append_slash {s rest : List Char} (words : ∀ c ∈ s, isWord c = true)
    (next : ∃ c ∈ rest.head?, isWord c = true) :
    takePath (s ++ '/' :: rest) = s ++ '/' :: takePath rest := by
  induction s with
  | nil =>
    obtain ⟨c, head, word⟩ := next
    obtain ⟨tail, rfl⟩ := List.head?_eq_some_iff.1 head
    simp [takePath, word]
  | cons c s ih =>
    rw [List.cons_append, takePath_cons_of_isWord (words c List.mem_cons_self),
      ih fun d mem => words d (List.mem_cons_of_mem c mem), List.cons_append]

private theorem takePath_joinPieces {parts : List (List Char)}
    (words : ∀ piece ∈ parts, piece ≠ [] ∧ ∀ c ∈ piece, isWord c = true) :
    takePath (joinPieces parts) = joinPieces parts := by
  induction parts with
  | nil => rfl
  | cons piece more ih =>
    have first := words piece List.mem_cons_self
    have others := fun part mem => words part (List.mem_cons_of_mem piece mem)
    cases more with
    | nil => exact takePath_of_isWord first.2
    | cons next more =>
      rw [joinPieces_cons_cons, takePath_append_slash first.2, ih others]
      obtain ⟨nonempty, word⟩ := others next List.mem_cons_self
      obtain ⟨c, rest, rfl⟩ := List.exists_cons_of_ne_nil nonempty
      exact ⟨c, head?_joinPieces c rest more, word c List.mem_cons_self⟩

theorem nodePath?_congr {s t : List Char} (h : takePath s = takePath t) :
    nodePath? s = nodePath? t := by
  rw [nodePath?, nodePath?, h]

theorem takePath_of_nodePath? {s path : List Char} (h : nodePath? s = some path) :
    takePath s = path := by
  rw [nodePath?, Option.ite_none_right_eq_some] at h
  exact Option.some.inj h.2

theorem nodePath?_cons (c : Char) (rest : List Char) :
    nodePath? (c :: rest) = if isWord c then some (takePath (c :: rest)) else none := by
  by_cases word : isWord c = true
  · simp [nodePath?, word, takePath_cons_of_isWord word]
  · have head : (takePath (c :: rest)).head?.any isWord = false := by
      cases taken : takePath (c :: rest) with
      | nil => rfl
      | cons d path =>
        have same := (List.cons_prefix_cons.1 (taken ▸ takePath_isPrefix (c :: rest))).1
        simpa [same] using word
    simp [nodePath?, word, head]

/-- A node path is read back. -/
theorem nodePath?_of_isNodePath {path : String} (h : IsNodePath path) :
    nodePath? path.toList = some path.toList := by
  have whole : takePath path.toList = path.toList := by
    rw [← joinPieces_pieces path.toList, takePath_joinPieces h]
  obtain ⟨piece, more, cut⟩ := List.exists_cons_of_ne_nil (pieces_ne_nil path.toList)
  obtain ⟨nonempty, word⟩ := h piece (cut ▸ List.mem_cons_self)
  obtain ⟨c, rest, rfl⟩ := List.exists_cons_of_ne_nil nonempty
  have head : path.toList.head? = some c := by
    rw [← joinPieces_pieces path.toList, cut, head?_joinPieces]
  rw [nodePath?, whole, head, Option.any_some, word c List.mem_cons_self, if_pos rfl]

namespace Binding

/-! ### The parts of a binding -/

/-- The declaration at the front of a line: whether it is marked, the name of the variable, and
what comes after the equals sign, blanks skipped. -/
def declared? (line : List Char) : Option (Bool × String × List Char) := do
  let mark := afterMark? line
  let (variableName, s) ← takeVariable? (mark.getD line)
  let s ← after? ['='] (skipTypeMark s)
  return (mark.isSome, String.ofList variableName, skipBlanks s)

/-- A binding is a declaration with a node path after the equals sign. -/
theorem ofLine?_eq (line : List Char) :
    ofLine? line = (declared? line).bind fun (marked, variableName, s) =>
      ((after? [pathSign] s).bind nodePath?).map fun path =>
        { marked, variableName, path := String.ofList path } := by
  have target (s : List Char) : takeTarget? s = (after? ['='] s).bind fun s =>
      (after? [pathSign] (skipBlanks s)).bind nodePath? := by
    refine congrArg (Option.bind _) (funext fun s => congrArg (Option.bind _) (funext fun s => ?_))
    cases s with
    | nil => rfl
    | cons c rest => exact (nodePath?_cons c rest).symm
  rw [ofLine?, declared?]
  cases takeVariable? ((afterMark? line).getD line) with
  | none => rfl
  | some found =>
    obtain ⟨variableName, s⟩ := found
    simp only [Option.bind_eq_bind, Option.bind_some, target]
    cases after? ['='] (skipTypeMark s) with
    | none => rfl
    | some s =>
      simp only [Option.bind_some, Option.pure_def]
      cases (after? [pathSign] (skipBlanks s)).bind nodePath? with
      | none => rfl
      | some path => rfl

/-! ### What stands in front of the sign -/

section Sign

variable (s t : List Char)

theorem isBlank_pathSign : isBlank pathSign = false := by
  decide +kernel

private theorem isWord_pathSign : isWord pathSign = false := by
  decide +kernel

private theorem isTypeChar_pathSign : isTypeChar pathSign = false := by
  decide +kernel

theorem after?_append_sign {piece : List Char} (other : pathSign ∉ piece) :
    after? piece (s ++ pathSign :: t) = (after? piece s).map (· ++ pathSign :: t) := by
  fun_induction after? piece s with
  | case1 s => rfl
  | case2 p piece =>
    rw [List.mem_cons, not_or] at other
    rw [List.nil_append, after?, if_neg (Ne.symm other.1), Option.map_none]
  | case3 piece c s ih =>
    rw [List.mem_cons, not_or] at other
    rw [List.cons_append, after?, if_pos rfl, ih other.2]
  | case4 p piece c s ne =>
    rw [List.cons_append, after?, if_neg ne, Option.map_none]

theorem skipBlanks_append_sign :
    skipBlanks (s ++ pathSign :: t) = skipBlanks s ++ pathSign :: t :=
  dropWhile_append_cons isBlank_pathSign s t

theorem afterBlanks?_append_sign :
    afterBlanks? (s ++ pathSign :: t) = (afterBlanks? s).map (· ++ pathSign :: t) := by
  cases s with
  | nil => simp [afterBlanks?, isBlank_pathSign]
  | cons c s =>
    by_cases blank : isBlank c = true
    · simp [afterBlanks?, blank, skipBlanks_append_sign]
    · simp [afterBlanks?, blank]

private theorem afterMark?_append_sign :
    afterMark? (s ++ pathSign :: t) = (afterMark? s).map (· ++ pathSign :: t) := by
  rw [afterMark?, afterMark?, after?_append_sign s t (by decide)]
  cases after? cacheMark.toList s with
  | none => rfl
  | some s => exact afterBlanks?_append_sign s t

private theorem skipType_append_sign :
    skipType (s ++ pathSign :: t) = skipType s ++ pathSign :: t := by
  cases s with
  | nil => rfl
  | cons c s =>
    rw [List.cons_append, skipType, skipType, dropWhile_append_cons isTypeChar_pathSign]
    split
    · cases s.dropWhile isTypeChar with
      | nil => rfl
      | cons d argument =>
        by_cases opens : d = '['
        · subst opens
          simp only [List.cons_append, takeWhile_append_cons isTypeChar_pathSign,
            dropWhile_append_cons isTypeChar_pathSign]
          cases argument.takeWhile isTypeChar with
          | nil => rfl
          | cons first others =>
            cases argument.dropWhile isTypeChar with
            | nil => rfl
            | cons e tail =>
              by_cases closes : e = ']'
              · subst closes
                rfl
              · simp [closes]
        · simp [opens]
    · rfl

private theorem skipTypeMark_append_sign :
    skipTypeMark (s ++ pathSign :: t) = skipTypeMark s ++ pathSign :: t := by
  cases s with
  | nil => rfl
  | cons c s =>
    by_cases colon : c = ':'
    · subst colon
      rw [List.cons_append, skipTypeMark, skipTypeMark, skipBlanks_append_sign,
        skipType_append_sign, skipBlanks_append_sign]
    · simp [skipTypeMark, colon]

private theorem takeVariable?_append_sign :
    takeVariable? (s ++ pathSign :: t) =
      (takeVariable? s).map fun (variableName, s) => (variableName, s ++ pathSign :: t) := by
  rw [takeVariable?, takeVariable?, after?_append_sign s t (by decide)]
  cases after? "var".toList s with
  | none => rfl
  | some s =>
    simp only [Option.map_some, Option.bind_eq_bind, Option.bind_some, afterBlanks?_append_sign]
    cases afterBlanks? s with
    | none => rfl
    | some s =>
      cases s with
      | nil => rfl
      | cons c s =>
        simp only [Option.map_some, Option.bind_some, List.cons_append,
          takeWhile_append_cons isWord_pathSign, dropWhile_append_cons isWord_pathSign,
          skipBlanks_append_sign]
        split
        · rfl
        · rfl

/-- A declaration in front of the sign is the same whatever stands behind it. -/
theorem declared?_append_sign :
    declared? (s ++ pathSign :: t) =
      (declared? s).map fun (marked, variableName, rest) =>
        (marked, variableName, rest ++ pathSign :: t) := by
  rw [declared?, declared?, afterMark?_append_sign, Option.isSome_map, Option.getD_map,
    takeVariable?_append_sign]
  cases takeVariable? ((afterMark? s).getD s) with
  | none => rfl
  | some found =>
    obtain ⟨variableName, rest⟩ := found
    have equals := after?_append_sign (skipTypeMark rest) t (show pathSign ∉ ['='] by decide)
    simp only [Option.map_some, Option.bind_eq_bind, Option.bind_some, skipTypeMark_append_sign,
      equals]
    cases after? ['='] (skipTypeMark rest) with
    | none => rfl
    | some rest =>
      rw [Option.map_some, Option.bind_some, skipBlanks_append_sign]
      rfl

/-- The two parts of a binding are read on their own. -/
theorem ofLine?_append_sign {marked : Bool} {variableName : String}
    (declared : declared? s = some (marked, variableName, [])) :
    ofLine? (s ++ pathSign :: t) =
      (nodePath? t).map fun path => { marked, variableName, path := String.ofList path } := by
  rw [ofLine?_eq, declared?_append_sign, declared]
  rfl

end Sign

/-! ### Lines with a binding -/

section Suffix

variable {s rest piece : List Char}

theorem after?_isSuffix (h : after? piece s = some rest) : rest <:+ s :=
  ⟨piece, (after?_eq_some_iff.1 h).symm⟩

theorem skipBlanks_isSuffix (s : List Char) : skipBlanks s <:+ s :=
  List.dropWhile_suffix isBlank

theorem afterBlanks?_isSuffix (h : afterBlanks? s = some rest) : rest <:+ s := by
  cases s with
  | nil => contradiction
  | cons c s =>
    rw [afterBlanks?, Option.ite_none_right_eq_some, Option.some.injEq] at h
    exact h.2 ▸ (skipBlanks_isSuffix s).trans (List.suffix_cons c s)

private theorem afterMark?_isSuffix (h : afterMark? s = some rest) : rest <:+ s := by
  obtain ⟨found, mark, blanks⟩ := Option.bind_eq_some_iff.1 h
  exact (afterBlanks?_isSuffix blanks).trans (after?_isSuffix mark)

private theorem skipType_isSuffix (s : List Char) : skipType s <:+ s := by
  cases s with
  | nil => exact List.suffix_rfl
  | cons c s =>
    have type : s.dropWhile isTypeChar <:+ c :: s :=
      (List.dropWhile_suffix isTypeChar).trans (List.suffix_cons c s)
    rw [skipType]
    split
    · split
      · rename_i argument opens
        split
        · rename_i closes
          have inside := List.dropWhile_suffix (l := argument) isTypeChar
          rw [closes] at inside
          exact (List.suffix_cons ']' _).trans <| inside.trans <|
            (List.suffix_cons '[' argument).trans (opens ▸ type)
        · exact opens ▸ type
      · exact type
    · exact List.suffix_rfl

private theorem skipTypeMark_isSuffix (s : List Char) : skipTypeMark s <:+ s := by
  unfold skipTypeMark
  split
  · rename_i rest
    exact (skipBlanks_isSuffix _).trans <| (skipType_isSuffix _).trans <|
      (skipBlanks_isSuffix _).trans (List.suffix_cons ':' rest)
  · exact List.suffix_rfl

private theorem takeVariable?_isSuffix {variableName : List Char}
    (h : takeVariable? s = some (variableName, rest)) : rest <:+ s := by
  obtain ⟨afterVar, var, h⟩ := Option.bind_eq_some_iff.1 h
  obtain ⟨name, blanks, h⟩ := Option.bind_eq_some_iff.1 h
  have front := (afterBlanks?_isSuffix blanks).trans (after?_isSuffix var)
  cases name with
  | nil => contradiction
  | cons c name =>
    simp only [Option.ite_none_right_eq_some, Option.some.injEq, Prod.mk.injEq] at h
    refine h.2.2 ▸ List.IsSuffix.trans ?_ front
    exact (skipBlanks_isSuffix _).trans <| (List.dropWhile_suffix isWord).trans <|
      List.suffix_cons c name

private theorem declared?_isSuffix {marked : Bool} {variableName : String}
    (h : declared? s = some (marked, variableName, rest)) : rest <:+ s := by
  obtain ⟨⟨name, afterName⟩, named, h⟩ := Option.bind_eq_some_iff.1 h
  obtain ⟨target, equals, h⟩ := Option.bind_eq_some_iff.1 h
  rw [Option.pure_def, Option.some.injEq, Prod.mk.injEq, Prod.mk.injEq] at h
  have front : (afterMark? s).getD s <:+ s := by
    cases mark : afterMark? s with
    | none => exact List.suffix_rfl
    | some found => exact afterMark?_isSuffix mark
  have back : rest <:+ target := h.2.2 ▸ skipBlanks_isSuffix target
  exact back.trans <| (after?_isSuffix equals).trans <| (skipTypeMark_isSuffix _).trans <|
    (takeVariable?_isSuffix named).trans front

end Suffix

/-- A line with a binding is a declaration, the first path sign of the line, the path, and a rest
into which no path goes on. -/
theorem exists_of_ofLine? {line : List Char} {binding : Binding}
    (h : ofLine? line = some binding) :
    ∃ front tail, line = front ++ pathSign :: (binding.path.toList ++ tail) ∧
      pathSign ∉ front ∧ takePath tail = [] ∧
      declared? front = some (binding.marked, binding.variableName, []) := by
  rw [ofLine?_eq] at h
  obtain ⟨⟨marked, variableName, s⟩, declared, h⟩ := Option.bind_eq_some_iff.1 h
  obtain ⟨path, found, rfl⟩ := Option.map_eq_some_iff.1 h
  obtain ⟨t, sign, node⟩ := Option.bind_eq_some_iff.1 found
  obtain rfl : s = pathSign :: t := after?_eq_some_iff.1 sign
  obtain ⟨front, more, rfl, fresh⟩ :=
    List.eq_append_cons_of_mem ((declared?_isSuffix declared).subset List.mem_cons_self)
  rw [declared?_append_sign, Option.map_eq_some_iff] at declared
  obtain ⟨⟨_, _, rest⟩, opening, same⟩ := declared
  simp only [Prod.mk.injEq] at same
  obtain ⟨rfl, rfl, same⟩ := same
  -- Nothing stands between the equals sign and the first path sign of the line.
  cases rest with
  | cons c rest =>
    rw [List.cons_append, List.cons.injEq] at same
    exact absurd ((declared?_isSuffix opening).subset (same.1 ▸ List.mem_cons_self)) fresh
  | nil =>
    obtain rfl := List.tail_eq_of_cons_eq same
    obtain rfl := takePath_of_nodePath? node
    refine ⟨front, more.drop (takePath more).length, ?_, fresh, takePath_drop more, opening⟩
    rw [String.toList_ofList, List.prefix_iff_eq_append.1 (takePath_isPrefix more)]

/-- Blanks at the ends of a line are no part of a binding, and no path goes on into them. -/
theorem exists_of_ofLine?_trim {line : List Char} {binding : Binding}
    (h : ofLine? (trim line) = some binding) :
    ∃ lead front tail rest, line = (lead ++ front) ++ pathSign :: (binding.path.toList ++ rest) ∧
      trim line = front ++ pathSign :: (binding.path.toList ++ tail) ∧
      (∀ c ∈ lead, isBlank c = true) ∧ pathSign ∉ lead ++ front ∧ takePath rest = [] ∧
      declared? front = some (binding.marked, binding.variableName, []) := by
  obtain ⟨front, tail, text, fresh, stop, declared⟩ := exists_of_ofLine? h
  obtain ⟨lead, trail, eq, blankLead, blankTrail⟩ := exists_trim line
  refine ⟨lead, front, tail, tail ++ trail, ?_, text, blankLead, ?_, ?_, declared⟩
  · conv => lhs; rw [eq, text]
    simp only [List.append_assoc, List.cons_append]
  · rw [List.mem_append, not_or]
    refine ⟨fun mem => ?_, fresh⟩
    exact absurd (blankLead _ mem) (by rw [isBlank_pathSign]; decide)
  · rw [takePath_append (takePath_of_isBlank blankTrail), stop]

end Binding

end SceneAudit.Script
