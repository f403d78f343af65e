import SceneAudit.Proofs.Script.Replacement

/-!
# The grammar of bindings

What the extractor of references accepts, stated against a grammar. A binding is a declaration, the
path sign and a node path, with anything behind it. The declaration has four parts that may be
missing and blanks that are free in most places, and the node path is the longest one that starts
right behind the sign.

The parts of a declaration come first, each with a lemma that says that it is read exactly where it
is written; a line and then a script are put together from them. From line to line nothing is
remembered but whether a cache mark waits for its declaration.

## Main definitions

* `Script.IsMark`, `Script.IsNameOf`, `Script.IsType`, `Script.IsTypeMark`: how the parts of a
  declaration are written.
* `Script.IsDeclaration`: how it is written as a whole.
* `Script.IsLongestNodePath`: the longest node path at the front of a text.
* `Script.Binding.IsWrittenAs`: how a binding is written.
* `Script.MarkWaits`: a cache mark alone on a line waits for the declaration on another.

## Main results

* `Script.Binding.declared?_eq_some_iff`, `Script.nodePath?_eq_some_iff`: the two halves of a
  binding are read exactly where they are written.
* `Script.Binding.ofLine?_eq_some_iff`: so is a binding.
* `Script.references_grammar`: the references of a script.
-/

namespace SceneAudit.Script

open Text

/-! ### The grammar -/

/-- How the cache mark of a declaration is written, if there is one: with blanks behind it. -/
inductive IsMark : Bool → List Char → Prop
  | absent : IsMark false []
  | present {blanks : List Char} (nonempty : blanks ≠ [])
      (blank : ∀ c ∈ blanks, isBlank c = true) : IsMark true (cacheMark.toList ++ blanks)

/-- An ASCII letter or an underscore, and then any number of characters of the given class. -/
def IsNameOf (p : Char → Bool) (s : List Char) : Prop :=
  ∃ c rest, s = c :: rest ∧ isNameStart c = true ∧ ∀ d ∈ rest, p d = true

/-- How a type is written: as a name in which there may be dots, possibly with one argument in
brackets, which is made of word characters and dots. -/
inductive IsType : List Char → Prop
  | plain {name : List Char} (named : IsNameOf isTypeChar name) : IsType name
  | applied {name argument : List Char} (named : IsNameOf isTypeChar name)
      (nonempty : argument ≠ []) (inside : ∀ c ∈ argument, isTypeChar c = true) :
      IsType (name ++ '[' :: (argument ++ [']']))

/-- How the type of a variable is given: not at all, by a colon alone, or by a colon and a type.
Blanks are free behind the colon and behind the type. -/
inductive IsTypeMark : List Char → Prop
  | absent : IsTypeMark []
  | inferred {blanks : List Char} (blank : ∀ c ∈ blanks, isBlank c = true) :
      IsTypeMark (':' :: blanks)
  | given {before type after : List Char} (blankBefore : ∀ c ∈ before, isBlank c = true)
      (written : IsType type) (blankAfter : ∀ c ∈ after, isBlank c = true) :
      IsTypeMark (':' :: (before ++ (type ++ after)))

/-- How a declaration is written, up to the value of the variable: whether it is marked, and the
name of the variable. -/
inductive IsDeclaration (marked : Bool) (name : String) : List Char → Prop
  | of {mark gap before type after : List Char} (cache : IsMark marked mark) (nonempty : gap ≠ [])
      (blankGap : ∀ c ∈ gap, isBlank c = true) (named : IsNameOf isWord name.toList)
      (blankBefore : ∀ c ∈ before, isBlank c = true) (typed : IsTypeMark type)
      (blankAfter : ∀ c ∈ after, isBlank c = true) :
      IsDeclaration marked name
        (mark ++ ("var".toList ++ (gap ++ (name.toList ++ (before ++ (type ++ '=' :: after))))))

/-- The longest of the node paths at the front of a text. -/
structure IsLongestNodePath (path : String) (s : List Char) : Prop where
  front : path.toList <+: s
  isNodePath : IsNodePath path
  longest : ∀ other : String, other.toList <+: s → IsNodePath other →
    other.toList.length ≤ path.toList.length

/-- How a binding is written: the declaration, the path sign, the longest node path right behind it,
and anything else. -/
def Binding.IsWrittenAs (binding : Binding) (line : List Char) : Prop :=
  ∃ front rest, line = front ++ pathSign :: rest ∧
    IsDeclaration binding.marked binding.variableName front ∧ IsLongestNodePath binding.path rest

/-! ### Node paths -/

private theorem ne_slash_of_isWord {c : Char} (word : isWord c = true) : c ≠ '/' := by
  rintro rfl
  exact absurd word (by decide +kernel)

/-- The segments of a path that is taken are made of word characters. Only the first one may be
empty, where the text starts with a slash. -/
theorem exists_pieces_takePath (s : List Char) :
    ∃ first more, pieces (takePath s) = first :: more ∧ (∀ c ∈ first, isWord c = true) ∧
      (∀ piece ∈ more, piece ≠ [] ∧ ∀ c ∈ piece, isWord c = true) ∧
      (s.head?.any isWord = true → first ≠ []) := by
  fun_induction takePath s with
  | case1 => exact ⟨[], [], rfl, List.forall_mem_nil _, List.forall_mem_nil _, by simp⟩
  | case2 c word =>
    have cut : pieces [c] = [[c]] := by simp [pieces, ne_slash_of_isWord word]
    exact ⟨[c], [], cut, List.forall_mem_singleton.2 word, List.forall_mem_nil _, by simp⟩
  | case3 c other =>
    exact ⟨[], [], rfl, List.forall_mem_nil _, List.forall_mem_nil _, by simp [other]⟩
  | case4 c next rest taken ih =>
    obtain ⟨first, more, cut, wordsFirst, wordsMore, nonempty⟩ := ih
    by_cases word : isWord c = true
    · refine ⟨c :: first, more, ?_, List.forall_mem_cons.2 ⟨word, wordsFirst⟩, wordsMore, by simp⟩
      simp [pieces, ne_slash_of_isWord word, cut]
    · -- The character is a slash in front of a word character.
      simp only [word, Bool.false_or, Bool.and_eq_true, decide_eq_true_eq] at taken
      obtain ⟨rfl, wordNext⟩ := taken
      refine ⟨[], first :: more, by simp [pieces, cut], List.forall_mem_nil _, ?_, by simp [word]⟩
      exact List.forall_mem_cons.2 ⟨⟨nonempty (by simp [wordNext]), wordsFirst⟩, wordsMore⟩
  | case5 c next rest other =>
    have word : isWord c = false := by simp_all
    exact ⟨[], [], rfl, List.forall_mem_nil _, List.forall_mem_nil _, by simp [word]⟩

/-- What is taken from a longer text starts with what is taken from the text. -/
theorem takePath_isPrefix_append (s t : List Char) : takePath s <+: takePath (s ++ t) := by
  fun_induction takePath s with
  | case1 => exact List.nil_prefix
  | case2 c word =>
    rw [List.singleton_append, takePath_cons_of_isWord word]
    exact List.cons_prefix_cons.2 ⟨rfl, List.nil_prefix⟩
  | case3 => exact List.nil_prefix
  | case4 c next rest taken ih =>
    rw [List.cons_append, List.cons_append, takePath_cons_cons, if_pos taken]
    exact List.cons_prefix_cons.2 ⟨rfl, ih⟩
  | case5 => exact List.nil_prefix

theorem takePath_of_isNodePath {path : String} (h : IsNodePath path) :
    takePath path.toList = path.toList :=
  takePath_of_nodePath? (nodePath?_of_isNodePath h)

/-- A node path starts with a word character. -/
theorem IsNodePath.exists_head? {path : String} (h : IsNodePath path) :
    ∃ c ∈ path.toList.head?, isWord c = true := by
  have read := nodePath?_of_isNodePath h
  rw [nodePath?, Option.ite_none_right_eq_some, Option.any_eq_true,
    takePath_of_isNodePath h] at read
  exact read.1

/-- A node path is read at the front of a text exactly if it is the longest one there. -/
theorem nodePath?_eq_some_iff {s path : List Char} :
    nodePath? s = some path ↔ IsLongestNodePath (String.ofList path) s := by
  have segments (word : s.head?.any isWord = true) : IsNodePath (String.ofList (takePath s)) := by
    obtain ⟨first, more, cut, wordsFirst, wordsMore, nonempty⟩ := exists_pieces_takePath s
    rw [IsNodePath, String.toList_ofList, cut]
    exact List.forall_mem_cons.2 ⟨⟨nonempty word, wordsFirst⟩, wordsMore⟩
  have longest (other : String) (front : other.toList <+: s) (isPath : IsNodePath other) :
      other.toList <+: takePath s := by
    obtain ⟨t, rfl⟩ := front
    have inside := takePath_isPrefix_append other.toList t
    rwa [takePath_of_isNodePath isPath] at inside
  constructor
  · intro read
    obtain rfl := takePath_of_nodePath? read
    have word : s.head?.any isWord = true := by
      cases s with
      | nil => contradiction
      | cons c rest =>
        rw [nodePath?_cons, Option.ite_none_right_eq_some] at read
        exact read.1
    refine ⟨?_, segments word, fun other front isPath => ?_⟩
    · rw [String.toList_ofList]
      exact takePath_isPrefix s
    · rw [String.toList_ofList]
      exact (longest other front isPath).length_le
  · rintro ⟨front, isPath, greatest⟩
    have inside := longest _ front isPath
    rw [String.toList_ofList] at front greatest inside
    have word : s.head?.any isWord = true := by
      obtain ⟨c, head, word⟩ := isPath.exists_head?
      rw [String.toList_ofList] at head
      obtain ⟨tail, rfl⟩ := List.head?_eq_some_iff.1 head
      obtain ⟨t, rfl⟩ := front
      simpa using word
    have bound := greatest (String.ofList (takePath s))
      (by rw [String.toList_ofList]; exact takePath_isPrefix s) (segments word)
    rw [String.toList_ofList] at bound
    obtain rfl := inside.eq_of_length_le bound
    cases s with
    | nil => contradiction
    | cons c rest => exact (nodePath?_cons c rest).trans (if_pos word)

/-! ### The parts of a declaration -/

private theorem isTypeChar_of_isBlank {c : Char} (blank : isBlank c = true) :
    isTypeChar c = false := by
  rw [isTypeChar, isWord_of_isBlank blank, Bool.false_or, beq_eq_false_iff_ne]
  rintro rfl
  exact absurd blank (by decide +kernel)

/-- What holds of blanks and of the first character of a text holds of it when blanks are put in
front of the text, or none. -/
theorem head?_blanks_append {motive : Char → Prop} (other : ∀ c, isBlank c = true → motive c)
    {blanks s : List Char} (blank : ∀ c ∈ blanks, isBlank c = true)
    (first : ∀ c ∈ s.head?, motive c) : ∀ c ∈ (blanks ++ s).head?, motive c := by
  intro c mem
  cases blanks with
  | nil => exact first c mem
  | cons d blanks =>
    obtain rfl := Option.some.inj mem
    exact other d (blank d List.mem_cons_self)

theorem afterBlanks?_eq_some_iff {s rest : List Char} :
    afterBlanks? s = some rest ↔
      ∃ blanks, s = blanks ++ rest ∧ blanks ≠ [] ∧ (∀ c ∈ blanks, isBlank c = true) ∧
        ∀ c ∈ rest.head?, isBlank c = false := by
  constructor
  · intro h
    cases s with
    | nil => contradiction
    | cons c s =>
      rw [afterBlanks?, Option.ite_none_right_eq_some, Option.some.injEq] at h
      obtain ⟨first, rfl⟩ := h
      obtain ⟨blanks, blank, eq⟩ := exists_skipBlanks s
      refine ⟨c :: blanks, ?_, List.cons_ne_nil c blanks, List.forall_mem_cons.2 ⟨first, blank⟩, ?_⟩
      · rw [List.cons_append, ← eq]
      · intro d mem
        obtain ⟨tail, front⟩ := List.head?_eq_some_iff.1 mem
        exact isBlank_of_skipBlanks front
  · rintro ⟨blanks, rfl, nonempty, blank, stop⟩
    obtain ⟨c, more, rfl⟩ := List.exists_cons_of_ne_nil nonempty
    obtain ⟨first, others⟩ := List.forall_mem_cons.1 blank
    rw [List.cons_append, afterBlanks?, if_pos first, skipBlanks_append others stop]

/-- A type is skipped where one is written, and nothing is skipped elsewhere. -/
theorem exists_skipType (s : List Char) :
    ∃ type, s = type ++ skipType s ∧ (type = [] ∨ IsType type) := by
  cases s with
  | nil => exact ⟨[], rfl, .inl rfl⟩
  | cons c s =>
    by_cases first : isNameStart c = true
    · have named : IsNameOf isTypeChar (c :: s.takeWhile isTypeChar) :=
        ⟨c, _, rfl, first, List.all_eq_true.1 List.all_takeWhile⟩
      have cut : c :: s = (c :: s.takeWhile isTypeChar) ++ s.dropWhile isTypeChar := by
        rw [List.cons_append, List.takeWhile_append_dropWhile]
      rw [skipType, if_pos first]
      split
      · rename_i argument opens
        split
        · rename_i d inner tail taken closes
          have nonempty : argument.takeWhile isTypeChar ≠ [] := by
            rw [taken]
            exact List.cons_ne_nil d inner
          refine ⟨_, ?_, .inr (.applied named nonempty (List.all_eq_true.1 List.all_takeWhile))⟩
          have inside := List.takeWhile_append_dropWhile (p := isTypeChar) (l := argument)
          rw [closes] at inside
          rw [cut, opens]
          simp only [List.append_assoc, List.cons_append, List.nil_append, inside]
        · exact ⟨_, by rw [cut, opens], .inr (.plain named)⟩
      · exact ⟨_, cut, .inr (.plain named)⟩
    · exact ⟨[], by rw [skipType, if_neg first]; rfl, .inl rfl⟩

theorem IsType.exists_head? {type : List Char} (written : IsType type) :
    ∃ c ∈ type.head?, isNameStart c = true := by
  cases written with
  | plain named | applied named =>
    obtain ⟨c, more, rfl, first, -⟩ := named
    exact ⟨c, rfl, first⟩

private theorem skipType_append {type rest : List Char} (written : IsType type)
    (stop : ∀ c ∈ rest.head?, isTypeChar c = false ∧ c ≠ '[') :
    skipType (type ++ rest) = rest := by
  cases written with
  | plain named =>
    obtain ⟨c, more, rfl, first, chars⟩ := named
    rw [List.cons_append, skipType, if_pos first,
      dropWhile_append_of_stop chars fun d mem => (stop d mem).1]
    split
    · exact absurd rfl (stop '[' rfl).2
    · rfl
  | @applied name argument named nonempty inside =>
    obtain ⟨c, more, rfl, first, chars⟩ := named
    obtain ⟨d, others, eq⟩ := List.exists_cons_of_ne_nil nonempty
    have opens : ∀ e ∈ ('[' :: (argument ++ ']' :: rest)).head?, isTypeChar e = false := by
      rintro _ ⟨⟩
      decide +kernel
    have closes : ∀ e ∈ (']' :: rest).head?, isTypeChar e = false := by
      rintro _ ⟨⟩
      decide +kernel
    have whole : (c :: more ++ '[' :: (argument ++ [']'])) ++ rest =
        c :: (more ++ '[' :: (argument ++ ']' :: rest)) := by
      simp only [List.append_assoc, List.cons_append, List.nil_append]
    rw [whole, skipType, if_pos first, dropWhile_append_of_stop chars opens]
    split
    · rename_i inner taken
      obtain rfl := List.tail_eq_of_cons_eq taken
      rw [takeWhile_append_of_stop inside closes, dropWhile_append_of_stop inside closes, eq]
      rfl
    · rename_i other
      exact absurd rfl (other _)

/-- What may stand in front of the equals sign is skipped exactly where it is written. -/
theorem skipTypeMark_eq_cons_iff {s rest : List Char} :
    skipTypeMark s = '=' :: rest ↔ ∃ type, s = type ++ '=' :: rest ∧ IsTypeMark type := by
  constructor
  · intro h
    unfold skipTypeMark at h
    split at h
    · rename_i behind
      obtain ⟨before, blankBefore, eqBefore⟩ := exists_skipBlanks behind
      obtain ⟨type, eqType, written⟩ := exists_skipType (skipBlanks behind)
      obtain ⟨after, blankAfter, eqAfter⟩ := exists_skipBlanks (skipType (skipBlanks behind))
      rw [h] at eqAfter
      rw [eqAfter] at eqType
      rw [eqType] at eqBefore
      rcases written with rfl | written
      · refine ⟨':' :: (before ++ after), ?_, .inferred ?_⟩
        · rw [eqBefore, List.nil_append, List.cons_append, List.append_assoc]
        · exact List.forall_mem_append.2 ⟨blankBefore, blankAfter⟩
      · refine ⟨':' :: (before ++ (type ++ after)), ?_, .given blankBefore written blankAfter⟩
        rw [eqBefore, List.cons_append, List.append_assoc, List.append_assoc]
    · exact ⟨[], h, .absent⟩
  · rintro ⟨type, rfl, written⟩
    cases written with
    | absent => rfl
    | @inferred blanks blank =>
      have front : skipBlanks (blanks ++ '=' :: rest) = '=' :: rest :=
        skipBlanks_append_cons blank (by decide +kernel)
      rw [List.cons_append, skipTypeMark, front]
      rfl
    | @given before type after blankBefore written blankAfter =>
      have equals : ∀ c ∈ ('=' :: rest).head?, isTypeChar c = false ∧ c ≠ '[' := by
        rintro _ ⟨⟩
        decide +kernel
      have blanks (c : Char) (blank : isBlank c = true) : isTypeChar c = false ∧ c ≠ '[' := by
        refine ⟨isTypeChar_of_isBlank blank, ?_⟩
        rintro rfl
        exact absurd blank (by decide +kernel)
      have letter : ∀ c ∈ (type ++ (after ++ '=' :: rest)).head?, isBlank c = false := by
        obtain ⟨c, head, first⟩ := written.exists_head?
        obtain ⟨more, rfl⟩ := List.head?_eq_some_iff.1 head
        rintro _ ⟨⟩
        exact isBlank_of_isWord (isWord_of_isNameStart first)
      rw [List.cons_append, List.append_assoc, List.append_assoc, skipTypeMark,
        skipBlanks_append blankBefore letter,
        skipType_append written (head?_blanks_append blanks blankAfter equals),
        skipBlanks_append_cons blankAfter (by decide +kernel)]

/-- Behind the name of a variable and blanks there is a colon or an equals sign. -/
theorem IsTypeMark.stop {type : List Char} (typed : IsTypeMark type) (rest : List Char) :
    ∀ c ∈ (type ++ '=' :: rest).head?, isBlank c = false ∧ isWord c = false := by
  cases typed with
  | absent =>
    rintro _ ⟨⟩
    decide +kernel
  | inferred | given =>
    rintro _ ⟨⟩
    decide +kernel

namespace Binding

theorem afterMark?_eq_some_iff {s rest : List Char} :
    afterMark? s = some rest ↔
      ∃ mark, s = mark ++ rest ∧ IsMark true mark ∧ ∀ c ∈ rest.head?, isBlank c = false := by
  rw [afterMark?, Option.bind_eq_some_iff]
  constructor
  · rintro ⟨behind, sign, gap⟩
    obtain rfl := after?_eq_some_iff.1 sign
    obtain ⟨blanks, rfl, nonempty, blank, stop⟩ := afterBlanks?_eq_some_iff.1 gap
    exact ⟨_, (List.append_assoc ..).symm, .present nonempty blank, stop⟩
  · rintro ⟨mark, rfl, present, stop⟩
    cases present with
    | @present blanks nonempty blank =>
      refine ⟨blanks ++ rest, after?_eq_some_iff.2 (List.append_assoc ..), ?_⟩
      exact afterBlanks?_eq_some_iff.2 ⟨blanks, rfl, nonempty, blank, stop⟩

/-- A variable is read exactly where `var` and a name are written with blanks in between, in front
of anything that is neither blank nor part of the name. -/
theorem takeVariable?_eq_some_iff {s name rest : List Char}
    (stop : ∀ c ∈ rest.head?, isBlank c = false ∧ isWord c = false) :
    takeVariable? s = some (name, rest) ↔
      ∃ gap before, s = "var".toList ++ (gap ++ (name ++ (before ++ rest))) ∧ gap ≠ [] ∧
        (∀ c ∈ gap, isBlank c = true) ∧ IsNameOf isWord name ∧
        ∀ c ∈ before, isBlank c = true := by
  constructor
  · intro h
    obtain ⟨behind, var, found⟩ := Option.bind_eq_some_iff.1 h
    obtain ⟨front, blanks, named⟩ := Option.bind_eq_some_iff.1 found
    obtain rfl := after?_eq_some_iff.1 var
    obtain ⟨gap, rfl, nonempty, blankGap, -⟩ := afterBlanks?_eq_some_iff.1 blanks
    cases front with
    | nil => contradiction
    | cons c tail =>
      simp only [Option.ite_none_right_eq_some, Option.some.injEq, Prod.mk.injEq] at named
      obtain ⟨first, rfl, rfl⟩ := named
      obtain ⟨before, blankBefore, eq⟩ := exists_skipBlanks (tail.dropWhile isWord)
      refine ⟨gap, before, ?_, nonempty, blankGap,
        ⟨c, _, rfl, first, List.all_eq_true.1 List.all_takeWhile⟩, blankBefore⟩
      rw [← eq, List.cons_append, List.takeWhile_append_dropWhile]
  · rintro ⟨gap, before, rfl, nonempty, blankGap, ⟨c, more, rfl, first, words⟩, blankBefore⟩
    have letter : ∀ d ∈ (c :: more ++ (before ++ rest)).head?, isBlank d = false := by
      rintro _ ⟨⟩
      exact isBlank_of_isWord (isWord_of_isNameStart first)
    have ends := head?_blanks_append @isWord_of_isBlank blankBefore fun d mem => (stop d mem).2
    have named : afterBlanks? (gap ++ (c :: more ++ (before ++ rest))) =
        some (c :: (more ++ (before ++ rest))) :=
      afterBlanks?_eq_some_iff.2 ⟨gap, rfl, nonempty, blankGap, letter⟩
    rw [takeVariable?, after?_eq_some_iff.2 rfl]
    simp only [Option.bind_eq_bind, Option.bind_some, named]
    refine (if_pos first).trans ?_
    rw [takeWhile_append_of_stop words ends, dropWhile_append_of_stop words ends,
      skipBlanks_append blankBefore fun d mem => (stop d mem).1]

/-! ### Bindings -/

/-- A text is the cache mark at its front, if there is one, and what is read behind the mark. -/
private theorem exists_afterMark? (line : List Char) :
    ∃ mark, line = mark ++ (afterMark? line).getD line ∧ IsMark (afterMark? line).isSome mark := by
  cases found : afterMark? line with
  | none => exact ⟨[], rfl, .absent⟩
  | some rest =>
    obtain ⟨mark, eq, present, -⟩ := afterMark?_eq_some_iff.1 found
    exact ⟨mark, eq, present⟩

/-- The cache mark in front of a variable is recognized, and so is that there is none. -/
theorem afterMark?_append {marked : Bool} {mark : List Char} (cache : IsMark marked mark)
    (s : List Char) :
    (afterMark? (mark ++ ("var".toList ++ s))).isSome = marked ∧
      (afterMark? (mark ++ ("var".toList ++ s))).getD (mark ++ ("var".toList ++ s)) =
        "var".toList ++ s := by
  cases cache with
  | absent => exact ⟨rfl, rfl⟩
  | present nonempty blank =>
    have letter : ∀ c ∈ ("var".toList ++ s).head?, isBlank c = false := by
      rintro _ ⟨⟩
      decide +kernel
    rw [afterMark?_eq_some_iff.2 ⟨_, rfl, .present nonempty blank, letter⟩]
    exact ⟨rfl, rfl⟩

/-- A declaration is read exactly where it is written. -/
theorem declared?_eq_some_iff {line s : List Char} {marked : Bool} {name : String} :
    declared? line = some (marked, name, s) ↔
      ∃ front, line = front ++ s ∧ IsDeclaration marked name front ∧
        ∀ c ∈ s.head?, isBlank c = false := by
  constructor
  · intro h
    obtain ⟨⟨word, behind⟩, read, found⟩ := Option.bind_eq_some_iff.1 h
    obtain ⟨value, equals, eq⟩ := Option.bind_eq_some_iff.1 found
    rw [Option.pure_def, Option.some.injEq, Prod.mk.injEq, Prod.mk.injEq] at eq
    obtain ⟨rfl, same, rfl⟩ := eq
    obtain rfl : word = name.toList := by rw [← same, String.toList_ofList]
    obtain ⟨type, rfl, typed⟩ := skipTypeMark_eq_cons_iff.1 (after?_eq_some_iff.1 equals)
    obtain ⟨gap, before, eqVar, nonempty, blankGap, named, blankBefore⟩ :=
      (takeVariable?_eq_some_iff (typed.stop value)).1 read
    obtain ⟨after, blankAfter, eqAfter⟩ := exists_skipBlanks value
    obtain ⟨mark, eqMark, cache⟩ := exists_afterMark? line
    refine ⟨_, ?_, .of cache nonempty blankGap named blankBefore typed blankAfter, ?_⟩
    · rw [eqMark, eqVar]
      simp only [List.append_assoc, List.cons_append, ← eqAfter]
    · intro c mem
      obtain ⟨tail, front⟩ := List.head?_eq_some_iff.1 mem
      exact isBlank_of_skipBlanks front
  · rintro ⟨_, rfl, @⟨mark, gap, before, type, after, cache, nonempty, blankGap, named,
      blankBefore, typed, blankAfter⟩, stop⟩
    have whole : (mark ++ ("var".toList ++ (gap ++ (name.toList ++
        (before ++ (type ++ '=' :: after)))))) ++ s = mark ++ ("var".toList ++ (gap ++
          (name.toList ++ (before ++ (type ++ '=' :: (after ++ s)))))) := by
      simp only [List.append_assoc, List.cons_append]
    have read := (takeVariable?_eq_some_iff (typed.stop (after ++ s))).2
      ⟨gap, before, rfl, nonempty, blankGap, named, blankBefore⟩
    have skipped : skipTypeMark (type ++ '=' :: (after ++ s)) = '=' :: (after ++ s) :=
      skipTypeMark_eq_cons_iff.2 ⟨type, rfl, typed⟩
    have equals : after? ['='] ('=' :: (after ++ s)) = some (after ++ s) :=
      after?_eq_some_iff.2 rfl
    obtain ⟨isSome, getD⟩ := afterMark?_append cache
      (gap ++ (name.toList ++ (before ++ (type ++ '=' :: (after ++ s)))))
    rw [whole, declared?, isSome, getD, read]
    simp only [Option.bind_eq_bind, Option.bind_some, skipped, equals, Option.pure_def,
      skipBlanks_append blankAfter stop, String.ofList_toList]

/-- A binding is read exactly where it is written. -/
theorem ofLine?_eq_some_iff {line : List Char} {binding : Binding} :
    ofLine? line = some binding ↔ binding.IsWrittenAs line := by
  rw [ofLine?_eq]
  constructor
  · intro h
    obtain ⟨⟨marked, name, s⟩, declared, found⟩ := Option.bind_eq_some_iff.1 h
    obtain ⟨path, target, rfl⟩ := Option.map_eq_some_iff.1 found
    obtain ⟨rest, sign, read⟩ := Option.bind_eq_some_iff.1 target
    obtain rfl := after?_eq_some_iff.1 sign
    obtain ⟨front, rfl, declaration, -⟩ := declared?_eq_some_iff.1 declared
    exact ⟨front, rest, rfl, declaration, nodePath?_eq_some_iff.1 read⟩
  · rintro ⟨front, rest, rfl, declaration, longest⟩
    have stop : ∀ c ∈ (pathSign :: rest).head?, isBlank c = false := by
      rintro _ ⟨⟩
      exact isBlank_pathSign
    have read : nodePath? rest = some binding.path.toList :=
      nodePath?_eq_some_iff.2 (by rwa [String.ofList_toList])
    rw [declared?_eq_some_iff.2 ⟨front, rfl, declaration, stop⟩]
    simp [after?, read]

/-- A line with a binding starts with the cache mark if the declaration is marked. -/
theorem IsWrittenAs.marked_iff {binding : Binding} {line : List Char}
    (written : binding.IsWrittenAs line) : binding.marked = true ↔ cacheMark.toList <+: line := by
  obtain ⟨_, rest, rfl, ⟨cache, nonempty, blankGap, named, blankBefore, typed, blankAfter⟩, -⟩ :=
    written
  generalize binding.marked = marked at cache
  cases cache with
  | absent =>
    refine iff_of_false Bool.false_ne_true fun front => ?_
    exact absurd (List.cons_prefix_cons.1 front).1 (by decide)
  | present =>
    refine iff_of_true rfl ?_
    rw [List.append_assoc, List.append_assoc]
    exact List.prefix_append ..

end Binding

/-! ### Scripts -/

/-- Of the given lines the last one that is neither blank nor a comment is a cache mark alone. -/
def MarkWaits (before : List (List Char)) : Prop :=
  ∃ front line passed, before = front ++ line :: passed ∧ trim line = cacheMark.toList ∧
    ∀ other ∈ passed, IsPassedOver (trim other)

/-- Whether a cache mark waits for its declaration after the given lines. -/
def waits (marked : Bool) (before : List (List Char)) : Bool :=
  before.foldl (fun marked line => marksNext marked (trim line)) marked

private theorem marksNext_eq_true_iff {marked : Bool} {text : List Char} :
    marksNext marked text = true ↔
      (marked = true ∧ IsPassedOver text) ∨ text = cacheMark.toList := by
  have mark : ¬IsPassedOver cacheMark.toList := by
    rintro (empty | comment)
    · contradiction
    · exact absurd comment (by decide)
  by_cases passed : IsPassedOver text
  · have other : text ≠ cacheMark.toList := fun same => mark (same ▸ passed)
    rw [marksNext, if_pos (isPassedOver_iff.2 passed)]
    simp [passed, other]
  · rw [marksNext, if_neg (mt isPassedOver_iff.1 passed), decide_eq_true_eq]
    simp [passed]

private theorem markWaits_cons {line : List Char} {before : List (List Char)} :
    MarkWaits (line :: before) ↔
      (trim line = cacheMark.toList ∧ ∀ other ∈ before, IsPassedOver (trim other)) ∨
        MarkWaits before := by
  constructor
  · rintro ⟨front, marking, passed, eq, mark, passedOver⟩
    cases front with
    | nil =>
      obtain ⟨rfl, rfl⟩ := List.cons.inj eq
      exact .inl ⟨mark, passedOver⟩
    | cons first front =>
      exact .inr ⟨front, marking, passed, (List.cons.inj eq).2, mark, passedOver⟩
  · rintro (⟨mark, passedOver⟩ | ⟨front, marking, passed, rfl, mark, passedOver⟩)
    · exact ⟨[], line, before, rfl, mark, passedOver⟩
    · exact ⟨line :: front, marking, passed, rfl, mark, passedOver⟩

/-- What is remembered from line to line says that a mark waits. -/
theorem waits_eq_true_iff {marked : Bool} {before : List (List Char)} :
    waits marked before = true ↔
      (marked = true ∧ ∀ other ∈ before, IsPassedOver (trim other)) ∨ MarkWaits before := by
  induction before generalizing marked with
  | nil => simp [waits, MarkWaits]
  | cons line before ih =>
    rw [waits, List.foldl_cons, ← waits, ih, marksNext_eq_true_iff, markWaits_cons,
      List.forall_mem_cons]
    constructor
    · rintro (⟨⟨marked, passed⟩ | mark, others⟩ | waiting)
      · exact .inl ⟨marked, passed, others⟩
      · exact .inr (.inl ⟨mark, others⟩)
      · exact .inr (.inr waiting)
    · rintro (⟨marked, passed, others⟩ | ⟨mark, others⟩ | waiting)
      · exact .inl ⟨.inl ⟨marked, passed⟩, others⟩
      · exact .inl ⟨.inr mark, others⟩
      · exact .inr waiting

/-- The references on given lines are those of the bindings on them. -/
theorem mem_referencesFrom_iff {marked : Bool} {n : Nat} {texts : List (List Char)}
    {reference : Reference} :
    reference ∈ referencesFrom marked n texts ↔
      ∃ before line after binding, texts = before ++ line :: after ∧
        Binding.ofLine? (trim line) = some binding ∧
        reference = binding.reference (waits marked before) (n + before.length) := by
  induction texts generalizing marked n with
  | nil => simp [referencesFrom]
  | cons text texts ih =>
    rw [referencesFrom_cons, List.mem_append, ih, Option.mem_toList, Option.map_eq_some_iff]
    constructor
    · rintro (⟨binding, found, rfl⟩ | ⟨before, line, after, binding, rfl, found, rfl⟩)
      · exact ⟨[], text, texts, binding, rfl, found, rfl⟩
      · refine ⟨text :: before, line, after, binding, rfl, found, ?_⟩
        rw [List.length_cons, Nat.add_right_comm, Nat.add_assoc]
        rfl
    · rintro ⟨before, line, after, binding, eq, found, rfl⟩
      cases before with
      | nil =>
        obtain ⟨rfl, rfl⟩ := List.cons.inj eq
        exact .inl ⟨binding, found, rfl⟩
      | cons first before =>
        obtain ⟨rfl, rfl⟩ := List.cons.inj eq
        refine .inr ⟨before, line, after, binding, rfl, found, ?_⟩
        rw [List.length_cons, Nat.add_right_comm, Nat.add_assoc]
        rfl

/-- **The references of a script.** They come in the order of their lines, at most one from each
line. A line makes a reference if it is not blank, no comment and no cache mark alone, and if a
binding is written at its front, blanks aside; the reference then has the variable and the path of
the binding. It is cached exactly if the line starts with the cache mark, or if the last line before
it that is neither blank nor a comment is a cache mark alone. -/
theorem references_grammar (code : String) :
    (references code).Pairwise (fun left right => left.line < right.line) ∧
      ∀ reference, reference ∈ references code ↔
        ∃ (before : List (List Char)) (line : List Char) (after : List (List Char))
          (binding : Binding), lines code.toList = before ++ line :: after ∧
            ¬IsPassedOver (trim line) ∧ trim line ≠ cacheMark.toList ∧
            binding.IsWrittenAs (trim line) ∧ reference.line = before.length + 1 ∧
            reference.variableName = binding.variableName ∧ reference.path = binding.path ∧
            (reference.cached = true ↔ cacheMark.toList <+: trim line ∨ MarkWaits before) := by
  refine ⟨pairwise_line_references code, fun reference => ?_⟩
  have cached {before : List (List Char)} {line : List Char} {binding : Binding}
      (written : binding.IsWrittenAs (trim line)) :
      (waits false before || binding.marked) = true ↔
        cacheMark.toList <+: trim line ∨ MarkWaits before := by
    rw [Bool.or_eq_true, waits_eq_true_iff, written.marked_iff, or_comm]
    simp
  rw [references, mem_referencesFrom_iff]
  constructor
  · rintro ⟨before, line, after, binding, eq, found, rfl⟩
    have written := Binding.ofLine?_eq_some_iff.1 found
    refine ⟨before, line, after, binding, eq, Binding.not_isPassedOver found, fun same => ?_,
      written, Nat.add_comm 1 before.length, rfl, rfl, cached written⟩
    have silent : Binding.ofLine? cacheMark.toList = none := by decide +kernel
    rw [same, silent] at found
    contradiction
  · rintro ⟨before, line, after, binding, eq, -, -, written, sameLine, sameName, samePath, same⟩
    refine ⟨before, line, after, binding, eq, Binding.ofLine?_eq_some_iff.2 written, ?_⟩
    have sameCache : reference.cached = (waits false before || binding.marked) :=
      Bool.eq_iff_iff.2 (same.trans (cached written).symm)
    cases reference
    simp only [Binding.reference, Reference.mk.injEq]
    exact ⟨sameLine.trans (Nat.add_comm ..), sameName, samePath, sameCache⟩

example : references "@onready\n# the score\n\nvar score : Array[Node] = $Top/Score.text" =
    [⟨4, "score", "Top/Score", true⟩] := by
  decide +kernel

end SceneAudit.Script
