import SceneAudit.Proofs.Script.Grammar

/-!
# Node paths that are cut off

Behind the path sign a script may write more than the extractor reads. Where an empty segment is
written, which is to say that a slash is not followed by a word character, the path ends in front of
that slash. The segments behind it are lost even if they belong to the same expression, as in
`$Panel/%Score` or `$Panel/../Score`, and the reference is to another node than the script means.

## Main definitions

* `Script.behindSign`: what stands on a line behind its first path sign.
* `Script.Reference.written`: the word characters and slashes that are written behind the sign of a
  reference.
* `Script.Reference.next?`: the character behind its path.

## Main results

* `Script.segments_written`: how the segments that are written go on behind the path that is read.
* `Script.references_whole_iff`: a reference has the whole path exactly if no segment is empty.
-/

namespace SceneAudit.Script

open Text

/-! ### What is written behind the sign -/

/-- What stands on a line behind its first path sign. -/
def behindSign (line : List Char) : List Char :=
  (line.dropWhile (· != pathSign)).drop 1

/-- The characters of node paths: word characters and slashes. -/
def isPathChar (c : Char) : Bool :=
  isWord c || c == '/'

/-- The word characters and slashes at the front of a text. -/
def pathRun (s : List Char) : String :=
  String.ofList (s.takeWhile isPathChar)

/-- What stands behind the first path sign on the line of a reference. -/
def Reference.behind (reference : Reference) (code : String) : List Char :=
  ((lines code.toList)[reference.line - 1]?.map behindSign).getD []

/-- The character behind the path of a reference. -/
def Reference.next? (reference : Reference) (code : String) : Option Char :=
  (reference.behind code)[reference.path.length]?

/-- The word characters and slashes that are written behind the path sign of a reference. -/
def Reference.written (reference : Reference) (code : String) : String :=
  pathRun (reference.behind code)

/-! ### Where a path ends -/

private theorem behindSign_append {front : List Char} (fresh : pathSign ∉ front)
    (rest : List Char) : behindSign (front ++ pathSign :: rest) = rest := by
  rw [behindSign, List.dropWhile_append_of_pos (bne_of_not_mem fresh),
    List.dropWhile_cons_of_neg (by simp), List.drop_one, List.tail_cons]

private theorem IsNodePath.forall_isPathChar {path : String} (isPath : IsNodePath path) :
    ∀ c ∈ path.toList, isPathChar c = true := by
  intro c mem
  rw [← joinPieces_pieces path.toList] at mem
  rw [isPathChar, Bool.or_eq_true, beq_iff_eq]
  rcases mem_joinPieces mem with slash | ⟨piece, listed, inside⟩
  · exact .inr slash
  · exact .inl ((isPath piece listed).2 c inside)

/-- No segment of a node path is empty. -/
private theorem IsNodePath.empty_not_mem {path : String} (isPath : IsNodePath path) :
    "" ∉ segments path := by
  intro mem
  obtain ⟨piece, listed, empty⟩ := List.mem_map.1 mem
  exact (isPath piece listed).1 (String.ofList_eq_empty_iff.1 empty)

/-- Behind a slash where no path goes on, the first segment is empty. -/
theorem exists_segments_pathRun {s : List Char} (stop : takePath ('/' :: s) = []) :
    ∃ more, segments (pathRun s) = "" :: more := by
  cases s with
  | nil => exact ⟨[], rfl⟩
  | cons c s =>
    have word : isWord c = false := by
      refine Bool.eq_false_iff.2 fun word => ?_
      rw [takePath_cons_cons, if_pos (by simp [word])] at stop
      contradiction
    by_cases slash : c = '/'
    · subst slash
      exact ⟨segments (pathRun s), by simp [pathRun, segments, pieces, isPathChar]⟩
    · exact ⟨[], by simp [pathRun, segments, pieces, isPathChar, word, slash]⟩

/-- A node path that does not go on is written as a whole, or a slash and an empty segment are
written behind it. -/
theorem segments_written {path : String} {rest : List Char} (isPath : IsNodePath path)
    (stop : takePath rest = []) :
    (rest.head? ≠ some '/' ∧ pathRun (path.toList ++ rest) = path) ∨
      rest.head? = some '/' ∧
        ∃ more, segments (pathRun (path.toList ++ rest)) = segments path ++ "" :: more := by
  by_cases slash : rest.head? = some '/'
  · obtain ⟨tail, rfl⟩ := List.head?_eq_some_iff.1 slash
    obtain ⟨more, cut⟩ := exists_segments_pathRun stop
    refine .inr ⟨slash, more, ?_⟩
    have run : pathRun (path.toList ++ '/' :: tail) = path ++ "/" ++ pathRun tail := by
      have sign : isPathChar '/' = true := by decide +kernel
      apply String.toList_injective
      simp [pathRun, List.takeWhile_append_of_pos isPath.forall_isPathChar, sign]
    rw [run, segments_append_slash, cut]
  · refine .inl ⟨slash, ?_⟩
    have ends : ∀ c ∈ rest.head?, isPathChar c = false := by
      intro c head
      obtain ⟨tail, rfl⟩ := List.head?_eq_some_iff.1 head
      have other : c ≠ '/' := fun same => slash (by rw [same]; rfl)
      simp [isPathChar, head_of_takePath_eq_nil stop, other]
    rw [pathRun, takeWhile_append_of_stop isPath.forall_isPathChar ends, String.ofList_toList]

/-! ### References with the whole path -/

/-- The path of a reference stands right behind the path sign, and no path goes on behind it. -/
theorem exists_behind {code : String} {reference : Reference} (mem : reference ∈ references code) :
    ∃ rest, reference.behind code = reference.path.toList ++ rest ∧ takePath rest = [] ∧
      IsNodePath reference.path := by
  obtain ⟨before, line, after, binding, eq, found, rfl⟩ := mem_referencesFrom_iff.1 mem
  obtain ⟨lead, front, tail, rest, whole, -, -, fresh, stop, -⟩ :=
    Binding.exists_of_ofLine?_trim found
  obtain ⟨_, _, -, -, longest⟩ := Binding.ofLine?_eq_some_iff.1 found
  refine ⟨rest, ?_, stop, longest.isNodePath⟩
  have text : (lines code.toList)[1 + before.length - 1]? = some line := by
    rw [Nat.add_sub_cancel_left, eq, List.getElem?_append_right (Nat.le_refl _), Nat.sub_self]
    rfl
  change ((lines code.toList)[1 + before.length - 1]?.map behindSign).getD [] = _
  rw [text, whole]
  exact behindSign_append fresh _

/-- **Which references are whole.** A reference has the segments that are written behind the path
sign, up to the first empty one. The character behind its path is no slash exactly if none of them
is empty, and exactly then its path is all that is written. -/
theorem references_whole_iff {code : String} {reference : Reference}
    (mem : reference ∈ references code) :
    reference.path.toList <+: reference.behind code ∧
      segments reference.path = (segments (reference.written code)).takeWhile (· != "") ∧
      (reference.next? code ≠ some '/' ↔ "" ∉ segments (reference.written code)) ∧
      (reference.path = reference.written code ↔ "" ∉ segments (reference.written code)) := by
  obtain ⟨rest, behind, stop, isPath⟩ := exists_behind mem
  have next : reference.next? code = rest.head? := by
    rw [Reference.next?, behind, ← String.length_toList,
      List.getElem?_append_right (Nat.le_refl _), Nat.sub_self, List.head?_eq_getElem?]
  have full := bne_of_not_mem isPath.empty_not_mem
  refine ⟨⟨rest, behind.symm⟩, ?_⟩
  rw [next, Reference.written, behind]
  rcases segments_written isPath stop with ⟨other, whole⟩ | ⟨slash, more, cut⟩
  · rw [whole]
    refine ⟨?_, iff_of_true other isPath.empty_not_mem, iff_of_true rfl isPath.empty_not_mem⟩
    rw [← List.append_nil (segments reference.path), List.takeWhile_append_of_pos full,
      List.takeWhile_nil]
  · have empty : "" ∈ segments reference.path ++ "" :: more := List.mem_append_cons_self
    rw [cut]
    refine ⟨?_, iff_of_false (not_not_intro slash) (not_not_intro empty),
      iff_of_false (fun same => ?_) (not_not_intro empty)⟩
    · rw [List.takeWhile_append_of_pos full, List.takeWhile_cons_of_neg (by decide),
        List.append_nil]
    · rw [same, cut] at full
      exact absurd (full "" empty) (by decide)

/-- A path in front of a member access is read as a whole. -/
theorem references_whole_member :
    let code := "var score = $Panel/Score.text"
    let reference : Reference := ⟨1, "score", "Panel/Score", false⟩
    reference ∈ references code ∧ reference.path.toList <+: reference.behind code ∧
      segments reference.path = (segments (reference.written code)).takeWhile (· != "") ∧
      (reference.next? code ≠ some '/' ↔ "" ∉ segments (reference.written code)) ∧
      (reference.path = reference.written code ↔ "" ∉ segments (reference.written code)) := by
  intro code reference
  have mem : reference ∈ references code := by decide +kernel
  exact ⟨mem, references_whole_iff mem⟩

/-- Not every reference is whole: a path with a unique name in it is cut off in front of that. -/
theorem not_references_whole : ¬∀ (code : String) (reference : Reference),
    reference ∈ references code → reference.next? code ≠ some '/' := by
  intro whole
  refine whole "var score = $Panel/%Score" ⟨1, "score", "Panel", false⟩ ?_ ?_
  · decide +kernel
  · decide +kernel

end SceneAudit.Script
