/-!
# Quoted text

Between quotation marks a backslash stands before a character that is meant literally: `\"` is a
quotation mark and `\\` a backslash, and any other escaped character is itself. A quoted text may
contain line feeds, so it may span several lines.

## Main definitions

* `Text.Quoted.encode`: the text with a backslash before each quotation mark and backslash.
* `Text.Quoted.read`: what stands before the closing quotation mark, and what comes after it.
* `Text.Quoted.openAfter`: whether a quotation is open at the end of a piece of text.

## Main results

* `Text.Quoted.encode_eq_self_iff`: which texts are encoded as themselves.
* `Text.Quoted.read_encode`: an encoded text followed by a quotation mark is read back.
* `Text.Quoted.exists_of_read`: what is read stands in the text, in front of a quotation mark.
* `Text.Quoted.openAfter_encode_append`: an encoded text leaves an open quotation open.
* `Text.Quoted.openAfter_append_of_no_quote`: without quotation marks nothing is opened or closed.
-/

namespace SceneAudit.Text.Quoted

/-- A backslash before each quotation mark and each backslash. -/
def encode : List Char → List Char
  | [] => []
  | c :: rest => if c = '"' ∨ c = '\\' then '\\' :: c :: encode rest else c :: encode rest

/-- The quoted text with its escapes resolved, and what follows the closing quotation mark. The
opening one is not part of the input. There is none if the quotation is not closed. -/
def read : List Char → Option (List Char × List Char)
  | [] => none
  | ['\\'] => none
  | '\\' :: c :: rest => (read rest).map fun (value, tail) => (c :: value, tail)
  | '"' :: rest => some ([], rest)
  | c :: rest => (read rest).map fun (value, tail) => (c :: value, tail)

/-- Whether a quotation is open after a piece of text, given whether one is open before it. Outside
of quotations a backslash is an ordinary character. -/
def openAfter : Bool → List Char → Bool
  | inside, [] => inside
  | true, ['\\'] => true
  | true, '\\' :: _ :: rest => openAfter true rest
  | inside, '"' :: rest => openAfter (!inside) rest
  | inside, _ :: rest => openAfter inside rest

/-! ### Reading back -/

theorem encode_cons (c : Char) (rest : List Char) :
    encode (c :: rest) =
      if c = '"' ∨ c = '\\' then '\\' :: c :: encode rest else c :: encode rest := rfl

theorem encode_append (s t : List Char) : encode (s ++ t) = encode s ++ encode t := by
  induction s with
  | nil => rfl
  | cons c s ih => by_cases h : c = '"' ∨ c = '\\' <;> simp [encode_cons, h, ih]

/-- Only backslashes are added. -/
theorem count_encode {c : Char} (other : c ≠ '\\') (s : List Char) :
    (encode s).count c = s.count c := by
  induction s with
  | nil => rfl
  | cons d s ih =>
    rw [encode_cons]
    split
    · rw [List.count_cons_of_ne other.symm, List.count_cons, List.count_cons, ih]
    · rw [List.count_cons, List.count_cons, ih]

theorem mem_encode {c : Char} (other : c ≠ '\\') {s : List Char} : c ∈ encode s ↔ c ∈ s := by
  rw [← List.count_pos_iff, ← List.count_pos_iff, count_encode other]

private theorem length_le_length_encode (s : List Char) : s.length ≤ (encode s).length := by
  induction s with
  | nil => exact Nat.le_refl 0
  | cons c s ih =>
    rw [encode_cons]
    split <;> simp only [List.length_cons] <;> omega

/-- Only a text without quotation marks and backslashes is encoded as itself. -/
theorem encode_eq_self_iff {s : List Char} : encode s = s ↔ ∀ c ∈ s, c ≠ '"' ∧ c ≠ '\\' := by
  induction s with
  | nil => simp [encode]
  | cons c s ih =>
    rw [encode_cons, List.forall_mem_cons, ← ih, ← not_or]
    split
    · rename_i special
      refine iff_of_false (fun same => ?_) fun plain => plain.1 special
      have longer := length_le_length_encode s
      have lengths := congrArg List.length same
      simp only [List.length_cons] at lengths
      omega
    · rename_i plain
      simp [plain]

theorem read_escape (c : Char) (rest : List Char) :
    read ('\\' :: c :: rest) = (read rest).map fun (value, tail) => (c :: value, tail) := by
  rw [read]

theorem read_plain {c : Char} (rest : List Char) (quote : c ≠ '"') (slash : c ≠ '\\') :
    read (c :: rest) = (read rest).map fun (value, tail) => (c :: value, tail) := by
  rw [read]
  · exact fun h => absurd h slash
  · exact fun _ _ h => absurd h slash
  · exact quote

/-- An encoded text is read back up to its closing quotation mark, whatever follows. -/
theorem read_encode (s rest : List Char) : read (encode s ++ '"' :: rest) = some (s, rest) := by
  induction s with
  | nil => simp [encode, read]
  | cons c s ih =>
    rw [encode_cons]
    split
    · rw [List.cons_append, List.cons_append, read_escape, ih]
      rfl
    · rename_i h
      rw [List.cons_append, read_plain _ (fun q => h (.inl q)) (fun q => h (.inr q)), ih]
      rfl

/-- What is read are characters of the text, and what follows is its end, without the closing
quotation mark. -/
theorem exists_of_read {s value rest : List Char} (h : read s = some (value, rest)) :
    ∃ front, s = front ++ '"' :: rest ∧ value ⊆ front := by
  fun_induction read s generalizing value with
  | case1 | case2 => simp at h
  | case4 tail =>
    simp only [Option.some.injEq, Prod.mk.injEq] at h
    obtain ⟨rfl, rfl⟩ := h
    exact ⟨[], rfl, List.nil_subset _⟩
  | case3 c tail ih =>
    obtain ⟨⟨v, t⟩, found, eq⟩ := Option.map_eq_some_iff.1 h
    simp only [Prod.mk.injEq] at eq
    obtain ⟨rfl, rfl⟩ := eq
    obtain ⟨front, rfl, inside⟩ := ih found
    exact ⟨'\\' :: c :: front, rfl,
      List.subset_cons_of_subset _ (List.cons_subset_cons c inside)⟩
  | case5 c tail _ _ _ ih =>
    obtain ⟨⟨v, t⟩, found, eq⟩ := Option.map_eq_some_iff.1 h
    simp only [Prod.mk.injEq] at eq
    obtain ⟨rfl, rfl⟩ := eq
    obtain ⟨front, rfl, inside⟩ := ih found
    exact ⟨c :: front, rfl, List.cons_subset_cons c inside⟩

/-! ### Open quotations -/

/-- An encoded text leaves an open quotation open, whatever follows it. -/
theorem openAfter_encode_append (s rest : List Char) :
    openAfter true (encode s ++ rest) = openAfter true rest := by
  induction s with
  | nil => rfl
  | cons c s ih =>
    rw [encode_cons]
    split
    · rw [List.cons_append, List.cons_append, openAfter]
      exact ih
    · rename_i h
      rw [List.cons_append, openAfter]
      · exact ih
      · exact fun q => h (.inl q)
      · exact fun _ q _ => h (.inr q)
      · exact fun _ _ _ q _ => h (.inr q)

theorem openAfter_encode (s : List Char) : openAfter true (encode s) = true := by
  have closed := openAfter_encode_append s []
  rwa [List.append_nil] at closed

/-- Without quotation marks nothing is opened and nothing is closed. -/
theorem openAfter_of_no_quote {inside : Bool} {s : List Char} (plain : '"' ∉ s) :
    openAfter inside s = inside := by
  fun_induction openAfter inside s with
  | case1 | case2 => rfl
  | case3 c rest ih => exact ih fun mem => plain (by simp [mem])
  | case4 => exact absurd List.mem_cons_self plain
  | case5 inside c rest _ _ _ ih => exact ih fun mem => plain (List.mem_cons_of_mem c mem)

theorem openAfter_append_of_no_quote (inside : Bool) (s : List Char) {trail : List Char}
    (plain : '"' ∉ trail) : openAfter inside (s ++ trail) = openAfter inside s := by
  fun_induction openAfter inside s with
  | case1 inside => exact openAfter_of_no_quote plain
  | case2 =>
    -- The backslash may now escape the first of the further characters, which is no mark either.
    cases trail with
    | nil => rfl
    | cons c trail =>
      rw [List.singleton_append, openAfter]
      exact openAfter_of_no_quote fun mem => plain (List.mem_cons_of_mem c mem)
  | case3 c rest ih =>
    rw [List.cons_append, List.cons_append, openAfter]
    exact ih
  | case4 inside rest ih =>
    rw [List.cons_append, openAfter]
    exact ih
  | case5 inside c rest single escape quote ih =>
    have plain : inside = true → c ≠ '\\' := by
      rintro rfl rfl
      cases rest with
      | nil => exact single rfl rfl rfl
      | cons d rest => exact escape d rest rfl rfl rfl
    rw [List.cons_append, openAfter]
    · exact ih
    · exact quote
    · exact fun opened slash _ => plain opened slash
    · exact fun _ _ opened slash _ => plain opened slash

/-- Outside of quotations everything up to the first quotation mark is passed over. -/
theorem openAfter_false_append {lead : List Char} (plain : '"' ∉ lead) (s : List Char) :
    openAfter false (lead ++ s) = openAfter false s := by
  induction lead with
  | nil => rfl
  | cons c lead ih =>
    rw [List.mem_cons, not_or] at plain
    rw [List.cons_append, openAfter]
    · exact ih plain.2
    · exact fun q => plain.1 q.symm
    · exact nofun
    · exact nofun

end SceneAudit.Text.Quoted
