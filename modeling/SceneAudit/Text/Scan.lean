/-!
# Matching at the front of a text

## Main definitions

* `Text.after?`: what follows a fixed piece of text at the front of another.

## Main results

* `Text.after?_eq_some_iff`: it is there exactly if the text begins with the piece.
* `Text.dropWhile_append_cons`, `Text.takeWhile_append_cons`: a run of characters goes no further
  than the first character that is none of them, whatever comes after that.
* `Text.takeWhile_append_of_stop`, `Text.dropWhile_append_of_stop`: it is the whole front of a text,
  if the first character behind the front is none of them.
-/

namespace SceneAudit.Text

/-- What follows `piece` at the front of a text, if the text begins with it. -/
def after? : List Char → List Char → Option (List Char)
  | [], s => some s
  | _ :: _, [] => none
  | p :: piece, c :: s => if p = c then after? piece s else none

theorem after?_eq_some_iff {piece s rest : List Char} :
    after? piece s = some rest ↔ s = piece ++ rest := by
  fun_induction after? piece s with
  | case1 s => simp
  | case2 => simp
  | case3 piece c s ih => simp [ih]
  | case4 p piece c s ne =>
    have : c ≠ p := fun h => ne h.symm
    simp [this]

/-! ### Runs of characters -/

theorem bne_of_not_mem {α : Type} [BEq α] [LawfulBEq α] {a : α} {s : List α} (h : a ∉ s) :
    ∀ b ∈ s, (b != a) = true :=
  fun _ mem => bne_iff_ne.2 fun same => h (same ▸ mem)

theorem dropWhile_append_cons {p : Char → Bool} {c : Char} (stop : p c = false)
    (s rest : List Char) : (s ++ c :: rest).dropWhile p = s.dropWhile p ++ c :: rest := by
  rw [List.dropWhile_append]
  split
  · rename_i all
    simp [List.isEmpty_iff.1 all, stop]
  · rfl

theorem takeWhile_append_cons {p : Char → Bool} {c : Char} (stop : p c = false)
    (s rest : List Char) : (s ++ c :: rest).takeWhile p = s.takeWhile p := by
  rw [List.takeWhile_append]
  split
  · rename_i all
    rw [List.takeWhile_cons_of_neg (by simp [stop]), List.append_nil]
    exact ((List.takeWhile_prefix p).eq_of_length all).symm
  · rfl

section Stop

variable {p : Char → Bool} {s rest : List Char} (chars : ∀ c ∈ s, p c = true)
  (stop : ∀ c ∈ rest.head?, p c = false)

include chars stop

theorem takeWhile_append_of_stop : (s ++ rest).takeWhile p = s := by
  rw [List.takeWhile_append_of_pos chars]
  cases rest with
  | nil => rw [List.takeWhile_nil, List.append_nil]
  | cons c rest =>
    have none : p c = false := stop c (by simp)
    rw [List.takeWhile_cons_of_neg (by simp [none]), List.append_nil]

theorem dropWhile_append_of_stop : (s ++ rest).dropWhile p = rest := by
  rw [List.dropWhile_append_of_pos chars]
  cases rest with
  | nil => rfl
  | cons c rest =>
    have none : p c = false := stop c (by simp)
    rw [List.dropWhile_cons_of_neg (by simp [none])]

end Stop

end SceneAudit.Text
