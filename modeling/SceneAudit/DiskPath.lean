import SceneAudit.Text.Segment

/-!
# Paths on a disk

A path on a disk is a text that is cut at its slashes. It starts at the root of the disk if it
begins with a slash, and at the working directory otherwise. Comparing paths goes by their
components and not by their text: empty segments and single dots are of no consequence, except
that a path which begins with a single dot has this dot as its first component, while a double
dot is a component like any other.

## Main definitions

* `DiskPath.isAbsolute`, `DiskPath.join`: a path seen from another one.
* `DiskPath.components`, `DiskPath.below?`: the components of a path, and those of them that
  follow the components of another path.
* `DiskPath.extension?`: the extension of the name of a file.

## Main results

* `DiskPath.below?_eq_some_iff`: what follows the components of another path.
* `DiskPath.extension?_eq_some_iff`: which names have an extension.
-/

namespace SceneAudit.DiskPath

open Text

/-- Whether a path starts at the root of the disk. -/
def isAbsolute (path : String) : Bool :=
  path.toList.head? = some '/'

/-- The path as seen from a base: itself if it is absolute, and otherwise appended to the base,
with a slash between them unless the base is empty or ends with one. -/
def join (base path : String) : String :=
  if isAbsolute path then path
  else if base.toList.getLast?.any (· ≠ '/') then base ++ "/" ++ path
  else base ++ path

/-- The components of a path. The root of the disk is the component `/`. -/
def components (path : String) : List String :=
  let parts := segments path
  let mark :=
    if isAbsolute path then ["/"]
    else if parts.head? = some "." then ["."]
    else []
  mark ++ parts.filter fun part => part ≠ "" ∧ part ≠ "."

/-- What is left of `parts` after all of `front`, if `parts` begins with `front`. -/
def dropFront? : List String → List String → Option (List String)
  | [], parts => some parts
  | _ :: _, [] => none
  | first :: front, part :: parts => if first = part then dropFront? front parts else none

/-- The components of `path` that follow those of `base`, if `path` begins with those of `base`. -/
def below? (base path : String) : Option (List String) :=
  dropFront? (components base) (components path)

/-- What follows the last dot of a name, if there is a dot and something in front of it. -/
def extension? (name : List Char) : Option (List Char) :=
  match name.reverse.dropWhile (· ≠ '.') with
  | _ :: _ :: _ => some (name.reverse.takeWhile (· ≠ '.')).reverse
  | _ => none

/-! ### Fronts and extensions -/

private theorem dropFront?_eq_some_iff {front parts rest : List String} :
    dropFront? front parts = some rest ↔ parts = front ++ rest := by
  induction front generalizing parts with
  | nil => simp [dropFront?]
  | cons first front ih =>
    cases parts with
    | nil => simp [dropFront?]
    | cons part parts =>
      rw [dropFront?]
      split
      case isTrue h => simp [ih, h]
      case isFalse h => simp [Ne.symm h]

/-- What follows the components of another path. -/
theorem below?_eq_some_iff {base path : String} {rest : List String} :
    below? base path = some rest ↔ components path = components base ++ rest :=
  dropFront?_eq_some_iff

/-- The extension of a name is what follows its last dot, if something is in front of the dot. -/
theorem extension?_append {stem ext : List Char} (hstem : stem ≠ []) (hext : '.' ∉ ext) :
    extension? (stem ++ '.' :: ext) = some ext := by
  have plain : ∀ c ∈ ext.reverse, (decide (c ≠ '.')) = true := by
    intro c hc
    simp only [decide_eq_true_eq]
    rintro rfl
    exact hext (List.mem_reverse.1 hc)
  obtain ⟨c, rest, hrest⟩ : ∃ c rest, stem.reverse = c :: rest :=
    List.exists_cons_of_ne_nil (by simpa using hstem)
  have key : (stem ++ '.' :: ext).reverse = ext.reverse ++ '.' :: c :: rest := by simp [hrest]
  rw [extension?, key, List.dropWhile_append_of_pos plain, List.takeWhile_append_of_pos plain]
  simp

/-- A name has an extension if it goes on behind its last dot and something is in front of it. -/
theorem extension?_eq_some_iff {name ext : List Char} :
    extension? name = some ext ↔
      ∃ stem, stem ≠ [] ∧ '.' ∉ ext ∧ name = stem ++ '.' :: ext := by
  constructor
  · intro found
    have cut : name.reverse.takeWhile (· ≠ '.') ++ name.reverse.dropWhile (· ≠ '.') =
        name.reverse := List.takeWhile_append_dropWhile
    have plain := List.all_eq_true.1 (List.all_takeWhile (p := (· ≠ '.')) (l := name.reverse))
    rw [extension?] at found
    split at found
    · rename_i dot c rest rear
      have stops := List.head?_dropWhile_not (· ≠ '.') name.reverse
      rw [rear] at cut stops
      obtain rfl : dot = '.' := by simpa using stops
      obtain rfl := Option.some.inj found
      refine ⟨(c :: rest).reverse, by simp, fun mem => ?_, ?_⟩
      · exact absurd rfl (of_decide_eq_true (plain '.' (List.mem_reverse.1 mem)))
      · have turned := congrArg List.reverse cut
        rw [List.reverse_reverse, List.reverse_append, List.reverse_cons, List.append_assoc,
          List.singleton_append] at turned
        exact turned.symm
    · contradiction
  · rintro ⟨stem, nonempty, noDot, rfl⟩
    exact extension?_append nonempty noDot

end SceneAudit.DiskPath
