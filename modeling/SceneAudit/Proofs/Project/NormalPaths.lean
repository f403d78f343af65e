import SceneAudit.Proofs.Project.SceneNames

/-!
# Normal forms of paths

Bringing a path into normal form goes through its segments and keeps a stack of those that are left.
Everything on the stack is a segment of a normal form, whatever the path is, and a segment of a
normal form is put on the stack as it is. So the paths in normal form are those that stay as they
are; and a path that goes on behind a slash has the same normal form if what is in front of the
slash is in normal form already. A script that a scene names has a path in normal form. Joined to
the root of the project it leads to a place below the root, since no segment of it leads up.

## Main results

* `ProjectPath.isSegment_of_mem_reduce`: what is left on the stack.
* `ProjectPath.normalSegments_joinPieces`: segments of a normal form are left as they are.
* `ProjectPath.normalize_eq_self_iff`: which paths stay as they are.
* `ProjectPath.normalize_append_slash`: a path may be brought into normal form in two goes.
* `ProjectPath.components_join_joinSegments`, `ProjectPath.follow_join_joinSegments`: a path in
  normal form stays below the one that it is joined to.
* `ProjectPath.normalize_normal`: the laws of normal forms, and where scripts are looked for.
-/

namespace SceneAudit.ProjectPath

open Text

/-! ### The stack of segments -/

section Stack

variable {stack parts : List (List Char)} {piece path : List Char}

private theorem backslash_not_mem_unify (path : List Char) : '\\' ∉ unify path := by
  intro mem
  obtain ⟨c, -, same⟩ := List.mem_map.1 mem
  split at same
  · exact absurd same (by decide)
  · contradiction

private theorem isSegment_of_mem_push (proper : ∀ segment ∈ stack, IsSegment segment)
    (slash : '/' ∉ piece) (backslash : '\\' ∉ piece) :
    ∀ segment ∈ push stack piece, IsSegment segment := by
  rw [push]
  split
  · exact proper
  · rename_i counts
    split
    · exact fun segment mem => proper segment (List.mem_of_mem_tail mem)
    · rename_i down
      rw [not_or] at counts
      exact List.forall_mem_cons.2 ⟨⟨counts.1, counts.2, down, slash, backslash⟩, proper⟩

/-- What is left on the stack are segments of a normal form. -/
theorem isSegment_of_mem_reduce (proper : ∀ segment ∈ stack, IsSegment segment)
    (cut : ∀ piece ∈ parts, '/' ∉ piece ∧ '\\' ∉ piece) :
    ∀ segment ∈ reduce stack parts, IsSegment segment := by
  induction parts generalizing stack with
  | nil => exact proper
  | cons piece parts ih =>
    obtain ⟨⟨slash, backslash⟩, others⟩ := List.forall_mem_cons.1 cut
    exact ih (isSegment_of_mem_push proper slash backslash) others

theorem isSegment_of_mem_normalSegments (path : List Char) :
    ∀ segment ∈ normalSegments path, IsSegment segment := by
  intro segment mem
  have empty : ∀ segment ∈ ([] : List (List Char)), IsSegment segment := List.forall_mem_nil _
  refine isSegment_of_mem_reduce empty (fun piece listed => ?_) segment (List.mem_reverse.1 mem)
  refine ⟨slash_not_mem_of_mem_pieces listed, fun within => backslash_not_mem_unify path ?_⟩
  rw [← joinPieces_pieces (unify path)]
  exact subset_joinPieces listed within

/-- Segments of a normal form are put on the stack as they are. -/
private theorem reduce_of_isSegment (proper : ∀ segment ∈ parts, IsSegment segment)
    (stack : List (List Char)) : reduce stack parts = parts.reverse ++ stack := by
  induction parts generalizing stack with
  | nil => rfl
  | cons piece parts ih =>
    obtain ⟨⟨nonempty, notDot, notDots, -⟩, others⟩ := List.forall_mem_cons.1 proper
    have pushed : push stack piece = piece :: stack := by
      rw [push, if_neg fun h => h.elim nonempty notDot, if_neg notDots]
    change reduce (push stack piece) parts = _
    rw [pushed, ih others, List.reverse_cons, List.append_assoc, List.singleton_append]

/-- Segments of a normal form are left as they are. -/
theorem normalSegments_joinPieces (proper : ∀ segment ∈ parts, IsSegment segment) :
    normalSegments (joinPieces parts) = parts := by
  by_cases empty : parts = []
  · subst empty
    rfl
  · have slashes : '\\' ∉ joinPieces parts := by
      intro mem
      rcases mem_joinPieces mem with slash | ⟨segment, listed, within⟩
      · exact absurd slash (by decide)
      · exact (proper segment listed).2.2.2.2 within
    rw [normalSegments, unify_eq_self slashes,
      pieces_joinPieces empty fun segment mem => (proper segment mem).2.2.2.1,
      reduce_of_isSegment proper, List.append_nil, List.reverse_reverse]

/-- Reducing goes on behind a slash with what is left in front of it. -/
private theorem normalSegments_append_slash (front back : List Char) :
    normalSegments (front ++ '/' :: back) =
      (reduce (normalSegments front).reverse (pieces (unify back))).reverse := by
  have unified : unify (front ++ '/' :: back) = unify front ++ '/' :: unify back := by
    rw [unify, List.map_append, List.map_cons]
    rfl
  rw [normalSegments, unified, pieces_append_slash, reduce_append, normalSegments,
    List.reverse_reverse]

end Stack

/-! ### Normal forms -/

variable {path : String} {names : List String}

theorem toList_normalize (path : String) :
    (normalize path).toList = joinPieces (normalSegments path.toList) :=
  String.toList_ofList

theorem isNormal_normalize (path : String) : IsNormal (normalize path) :=
  ⟨_, isSegment_of_mem_normalSegments path.toList, toList_normalize path⟩

/-- The paths in normal form are those that stay as they are. -/
theorem normalize_eq_self_iff : normalize path = path ↔ IsNormal path := by
  constructor
  · intro same
    exact same ▸ isNormal_normalize path
  · rintro ⟨parts, proper, eq⟩
    rw [normalize, eq, normalSegments_joinPieces proper, ← eq, String.ofList_toList]

/-- What is in front of a slash may be brought into normal form beforehand. -/
theorem normalize_append_slash (front back : String) :
    normalize (front ++ "/" ++ back) = normalize (normalize front ++ "/" ++ back) := by
  have slash : "/".toList = ['/'] := rfl
  have kept : normalSegments (normalize front).toList = normalSegments front.toList := by
    rw [toList_normalize, normalSegments_joinPieces (isSegment_of_mem_normalSegments front.toList)]
  simp only [normalize, String.toList_append, slash, List.append_assoc, List.singleton_append,
    normalSegments_append_slash]
  rw [← normalize, kept]

/-- A script that a scene names has a path in normal form. -/
private theorem isNormal_ofScript (scene script : String) : IsNormal (ofScript scene script) := by
  rw [ofScript]
  split
  · exact isNormal_normalize _
  · split
    · exact isNormal_normalize _
    · exact isNormal_normalize _

/-- A path in normal form is made of names. -/
private theorem IsNormal.exists_names (normal : IsNormal path) :
    ∃ names : List String, (∀ name ∈ names, IsSegment name.toList) ∧ path = joinSegments names := by
  obtain ⟨parts, proper, eq⟩ := normal
  refine ⟨parts.map String.ofList, List.forall_mem_map.2 fun segment mem => ?_, ?_⟩
  · rw [String.toList_ofList]
    exact proper segment mem
  · rw [joinSegments_map_ofList, ← eq, String.ofList_toList]

/-! ### Below the root -/

section Below

variable (proper : ∀ name ∈ names, IsSegment name.toList)

include proper

theorem ne_of_isSegment : ∀ name ∈ names, name ≠ "" ∧ name ≠ "." ∧ name ≠ ".." := by
  intro name mem
  obtain ⟨nonempty, notDot, notDots, -⟩ := proper name mem
  refine ⟨?_, ?_, ?_⟩ <;> rintro rfl
  · exact nonempty rfl
  · exact notDot rfl
  · exact notDots rfl

theorem segments_joinSegments_names (some : names ≠ []) :
    segments (joinSegments names) = names :=
  segments_joinSegments some fun name mem => (proper name mem).2.2.2.1

theorem parts_joinSegments : DiskPath.parts (joinSegments names) = names := by
  by_cases empty : names = []
  · subst empty
    rfl
  · rw [DiskPath.parts, segments_joinSegments_names proper empty, List.filter_eq_self]
    intro name mem
    have solid := ne_of_isSegment proper name mem
    exact decide_eq_true ⟨solid.1, solid.2.1⟩

theorem isAbsolute_names : DiskPath.isAbsolute (joinSegments names) = false :=
  DiskPath.isAbsolute_joinSegments fun name mem =>
    ⟨(ne_of_isSegment proper name mem).1, (proper name mem).2.2.2.1⟩

/-- The names of a path in normal form follow the components of the path that it is joined to. -/
theorem components_join_joinSegments (root : String) :
    DiskPath.components (DiskPath.join root (joinSegments names)) =
      DiskPath.components root ++ names := by
  have relative := isAbsolute_names proper
  by_cases rooted : root = ""
  · subst rooted
    have alone : DiskPath.join "" (joinSegments names) = joinSegments names := by
      rw [DiskPath.join, relative]
      exact String.empty_append
    have mark : (segments (joinSegments names)).head? ≠ some "." := by
      intro start
      by_cases empty : names = []
      · subst empty
        exact absurd start (by decide)
      · rw [segments_joinSegments_names proper empty] at start
        exact (ne_of_isSegment proper "." (List.mem_of_head? start)).2.1 rfl
    have parts := parts_joinSegments proper
    rw [DiskPath.parts] at parts
    rw [alone, DiskPath.components, relative, if_neg Bool.false_ne_true, if_neg mark,
      List.nil_append, parts]
    rfl
  · rw [DiskPath.components_join rooted relative, parts_joinSegments proper]

private theorem staysInside_names (depth : Nat) : DiskPath.staysInside depth names = true := by
  induction names generalizing depth with
  | nil => rfl
  | cons name names ih =>
    obtain ⟨-, others⟩ := List.forall_mem_cons.1 proper
    obtain ⟨nonempty, notDot, notDots⟩ := ne_of_isSegment proper name List.mem_cons_self
    rw [DiskPath.staysInside, if_neg fun h => h.elim nonempty notDot, if_neg notDots]
    exact ih others (depth + 1)

/-- A path in normal form that is joined to another one leads below the place of the other one, or
to this place itself. -/
theorem follow_join_joinSegments {root : String} {disk : Disk} {place next : Disk.Place}
    (rooted : disk.follow root = .ok place)
    (reached : disk.follow (DiskPath.join root (joinSegments names)) = .ok next) :
    next = place ∨ place.lost = 0 ∧ next = ⟨place.way ++ names, 0⟩ := by
  obtain ⟨-, -, walked⟩ := (Disk.follow_join_iff rooted (isAbsolute_names proper)).1 reached
  by_cases lost : place.lost = 0
  · right
    obtain ⟨way, _⟩ := place
    obtain rfl := lost
    refine ⟨rfl, ?_⟩
    have down : ∀ name ∈ names, ∀ way, Disk.advance way name = way ++ [name] := by
      intro name mem way
      obtain ⟨nonempty, notDot, notDots⟩ := ne_of_isSegment proper name mem
      exact Disk.advance_name nonempty notDot notDots way
    rw [Disk.foldlM_step_eq_ok walked, ← Disk.foldl_advance_parts, parts_joinSegments proper,
      Disk.foldl_advance_names down]
  · left
    refine Disk.foldlM_step_of_lost lost ?_ walked
    by_cases empty : names = []
    · subst empty
      rfl
    · rw [segments_joinSegments_names proper empty]
      exact staysInside_names proper 0

end Below

/-- **Normal forms.** The normal form of a path is in normal form, is its own normal form, and is
the path itself exactly if this is in normal form; and a path may be brought into normal form in two
goes. The path of a script that a scene names is in normal form. Joined to the root of the project
it is below the root, by the components of the path, and leads to a place below the root or to
nothing, wherever the root may lead: the place is found by its names from the root, or it is the
root itself. -/
theorem normalize_normal (a b root scene script : String) :
    IsNormal (normalize a) ∧ normalize (normalize a) = normalize a ∧
      (normalize a = a ↔ IsNormal a) ∧
      normalize (a ++ "/" ++ b) = normalize (normalize a ++ "/" ++ b) ∧
      IsNormal (ofScript scene script) ∧
      ∃ names : List String, (∀ name ∈ names, IsSegment name.toList) ∧
        ofScript scene script = joinSegments names ∧
        DiskPath.below? root (DiskPath.join root (ofScript scene script)) = some names ∧
        ∀ (disk : Disk) (place next : Disk.Place), disk.follow root = .ok place →
          disk.follow (DiskPath.join root (ofScript scene script)) = .ok next →
            next = place ∨ place.lost = 0 ∧ next = ⟨place.way ++ names, 0⟩ := by
  have normal := isNormal_ofScript scene script
  obtain ⟨names, proper, eq⟩ := normal.exists_names
  refine ⟨isNormal_normalize a, normalize_eq_self_iff.2 (isNormal_normalize a),
    normalize_eq_self_iff, normalize_append_slash a b, normal, names, proper, eq, ?_, ?_⟩
  · rw [eq, DiskPath.below?_eq_some_iff]
    exact components_join_joinSegments proper root
  · intro disk place next rooted reached
    rw [eq] at reached
    exact follow_join_joinSegments proper rooted reached

/-- A project with notes, beside other notes. -/
def besideNotes : Disk where
  tree := .directory [("game", .directory [("notes.gd", .file .empty)]), ("notes.gd", .file .empty)]
  workingDirectory := ["game"]

/-- A scene names a script by too many double dots. The script is looked for in the project, where
there is one, and not beside it. -/
theorem normalize_normal_notes :
    besideNotes.follow "." = .ok ⟨["game"], 0⟩ ∧
      besideNotes.follow (DiskPath.join "." (ofScript "scenes/hud.tscn" "..\\../../notes.gd")) =
        .ok ⟨["game", "notes.gd"], 0⟩ ∧
      ∃ names : List String, (∀ name ∈ names, IsSegment name.toList) ∧
        ofScript "scenes/hud.tscn" "..\\../../notes.gd" = joinSegments names ∧
        (⟨["game", "notes.gd"], 0⟩ : Disk.Place) = ⟨["game"] ++ names, 0⟩ := by
  have rooted : besideNotes.follow "." = .ok ⟨["game"], 0⟩ := by with_unfolding_all rfl
  have reached : besideNotes.follow
      (DiskPath.join "." (ofScript "scenes/hud.tscn" "..\\../../notes.gd")) =
        .ok ⟨["game", "notes.gd"], 0⟩ := by with_unfolding_all rfl
  obtain ⟨-, -, -, -, -, names, proper, eq, -, below⟩ :=
    normalize_normal "" "" "." "scenes/hud.tscn" "..\\../../notes.gd"
  refine ⟨rooted, reached, names, proper, eq, ?_⟩
  rcases below _ _ _ rooted reached with same | ⟨-, inside⟩
  · exact absurd same (by decide)
  · exact inside

end SceneAudit.ProjectPath
