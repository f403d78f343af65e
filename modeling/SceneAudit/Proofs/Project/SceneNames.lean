import SceneAudit.Project.Discovery
import SceneAudit.Proofs.Disk.Following

/-!
# Names of discovered scenes

A scene that is discovered is named by its path from the root of the project, in normal form. The
name is made from the path of the scenes directory and from the way to the scene, and a double dot
in the scenes directory takes back the segment before it. Where a disk would be led above the root,
nothing is taken back; and a backslash is read as a slash although a name on a disk may hold one.
Where neither happens, the name leads from the root to the scene.

## Main definitions

* `DiskPath.parts`: the segments of a path that are of consequence.
* `CheckOptions.scenePath`: the path from the root to what is at the end of a way.
* `CheckOptions.sceneName`: the name of what is at the end of a way.

## Main results

* `DiskPath.components_join`: the components of a path that is joined to another one.
* `ProjectPath.normalize_eq`: the normal form of a path goes where a disk would go.
* `Disk.foldl_advance_append`: a path that stays inside leads to the same place below any other.
* `mapM_eq_ok_iff`, `exists_of_mapM_eq_error`: when there is a result for each member of a list.
* `CheckOptions.sceneFile_eq`, `CheckOptions.path_unreadablePlace`: the path from the root of a
  discovered scene, and of a directory that cannot be listed.
* `CheckOptions.normalize_scenePath`: the normal form of this path.
-/

namespace SceneAudit

open Text

namespace DiskPath

variable {base path : String}

/-- The segments of a path that are of consequence. -/
def parts (path : String) : List String :=
  (segments path).filter fun part => part ≠ "" ∧ part ≠ "."

/-- The components of a relative path follow those of the path that it is joined to. -/
theorem components_join (nonempty : base ≠ "") (relative : isAbsolute path = false) :
    components (join base path) = components base ++ parts path := by
  obtain ⟨front, some, joined, own⟩ := exists_segments_join nonempty relative
  obtain ⟨first, more, rfl⟩ := List.exists_cons_of_ne_nil some
  have head : (segments (join base path)).head? = (segments base).head? := by
    rcases own with eq | eq <;> rw [joined, eq] <;> rfl
  have blank : ([""] : List String).filter (fun part => part ≠ "" ∧ part ≠ ".") = [] := rfl
  rw [components, components, isAbsolute_join nonempty relative, head, parts]
  rcases own with eq | eq
  · rw [joined, eq, List.filter_append, List.append_assoc]
  · rw [joined, eq, List.filter_append, List.filter_append, blank, List.append_nil,
      List.append_assoc]

private theorem isAbsolute_of_isEntryName {name : String} (proper : FileTree.IsEntryName name) :
    isAbsolute name = false := by
  refine decide_eq_false fun start => proper.noSlash ?_
  exact List.mem_of_head? start

private theorem parts_of_isEntryName {name : String} (proper : FileTree.IsEntryName name) :
    parts name = [name] := by
  simp [parts, segments_of_no_slash proper.noSlash, proper.nonempty, proper.notDot]

/-- Names that are joined to a path one after the other are its last components. -/
theorem components_foldl_join {names : List String} (nonempty : base ≠ "")
    (proper : ∀ name ∈ names, FileTree.IsEntryName name) :
    components (names.foldl join base) = components base ++ names := by
  induction names generalizing base with
  | nil => exact (List.append_nil _).symm
  | cons name names ih =>
    obtain ⟨own, others⟩ := List.forall_mem_cons.1 proper
    have relative := isAbsolute_of_isEntryName own
    rw [List.foldl_cons, ih (join_ne_empty nonempty relative) others,
      components_join nonempty relative, parts_of_isEntryName own, List.append_assoc,
      List.singleton_append]

end DiskPath

/-! ### Normal forms and disks -/

namespace Disk

variable {base way : List String}

theorem advance_name {name : String} (nonempty : name ≠ "") (notDot : name ≠ ".")
    (notDots : name ≠ "..") (way : List String) : advance way name = way ++ [name] := by
  rw [advance, if_neg fun h => h.elim nonempty notDot, if_neg notDots]

/-- Names that each lead one level down are the end of the way. -/
theorem foldl_advance_names {names : List String}
    (down : ∀ name ∈ names, ∀ way, advance way name = way ++ [name]) (way : List String) :
    names.foldl advance way = way ++ names := by
  induction names generalizing way with
  | nil => exact (List.append_nil _).symm
  | cons name names ih =>
    obtain ⟨own, others⟩ := List.forall_mem_cons.1 down
    rw [List.foldl_cons, own, ih others, List.append_assoc, List.singleton_append]

/-- A way is made from the parts that it was followed along. -/
theorem mem_of_mem_foldl_advance {parts : List String} {name : String} (way : List String)
    (mem : name ∈ parts.foldl advance way) : name ∈ way ∨ name ∈ parts := by
  induction parts generalizing way with
  | nil => exact .inl mem
  | cons part parts ih =>
    have first : name ∈ advance way part → name ∈ way ∨ name = part := by
      rw [advance]
      split
      · exact .inl
      · split
        · exact fun kept => .inl ((List.dropLast_subset way) kept)
        · exact fun mem => (List.mem_append.1 mem).imp_right List.mem_singleton.1
    rw [List.mem_cons, ← or_assoc]
    exact (ih (advance way part) mem).imp_left first

/-- Segments of no consequence lead nowhere. -/
theorem foldl_advance_parts (path : String) (way : List String) :
    (DiskPath.parts path).foldl advance way = (segments path).foldl advance way := by
  rw [DiskPath.parts, List.foldl_filter]
  congr 1
  funext way part
  by_cases stays : part = "" ∨ part = "."
  · rw [advance, if_pos stays, ite_self]
  · rw [if_pos (decide_eq_true (not_or.1 stays))]

/-- A path that stays inside leads to the same place below any other one. -/
theorem foldl_advance_append (base way : List String) {parts : List String}
    (inside : DiskPath.staysInside way.length parts = true) :
    parts.foldl advance (base ++ way) = base ++ parts.foldl advance way := by
  induction parts generalizing way with
  | nil => rfl
  | cons part parts ih =>
    rw [DiskPath.staysInside] at inside
    rw [List.foldl_cons, List.foldl_cons, advance, advance]
    split at inside
    · rename_i stays
      rw [if_pos stays, if_pos stays, ih way inside]
    · rename_i moves
      rw [if_neg moves, if_neg moves]
      split at inside
      · rename_i up
        rw [Bool.and_eq_true, decide_eq_true_eq] at inside
        have some : way ≠ [] := List.ne_nil_of_length_pos inside.1
        rw [if_pos up, if_pos up, List.dropLast_append_of_ne_nil some, ih]
        rw [List.length_dropLast]
        exact inside.2
      · rename_i down
        rw [if_neg down, if_neg down, List.append_assoc, ih]
        rw [List.length_append]
        exact inside

end Disk

namespace ProjectPath

private theorem push_eq (stack : List (List Char)) (piece : List Char) :
    (push stack piece).reverse.map String.ofList =
      Disk.advance (stack.reverse.map String.ofList) (String.ofList piece) := by
  have empty : String.ofList piece = "" ↔ piece = [] := by
    rw [← String.toList_inj, String.toList_ofList, String.toList_empty]
  have dot : String.ofList piece = "." ↔ piece = ['.'] := by
    rw [← String.toList_inj, String.toList_ofList]
    rfl
  have dots : String.ofList piece = ".." ↔ piece = ['.', '.'] := by
    rw [← String.toList_inj, String.toList_ofList]
    rfl
  simp only [push, Disk.advance, empty, dot, dots]
  split
  · rfl
  · split
    · rw [List.map_reverse, List.map_reverse, List.map_tail, List.dropLast_reverse]
    · rw [List.reverse_cons, List.map_append, List.map_singleton]

/-- Reducing segments goes where a disk would go, the stack being the way read from its end. -/
private theorem reduce_eq (stack pieces : List (List Char)) :
    (reduce stack pieces).reverse.map String.ofList =
      (pieces.map String.ofList).foldl Disk.advance (stack.reverse.map String.ofList) := by
  induction pieces generalizing stack with
  | nil => rfl
  | cons piece pieces ih => rw [List.map_cons, List.foldl_cons, ← push_eq, ← ih]; rfl

/-- The normal form of a path without backslashes goes where a disk would go. -/
theorem normalize_eq {path : String} (slashes : '\\' ∉ path.toList) :
    normalize path = joinSegments ((segments path).foldl Disk.advance []) := by
  have reduced := reduce_eq [] (pieces path.toList)
  rw [List.reverse_nil, List.map_nil, ← segments] at reduced
  rw [← reduced, joinSegments_map_ofList, normalize, normalSegments, unify_eq_self slashes]

end ProjectPath

/-! ### Results of all or none -/

section Results

variable {α β ε : Type} {f : α → Except ε β} {xs : List α} {fault : ε}

/-- A list of results comes from a result for each member. -/
theorem mapM_eq_ok_iff {ys : List β} : xs.mapM f = .ok ys ↔ xs.map f = ys.map .ok := by
  induction xs generalizing ys with
  | nil => cases ys <;> simp [pure, Except.pure]
  | cons x xs ih =>
    rw [List.mapM_cons, List.map_cons]
    cases first : f x with
    | error fault => cases ys <;> simp [bind, Except.bind]
    | ok y =>
      cases rest : xs.mapM f with
      | error fault => cases ys <;> simp [bind, Except.bind, ← ih, rest]
      | ok others => cases ys <;> simp [bind, Except.bind, pure, Except.pure, ← ih, rest]

/-- Where there is no list of results, there is none for one of the members. -/
theorem exists_of_mapM_eq_error (failed : xs.mapM f = .error fault) :
    ∃ x ∈ xs, f x = .error fault := by
  induction xs with
  | nil => contradiction
  | cons x xs ih =>
    rw [List.mapM_cons] at failed
    cases first : f x with
    | error fault' =>
      rw [first] at failed
      exact ⟨x, List.mem_cons_self, first.trans (congrArg _ (Except.error.inj failed))⟩
    | ok y =>
      cases rest : xs.mapM f with
      | error fault' =>
        rw [first, rest] at failed
        obtain ⟨x', mem, here⟩ := ih (rest.trans (congrArg _ (Except.error.inj failed)))
        exact ⟨x', List.mem_cons_of_mem x mem, here⟩
      | ok ys =>
        rw [first, rest] at failed
        contradiction

end Results

/-! ### Names of scenes -/

namespace CheckOptions

variable {options : CheckOptions} {way other : List String}

/-- The path from the root to what is at the end of a way, through the scenes directory. -/
def scenePath (options : CheckOptions) (way : List String) : String :=
  joinSegments (DiskPath.parts options.scenesDirectory ++ way)

/-- The name of what is at the end of a way: the way to the scenes directory with all double dots
taken back, and then the way from there. -/
def sceneName (options : CheckOptions) (way : List String) : String :=
  joinSegments ((segments options.scenesDirectory).foldl Disk.advance [] ++ way)

/-- What is met below a scenes directory in the project is below the root. -/
theorem below?_walkedPath (rooted : options.root ≠ "")
    (relative : DiskPath.isAbsolute options.scenesDirectory = false)
    (proper : ∀ name ∈ way, FileTree.IsEntryName name) :
    DiskPath.below? options.root (options.walkedPath way) =
      some (DiskPath.parts options.scenesDirectory ++ way) := by
  rw [DiskPath.below?_eq_some_iff, walkedPath, start,
    DiskPath.components_foldl_join (DiskPath.join_ne_empty rooted relative) proper,
    DiskPath.components_join rooted relative, List.append_assoc]

/-- The path of a discovered scene from the root. -/
theorem sceneFile_eq (rooted : options.root ≠ "")
    (relative : DiskPath.isAbsolute options.scenesDirectory = false)
    (proper : ∀ name ∈ way, FileTree.IsEntryName name) :
    options.sceneFile way = .ok (options.scenePath way) := by
  simp only [sceneFile, below?_walkedPath rooted relative proper, scenePath]

/-- A directory that cannot be listed is reported by its path from the root. -/
theorem path_unreadablePlace (rooted : options.root ≠ "")
    (relative : DiskPath.isAbsolute options.scenesDirectory = false)
    (proper : ∀ name ∈ way, FileTree.IsEntryName name) (fault : Disk.Fault) :
    (options.unreadablePlace way fault).path = options.scenePath way := by
  simp only [unreadablePlace, below?_walkedPath rooted relative proper, scenePath]

theorem mapM_sceneFile {ways : List (List String)} (rooted : options.root ≠ "")
    (relative : DiskPath.isAbsolute options.scenesDirectory = false)
    (proper : ∀ way ∈ ways, ∀ name ∈ way, FileTree.IsEntryName name) :
    ways.mapM options.sceneFile = .ok (ways.map options.scenePath) := by
  rw [mapM_eq_ok_iff, List.map_map]
  exact List.map_congr_left fun way mem => sceneFile_eq rooted relative (proper way mem)

/-- The path of a discovered scene goes through the scenes directory. -/
private theorem segments_scenePath (some : way ≠ [])
    (proper : ∀ name ∈ way, FileTree.IsEntryName name) :
    segments (options.scenePath way) = DiskPath.parts options.scenesDirectory ++ way := by
  refine segments_joinSegments (List.append_ne_nil_of_right_ne_nil _ some) fun part mem => ?_
  rcases List.mem_append.1 mem with inside | onWay
  · exact slash_not_mem_of_mem_segments (List.mem_filter.1 inside).1
  · exact (proper part onWay).noSlash

/-- The name of a scene has the way to it as its segments. -/
theorem segments_sceneName (some : way ≠ []) (proper : ∀ name ∈ way, FileTree.IsEntryName name) :
    segments (options.sceneName way) =
      (segments options.scenesDirectory).foldl Disk.advance [] ++ way := by
  refine segments_joinSegments (List.append_ne_nil_of_right_ne_nil _ some) fun part mem => ?_
  rcases List.mem_append.1 mem with inside | onWay
  · rcases Disk.mem_of_mem_foldl_advance [] inside with none | listed
    · contradiction
    · exact slash_not_mem_of_mem_segments listed
  · exact (proper part onWay).noSlash

/-- The normal form of this path is the name of the scene. -/
theorem normalize_scenePath (some : way ≠ [])
    (proper : ∀ name ∈ way, FileTree.IsEntryName name)
    (slashes : '\\' ∉ options.scenesDirectory.toList)
    (names : ∀ name ∈ way, '\\' ∉ name.toList) :
    ProjectPath.normalize (options.scenePath way) = options.sceneName way := by
  have plain : '\\' ∉ (options.scenePath way).toList := by
    intro mem
    rcases mem_joinSegments mem with slash | ⟨part, listed, within⟩
    · exact absurd slash (by decide)
    · rcases List.mem_append.1 listed with inside | onWay
      · exact slashes (subset_of_mem_segments (List.mem_filter.1 inside).1 within)
      · exact names part onWay within
  have down : ∀ name ∈ way, ∀ start, Disk.advance start name = start ++ [name] := fun name mem =>
    Disk.advance_name (proper name mem).nonempty (proper name mem).notDot (proper name mem).notDots
  rw [ProjectPath.normalize_eq plain, segments_scenePath some proper, List.foldl_append,
    Disk.foldl_advance_parts,
    Disk.foldl_advance_names down, sceneName]

end CheckOptions

end SceneAudit
