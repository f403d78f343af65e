import SceneAudit.Analysis
import SceneAudit.Proofs.Scene.Reading
import SceneAudit.Proofs.Tree.Draft

/-!
# Nodes with one path

A tree makes sure that siblings have different names, and the path index stores names joined by
slashes. Since a scene may give a node a name with a slash, this is not enough to keep the paths of
the nodes apart. Two nodes have one path exactly if they stand under two siblings of which one is
named as the other one, a slash and something more, as in `A/B` beside `A` with a child `B`. Of the
nodes with one path the index finds one only.

## Main definitions

* `SceneTree.IsIndexedOnce`: the path index goes from nodes to paths and back.
* `SceneTree.Clash`: two siblings with nodes of one path under them.

## Main results

* `SceneTree.exists_siblings`: two nodes, none under the other, stand under two siblings.
* `SceneTree.isIndexedOnce_iff`: the index goes back and forth if no siblings clash.
* `SceneTree.isIndexedOnce_of_no_slash`: without slashes in names it does.
* `Analysis.index_bijective_iff`: so it does for every valid scene.
-/

namespace SceneAudit

namespace SceneTree

variable {tree : SceneTree} {id parent top : Nat}

/-- The path index assigns different paths to different nodes, and finds every node but the root by
its path. -/
structure IsIndexedOnce (tree : SceneTree) : Prop where
  injective : ∀ left right path, (PathIndex.ofTree tree).pathOf? left = some path →
    (PathIndex.ofTree tree).pathOf? right = some path → left = right
  found : ∀ id < tree.size, id ≠ root → ∃ path, (PathIndex.ofTree tree).pathOf? id = some path ∧
    (PathIndex.ofTree tree).get? path = some id

/-- Two siblings, the name of the second one being that of the first one, a slash and something
more, and a node below the first one that has the path of a node under the second one. -/
structure Clash (tree : SceneTree) (left right : Nat) : Prop where
  distinct : left ≠ right
  siblings : ∃ parent, tree.parent? left = some parent ∧ tree.parent? right = some parent
  name : ∃ rest, tree.name right = tree.name left ++ "/" ++ rest
  path : ∃ below beside, tree.IsUnder left below ∧ below ≠ left ∧ tree.IsUnder right beside ∧
    tree.path below = tree.path beside

/-! ### Paths in subtrees -/

/-- The path of a node under another one continues the path of that one after a slash. -/
theorem path_of_isUnder (shape : tree.IsWellFormed) (below : top ≠ root)
    (under : tree.IsUnder top id) :
    ∃ tail, (tree.path id).toList = (tree.path top).toList ++ tail ∧
      (id = top ∧ tail = [] ∨ id ≠ top ∧ ∃ rest, tail = '/' :: rest) := by
  induction under with
  | refl => exact ⟨[], (List.append_nil _).symm, .inl ⟨rfl, rfl⟩⟩
  | @step id parent link above ih =>
    obtain ⟨tail, eq, shapeOfTail⟩ := ih
    have le := above.le shape
    have lt := shape.lt_of_parent? link
    have ne : parent ≠ root := by
      rintro rfl
      exact below (Nat.le_zero.1 le)
    have slash : "/".toList = ['/'] := rfl
    have path : (tree.path id).toList =
        (tree.path top).toList ++ (tail ++ '/' :: (tree.name id).toList) := by
      rw [path_of_parent? shape link ne, String.toList_append, String.toList_append, eq, slash,
        List.append_assoc, List.append_assoc, List.singleton_append]
    refine ⟨_, path, .inr ⟨by omega, ?_⟩⟩
    rcases shapeOfTail with ⟨-, rfl⟩ | ⟨-, rest, rfl⟩
    · exact ⟨_, rfl⟩
    · exact ⟨_, rfl⟩

private theorem path_ne_of_isUnder (shape : tree.IsWellFormed) (below : top ≠ root)
    (under : tree.IsUnder top id) (distinct : id ≠ top) : tree.path id ≠ tree.path top := by
  intro same
  obtain ⟨tail, eq, ⟨rfl, -⟩ | ⟨-, rest, rfl⟩⟩ := path_of_isUnder shape below under
  · exact distinct rfl
  · rw [same] at eq
    simpa using congrArg List.length eq

/-- The paths of siblings differ in their names alone. -/
private theorem exists_path_of_parent? (shape : tree.IsWellFormed) (parent : Nat) :
    ∃ front, ∀ id, tree.parent? id = some parent →
      (tree.path id).toList = front ++ (tree.name id).toList := by
  by_cases top : parent = root
  · refine ⟨[], fun id link => ?_⟩
    rw [path_of_parent?_root shape (top ▸ link), List.nil_append]
  · refine ⟨(tree.path parent).toList ++ "/".toList, fun id link => ?_⟩
    rw [path_of_parent? shape link top, String.toList_append, String.toList_append]

/-- Two nodes, none of them under the other, stand under two siblings. -/
theorem exists_siblings (shape : tree.IsWellFormed) {other : Nat} (lt : id < tree.size)
    (lt' : other < tree.size) (apart : ¬tree.IsUnder id other) (apart' : ¬tree.IsUnder other id) :
    ∃ left right parent, left ≠ right ∧ tree.parent? left = some parent ∧
      tree.parent? right = some parent ∧ tree.IsUnder left id ∧ tree.IsUnder right other := by
  induction id using Nat.strongRecOn with
  | ind id ih =>
    have ne : id ≠ root := by
      rintro rfl
      exact apart (.of_root shape lt')
    obtain ⟨parent, before, link⟩ := shape.parent_lt id lt ne
    by_cases above : tree.IsUnder parent other
    · rcases (isUnder_iff shape).1 above with rfl | ⟨child, mem, under⟩
      · exact absurd (.step link .refl) apart'
      · refine ⟨id, child, parent, ?_, link, shape.mem_children.1 mem, .refl, under⟩
        rintro rfl
        exact apart under
    · have beside : ¬tree.IsUnder other parent := fun under => apart' (.step link under)
      obtain ⟨left, right, top, distinct, linkLeft, linkRight, underLeft, underRight⟩ :=
        ih parent before (Nat.lt_trans before lt) above beside
      exact ⟨left, right, top, distinct, linkLeft, linkRight, .step link underLeft, underRight⟩

/-- Of two different texts that are continued to one text, by nothing or from a slash on, one is the
other one with a slash and something more. -/
theorem exists_eq_append_slash {left right tailLeft tailRight : List Char} (ne : left ≠ right)
    (slashLeft : tailLeft = [] ∨ ∃ rest, tailLeft = '/' :: rest)
    (slashRight : tailRight = [] ∨ ∃ rest, tailRight = '/' :: rest)
    (eq : left ++ tailLeft = right ++ tailRight) :
    (∃ rest, right = left ++ '/' :: rest ∧ tailLeft ≠ []) ∨
      ∃ rest, left = right ++ '/' :: rest ∧ tailRight ≠ [] := by
  rcases List.append_eq_append_iff.1 eq with ⟨gap, rfl, rfl⟩ | ⟨gap, rfl, rfl⟩
  · left
    cases gap with
    | nil => simp at ne
    | cons c gap =>
      obtain ⟨rest, eq⟩ := slashLeft.resolve_left (by simp)
      rw [List.cons_append, List.cons.injEq] at eq
      exact ⟨gap, by rw [eq.1], by simp⟩
  · right
    cases gap with
    | nil => simp at ne
    | cons c gap =>
      obtain ⟨rest, eq⟩ := slashRight.resolve_left (by simp)
      rw [List.cons_append, List.cons.injEq] at eq
      exact ⟨gap, by rw [eq.1], by simp⟩

private theorem exists_eq_append {name other : String} {rest : List Char}
    (eq : name.toList = other.toList ++ '/' :: rest) : ∃ rest, name = other ++ "/" ++ rest := by
  have slash : "/".toList = ['/'] := rfl
  refine ⟨String.ofList rest, String.toList_inj.1 ?_⟩
  rw [eq, String.toList_append, String.toList_append, slash, String.toList_ofList,
    List.append_assoc, List.singleton_append]

/-! ### When the index goes back and forth -/

theorem lt_size_of_isUnder (lt : top < tree.size)
    (under : tree.IsUnder top id) : id < tree.size := by
  cases under with
  | refl => exact lt
  | step link _ => exact lt_size_of_parent? link

/-- A node that is found by a path has this path. -/
theorem path_of_get? (shape : tree.IsWellFormed) (named : tree.IsNamed) {path : String}
    (h : (PathIndex.ofTree tree).get? path = some id) :
    (PathIndex.ofTree tree).pathOf? id = some path := by
  rw [PathIndex.get?, List.findRev?_eq_find?_reverse, PathIndex.entries_ofTree shape named] at h
  obtain ⟨⟨other, node⟩, found, rfl⟩ := Option.map_eq_some_iff.1 h
  have same : other = path := by simpa using List.find?_some found
  subst same
  obtain ⟨_, mem, eq⟩ := List.mem_map.1 (List.mem_reverse.1 (List.mem_of_find?_eq_some found))
  rw [Prod.mk.injEq] at eq
  obtain ⟨rfl, rfl⟩ := eq
  obtain ⟨lt, ne⟩ := (mem_preorder shape).1 mem
  exact (PathIndex.pathOf?_ofTree shape named).2 ⟨lt, ne, rfl⟩

/-- Two nodes below the root with one path stand under two siblings that clash. -/
theorem exists_clash (shape : tree.IsWellFormed) {other : Nat} (lt : id < tree.size)
    (lt' : other < tree.size) (ne : id ≠ root) (ne' : other ≠ root) (distinct : id ≠ other)
    (path : tree.path id = tree.path other) : ∃ left right, tree.Clash left right := by
  have apart : ¬tree.IsUnder id other := fun under =>
    path_ne_of_isUnder shape ne under distinct.symm path.symm
  have apart' : ¬tree.IsUnder other id := fun under =>
    path_ne_of_isUnder shape ne' under distinct path
  obtain ⟨left, right, parent, differ, linkLeft, linkRight, underLeft, underRight⟩ :=
    exists_siblings shape lt lt' apart apart'
  obtain ⟨front, paths⟩ := exists_path_of_parent? shape parent
  obtain ⟨tailLeft, eqLeft, endLeft⟩ :=
    path_of_isUnder shape (shape.ne_root_of_parent? linkLeft) underLeft
  obtain ⟨tailRight, eqRight, endRight⟩ :=
    path_of_isUnder shape (shape.ne_root_of_parent? linkRight) underRight
  have names : (tree.name left).toList ≠ (tree.name right).toList := by
    rw [ne_eq, String.toList_inj]
    exact shape.name_ne_of_siblings differ linkLeft linkRight
  have tails : (tree.name left).toList ++ tailLeft = (tree.name right).toList ++ tailRight := by
    rw [path, eqRight, paths left linkLeft, paths right linkRight, List.append_assoc,
      List.append_assoc] at eqLeft
    exact (List.append_cancel_left eqLeft).symm
  have inside {tail : List Char} {low high : Nat} (nonempty : tail ≠ [])
      (ends : low = high ∧ tail = [] ∨ low ≠ high ∧ ∃ rest, tail = '/' :: rest) : low ≠ high :=
    (ends.resolve_left fun h => nonempty h.2).1
  rcases exists_eq_append_slash names (endLeft.imp And.right And.right)
      (endRight.imp And.right And.right) tails with ⟨rest, eq, nonempty⟩ | ⟨rest, eq, nonempty⟩
  · exact ⟨left, right, differ, ⟨parent, linkLeft, linkRight⟩, exists_eq_append eq,
      ⟨id, other, underLeft, inside nonempty endLeft, underRight, path⟩⟩
  · exact ⟨right, left, differ.symm, ⟨parent, linkRight, linkLeft⟩, exists_eq_append eq,
      ⟨other, id, underRight, inside nonempty endRight, underLeft, path.symm⟩⟩

/-- The index goes from nodes to paths and back if no siblings clash. -/
theorem isIndexedOnce_iff (shape : tree.IsWellFormed) (named : tree.IsNamed) :
    tree.IsIndexedOnce ↔ ∀ left right, ¬tree.Clash left right := by
  constructor
  · rintro ⟨injective, -⟩ left right ⟨distinct, ⟨parent, linkLeft, linkRight⟩, -, below, beside,
      underLeft, inside, underRight, path⟩
    have bound := lt_size_of_isUnder (lt_size_of_parent? linkLeft) underLeft
    have bound' := lt_size_of_isUnder (lt_size_of_parent? linkRight) underRight
    have above := shape.lt_of_parent? linkLeft
    have above' := shape.lt_of_parent? linkRight
    have le := underLeft.le shape
    have le' := underRight.le shape
    have ne : below ≠ root := Nat.ne_of_gt (by rw [root]; omega)
    have ne' : beside ≠ root := Nat.ne_of_gt (by rw [root]; omega)
    have same : below = beside :=
      injective below beside _ ((PathIndex.pathOf?_ofTree shape named).2 ⟨bound, ne, path⟩)
        ((PathIndex.pathOf?_ofTree shape named).2 ⟨bound', ne', rfl⟩)
    exact distinct (underLeft.eq_of_siblings shape (same ▸ underRight)
      (linkLeft.trans linkRight.symm))
  · intro free
    have injective : ∀ left right path, (PathIndex.ofTree tree).pathOf? left = some path →
        (PathIndex.ofTree tree).pathOf? right = some path → left = right := by
      intro left right path hl hr
      obtain ⟨lt, ne, eq⟩ := (PathIndex.pathOf?_ofTree shape named).1 hl
      obtain ⟨lt', ne', eq'⟩ := (PathIndex.pathOf?_ofTree shape named).1 hr
      apply Classical.byContradiction
      intro distinct
      obtain ⟨u, v, clash⟩ := exists_clash shape lt lt' ne ne' distinct (eq.trans eq'.symm)
      exact free u v clash
    refine ⟨injective, fun id lt ne => ?_⟩
    have own := (PathIndex.pathOf?_ofTree shape named).2 ⟨lt, ne, rfl⟩
    refine ⟨tree.path id, own, ?_⟩
    cases found : (PathIndex.ofTree tree).get? (tree.path id) with
    | none =>
      rw [PathIndex.get?_eq_none_iff, PathIndex.paths_ofTree shape named] at found
      exact absurd (List.mem_map_of_mem ((mem_preorder shape).2 ⟨lt, ne⟩)) found
    | some other => rw [injective other id _ (path_of_get? shape named found) own]

/-- Without slashes in the names below the root no siblings clash. -/
theorem isIndexedOnce_of_no_slash (shape : tree.IsWellFormed) (named : tree.IsNamed)
    (plain : ∀ id < tree.size, id ≠ root → '/' ∉ (tree.name id).toList) :
    tree.IsIndexedOnce := by
  refine (isIndexedOnce_iff shape named).2 ?_
  rintro left right ⟨-, ⟨parent, -, link⟩, ⟨rest, eq⟩, -⟩
  refine plain right (lt_size_of_parent? link) (shape.ne_root_of_parent? link) ?_
  rw [eq, String.toList_append, String.toList_append]
  exact List.mem_append_left _ (List.mem_append_right _ List.mem_cons_self)

end SceneTree

/-! ### Valid scenes -/

namespace Analysis

/-- **When paths and nodes are in one-to-one correspondence.** The path index of a valid scene goes
from nodes to paths and back exactly if no two siblings clash, and so it does if no name below the
root has a slash. -/
theorem index_bijective_iff (scene text : String) (valid : (ofText scene text).verdict = .valid) :
    ∃ tree, (ofText scene text).tree? = some tree ∧
      (tree.IsIndexedOnce ↔ ∀ left right, ¬tree.Clash left right) ∧
      ((∀ id < tree.size, id ≠ SceneTree.root → '/' ∉ (tree.name id).toList) →
        tree.IsIndexedOnce) := by
  obtain ⟨tree, formed⟩ := verdict_eq_valid_iff.1 valid
  obtain ⟨shape, named⟩ := isWellFormed_of_ofText formed
  refine ⟨tree, by rw [tree?, formed]; rfl, SceneTree.isIndexedOnce_iff shape named, ?_⟩
  exact SceneTree.isIndexedOnce_of_no_slash shape named

/-- A scene in which nodes on different branches have the same name. -/
def namesakes : String :=
  "[node name=\"Hud\"]\n[node name=\"A\" parent=\".\"]\n[node name=\"B\" parent=\"A\"]\n" ++
    "[node name=\"A\" parent=\"A/B\"]\n[node name=\"B\" parent=\".\"]\n"

theorem index_bijective_namesakes :
    ∃ tree, (ofText "hud.tscn" namesakes).tree? = some tree ∧ tree.IsIndexedOnce := by
  obtain ⟨tree, found, -, plain⟩ :=
    index_bijective_iff "hud.tscn" namesakes (by decide +kernel)
  have names : ((ofText "hud.tscn" namesakes).tree?.all fun tree =>
      (List.range tree.size).all fun id => !(tree.name id).toList.contains '/') = true := by
    decide +kernel
  refine ⟨tree, found, plain fun id lt _ => ?_⟩
  rw [found, Option.all_some, List.all_eq_true] at names
  simpa using names id (List.mem_range.2 lt)

/-- Beside a node `A` with a child `B`, a node `A/B` has the path of that child. -/
def slashedName : String :=
  "[node name=\"Hud\"]\n[node name=\"A/B\" parent=\".\"]\n" ++
    "[node name=\"A\" parent=\".\"]\n[node name=\"B\" parent=\"A\"]\n"

/-- A name with a slash is enough for two nodes to have one path. -/
theorem index_not_bijective :
    ¬∀ scene text tree, (ofText scene text).verdict = .valid →
      (ofText scene text).tree? = some tree → tree.IsIndexedOnce := by
  intro all
  have paths : (ofText "hud.tscn" slashedName).tree?.map (fun tree =>
      ((PathIndex.ofTree tree).pathOf? 1, (PathIndex.ofTree tree).pathOf? 3)) =
        some (some "A/B", some "A/B") := by
    decide +kernel
  obtain ⟨tree, found, eq⟩ := Option.map_eq_some_iff.1 paths
  rw [Prod.mk.injEq] at eq
  have once := all "hud.tscn" slashedName tree (by decide +kernel) found
  have same := once.injective 1 3 "A/B" eq.1 eq.2
  contradiction

end Analysis

end SceneAudit
