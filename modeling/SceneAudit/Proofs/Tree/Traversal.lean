import SceneAudit.PathIndex
import SceneAudit.Proofs.Tree.Shape

/-!
# Traversal of a scene tree

The path index is made by walking the tree from the root, carrying along the path of the node that
is left. On a well-formed tree whose nodes have names the walk meets every node below the root once,
and the path it carries is the one that is read off the links to the parents.

## Main definitions

* `SceneTree.way`, `SceneTree.path`: the names on the way from the root to a node.
* `SceneTree.spelling`: the path of a node as the walk spells it, whether or not nodes have names.
* `SceneTree.subtree`, `SceneTree.preorder`: the nodes of a subtree, depth first.
* `SceneTree.IsNamed`: no name is empty.

## Main results

* `SceneTree.mem_preorder`, `SceneTree.nodup_preorder`: the walk meets every node but the root once.
* `PathIndex.entries_eq_map_spelling`, `PathIndex.entries_ofTree`: the entries of the index are
  these nodes with their paths.
* `PathIndex.pathOf?_ofTree`: the canonical path of a node is its path from the root.
* `PathIndex.get?_eq_none_iff`: a path is found if it is one of the canonical paths.
-/

namespace SceneAudit

namespace SceneTree

section Paths

variable {tree : SceneTree} {id parent : Nat}

/-! ### Ways and paths -/

/-- The names on the way from the root to a node, without the root's own. -/
def way (tree : SceneTree) (id : Nat) : List String :=
  match tree.parent? id with
  | none => []
  | some parent => (if parent < id then tree.way parent else []) ++ [tree.name id]
termination_by id

/-- The path of a node from the root, empty for the root. -/
def path (tree : SceneTree) (id : Nat) : String :=
  Text.joinSegments (tree.way id)

/-- Every node has a name. -/
def IsNamed (tree : SceneTree) : Prop :=
  ∀ id < tree.size, tree.name id ≠ ""

theorem way_root (shape : tree.IsWellFormed) : tree.way root = [] := by
  rw [way, shape.parent?_root]

private theorem path_root (shape : tree.IsWellFormed) : tree.path root = "" := by
  rw [path, way_root shape]
  rfl

theorem way_of_parent? (shape : tree.IsWellFormed) (link : tree.parent? id = some parent) :
    tree.way id = tree.way parent ++ [tree.name id] := by
  rw [way, link]
  simp [shape.lt_of_parent? link]

theorem way_ne_nil (shape : tree.IsWellFormed) (lt : id < tree.size) (ne : id ≠ root) :
    tree.way id ≠ [] := by
  obtain ⟨parent, -, link⟩ := shape.parent_lt id lt ne
  rw [way_of_parent? shape link]
  simp

/-- The way to a node is made of names of nodes. -/
theorem exists_of_mem_way {name : String} (h : name ∈ tree.way id) :
    ∃ node < tree.size, tree.name node = name := by
  induction id using Nat.strongRecOn with
  | ind id ih =>
    rw [way] at h
    split at h
    · contradiction
    · rename_i parent link
      rcases List.mem_append.1 h with above | own
      · split at above
        · rename_i lt
          exact ih parent lt above
        · contradiction
      · exact ⟨id, lt_size_of_parent? link, (List.mem_singleton.1 own).symm⟩

/-- The path of a child of the root is its name. -/
theorem path_of_parent?_root (shape : tree.IsWellFormed) (link : tree.parent? id = some root) :
    tree.path id = tree.name id := by
  rw [path, way_of_parent? shape link, way_root shape, List.nil_append,
    Text.joinSegments_singleton]

/-- The path of any other node is the path of its parent, a slash and its name. -/
theorem path_of_parent? (shape : tree.IsWellFormed) (link : tree.parent? id = some parent)
    (ne : parent ≠ root) : tree.path id = tree.path parent ++ "/" ++ tree.name id := by
  have lt : parent < tree.size :=
    Nat.lt_trans (shape.lt_of_parent? link) (lt_size_of_parent? link)
  rw [path, way_of_parent? shape link,
    Text.joinSegments_append (way_ne_nil shape lt ne) (List.cons_ne_nil _ _),
    Text.joinSegments_singleton, path]

private theorem path_ne_empty (shape : tree.IsWellFormed) (named : tree.IsNamed)
    (lt : id < tree.size) (ne : id ≠ root) : tree.path id ≠ "" := by
  obtain ⟨parent, -, link⟩ := shape.parent_lt id lt ne
  by_cases top : parent = root
  · rw [path_of_parent?_root shape (top ▸ link)]
    exact named id lt
  · rw [path_of_parent? shape link top]
    simp

private theorem path_eq_extend (shape : tree.IsWellFormed) (named : tree.IsNamed)
    (link : tree.parent? id = some parent) :
    tree.path id = PathIndex.extend (tree.path parent) (tree.name id) := by
  by_cases top : parent = root
  · subst top
    rw [path_of_parent?_root shape link, path_root shape, PathIndex.extend]
    rfl
  · have lt : parent < tree.size :=
      Nat.lt_trans (shape.lt_of_parent? link) (lt_size_of_parent? link)
    have inner := path_ne_empty shape named lt top
    rw [path_of_parent? shape link top, PathIndex.extend, ite_cond_eq_false _ _ (eq_false inner)]

/-- A larger tree has the same ways to the nodes that it begins with. -/
theorem IsFrontOf.way_eq {larger : SceneTree} (front : tree.IsFrontOf larger)
    (shape : tree.IsWellFormed) (lt : id < tree.size) : larger.way id = tree.way id := by
  induction id using shape.parent_induction with
  | top id link => rw [way, way, front.parent?_eq id lt, link]
  | step id parent link ih =>
    have before := shape.lt_of_parent? link
    rw [way_of_parent? shape link, way, front.parent?_eq id lt, link]
    simp only [before, ↓reduceIte, ih (Nat.lt_trans before lt), front.name_eq id lt]

/-! ### Spelled paths -/

/-- The path of a node as a walk from the root spells it, empty for the root: a slash stands before
a name unless nothing else stands before it. -/
def spelling (tree : SceneTree) (id : Nat) : String :=
  match tree.parent? id with
  | none => ""
  | some parent =>
    PathIndex.extend (if parent < id then tree.spelling parent else "") (tree.name id)
termination_by id

private theorem spelling_root (shape : tree.IsWellFormed) : tree.spelling root = "" := by
  rw [spelling, shape.parent?_root]

theorem spelling_of_parent? (shape : tree.IsWellFormed) (link : tree.parent? id = some parent) :
    tree.spelling id = PathIndex.extend (tree.spelling parent) (tree.name id) := by
  rw [spelling, link]
  simp [shape.lt_of_parent? link]

/-- If every node has a name, the walk spells the path of each node. -/
theorem spelling_eq_path (shape : tree.IsWellFormed) (named : tree.IsNamed) :
    tree.spelling id = tree.path id := by
  induction id using shape.parent_induction with
  | top id link =>
    rw [spelling, path, way, link]
    rfl
  | step id parent link ih =>
    rw [spelling_of_parent? shape link, ih, path_eq_extend shape named link]

/-- A larger tree spells the same paths for the nodes that it begins with. -/
theorem IsFrontOf.spelling_eq {larger : SceneTree} (front : tree.IsFrontOf larger)
    (shape : tree.IsWellFormed) (lt : id < tree.size) : larger.spelling id = tree.spelling id := by
  induction id using shape.parent_induction with
  | top id link => rw [spelling, spelling, front.parent?_eq id lt, link]
  | step id parent link ih =>
    have before := shape.lt_of_parent? link
    rw [spelling_of_parent? shape link, spelling, front.parent?_eq id lt, link]
    simp only [before, ↓reduceIte, ih (Nat.lt_trans before lt), front.name_eq id lt]

end Paths

/-! ### Depth-first order -/

/-- The node and all nodes below it, depth first, children in the order of declaration. -/
def subtree (tree : SceneTree) (id : Nat) : List Nat :=
  id :: (tree.children id).flatMap fun child =>
    if id < child ∧ child < tree.size then tree.subtree child else []
termination_by tree.size - id
decreasing_by omega

/-- The nodes below the root, depth first. -/
def preorder (tree : SceneTree) : List Nat :=
  (tree.children root).flatMap tree.subtree

section Order

variable {tree : SceneTree} {id : Nat}

/-- In a well-formed tree every link to a child leads to a later node. -/
theorem flatMap_children {α : Type} (shape : tree.IsWellFormed) (id : Nat)
    (f : Nat → List α) :
    ((tree.children id).flatMap fun child =>
        if id < child ∧ child < tree.size then f child else []) =
      (tree.children id).flatMap f := by
  rw [List.flatMap_def, List.flatMap_def]
  refine congrArg List.flatten (List.map_congr_left fun child mem => ?_)
  have link := shape.mem_children.1 mem
  simp [shape.lt_of_parent? link, lt_size_of_parent? link]

theorem subtree_eq (shape : tree.IsWellFormed) (id : Nat) :
    tree.subtree id = id :: (tree.children id).flatMap tree.subtree := by
  rw [subtree, flatMap_children shape]

theorem isUnder_iff (shape : tree.IsWellFormed) {top : Nat} :
    tree.IsUnder top id ↔ id = top ∨ ∃ child ∈ tree.children top, tree.IsUnder child id := by
  constructor
  · intro h
    induction h with
    | refl => exact .inl rfl
    | @step id parent link above ih =>
      right
      rcases ih with rfl | ⟨child, mem, under⟩
      · exact ⟨id, shape.mem_children.2 link, .refl⟩
      · exact ⟨child, mem, .step link under⟩
  · rintro (rfl | ⟨child, mem, under⟩)
    · exact .refl
    · exact under.trans (.step (shape.mem_children.1 mem) .refl)

/-- Induction from the leaves of a well-formed tree to its root. -/
theorem IsWellFormed.child_induction {motive : Nat → Prop} (shape : tree.IsWellFormed)
    (step : ∀ id, (∀ child ∈ tree.children id, motive child) → motive id) (id : Nat) :
    motive id := by
  induction h : tree.size - id using Nat.strongRecOn generalizing id with
  | ind rest ih =>
    refine step id fun child mem => ?_
    have link := shape.mem_children.1 mem
    have lt := shape.lt_of_parent? link
    have bound := lt_size_of_parent? link
    exact ih (tree.size - child) (by omega) child rfl

theorem mem_subtree (shape : tree.IsWellFormed) {top : Nat} :
    id ∈ tree.subtree top ↔ tree.IsUnder top id := by
  induction top using shape.child_induction with
  | step top ih =>
    rw [subtree_eq shape, List.mem_cons, List.mem_flatMap, isUnder_iff shape]
    exact or_congr_right (exists_congr fun child => and_congr_right fun mem => ih child mem)

theorem nodup_subtree (shape : tree.IsWellFormed) (id : Nat) : (tree.subtree id).Nodup := by
  induction id using shape.child_induction with
  | step id ih =>
    rw [subtree_eq shape, List.nodup_cons]
    constructor
    · intro mem
      obtain ⟨child, link, inside⟩ := List.mem_flatMap.1 mem
      have lt := shape.lt_of_parent? (shape.mem_children.1 link)
      have le := ((mem_subtree shape).1 inside).le shape
      omega
    · refine List.pairwise_flatMap.2 ⟨ih, ?_⟩
      refine (shape.pairwise_children id).imp_of_mem ?_
      intro left right memLeft memRight lt x insideLeft y insideRight eq
      have same := ((mem_subtree shape).1 insideLeft).eq_of_siblings shape
        (eq ▸ (mem_subtree shape).1 insideRight)
        ((shape.mem_children.1 memLeft).trans (shape.mem_children.1 memRight).symm)
      omega

theorem subtree_root (shape : tree.IsWellFormed) : tree.subtree root = root :: tree.preorder :=
  subtree_eq shape root

/-- The walk meets no node twice. -/
theorem nodup_preorder (shape : tree.IsWellFormed) : tree.preorder.Nodup := by
  have nodup := nodup_subtree shape root
  rw [subtree_root shape, List.nodup_cons] at nodup
  exact nodup.2

/-- The walk meets every node but the root. -/
theorem mem_preorder (shape : tree.IsWellFormed) :
    id ∈ tree.preorder ↔ id < tree.size ∧ id ≠ root := by
  have all : id ∈ tree.subtree root ↔ id = root ∨ id ∈ tree.preorder := by
    rw [subtree_root shape, List.mem_cons]
  have nodup := nodup_subtree shape root
  rw [subtree_root shape, List.nodup_cons] at nodup
  constructor
  · intro mem
    have under := (mem_subtree shape).1 (all.2 (.inr mem))
    cases under with
    | refl => exact absurd mem nodup.1
    | step link above =>
      refine ⟨lt_size_of_parent? link, ?_⟩
      rintro rfl
      exact nodup.1 mem
  · rintro ⟨lt, ne⟩
    exact (all.1 ((mem_subtree shape).2 (.of_root shape lt))).resolve_left ne

end Order

end SceneTree

/-! ### The index -/

namespace PathIndex

variable {tree : SceneTree} {id : Nat}

private theorem walk_eq_map (shape : tree.IsWellFormed) {parent : String}
    (h : tree.spelling id = extend parent (tree.name id)) :
    walk tree parent id = (tree.subtree id).map fun node => (tree.spelling node, node) := by
  induction id using shape.child_induction generalizing parent with
  | step id ih =>
    rw [walk_eq, SceneTree.flatMap_children shape, SceneTree.subtree_eq shape, List.map_cons, ← h,
      List.map_flatMap, List.flatMap_def, List.flatMap_def]
    refine congrArg _ (congrArg List.flatten (List.map_congr_left fun child mem => ?_))
    exact ih child mem (SceneTree.spelling_of_parent? shape (shape.mem_children.1 mem))

/-- The entries of the index are the nodes below the root, depth first, with the paths that the walk
spells. -/
theorem entries_eq_map_spelling (shape : tree.IsWellFormed) :
    (ofTree tree).entries = tree.preorder.map fun node => (tree.spelling node, node) := by
  rw [ofTree, SceneTree.preorder, List.map_flatMap, List.flatMap_def, List.flatMap_def]
  refine congrArg List.flatten (List.map_congr_left fun child mem => ?_)
  refine walk_eq_map shape ?_
  rw [SceneTree.spelling_of_parent? shape (shape.mem_children.1 mem),
    SceneTree.spelling_root shape]

/-- The entries of the index are the nodes below the root, depth first, with their paths. -/
theorem entries_ofTree (shape : tree.IsWellFormed) (named : tree.IsNamed) :
    (ofTree tree).entries = tree.preorder.map fun node => (tree.path node, node) := by
  have spelled : tree.spelling = tree.path :=
    funext fun _ => SceneTree.spelling_eq_path shape named
  rw [entries_eq_map_spelling shape, spelled]

theorem mem_paths_iff (shape : tree.IsWellFormed) {path : String} :
    path ∈ (ofTree tree).paths ↔
      ∃ id < tree.size, id ≠ SceneTree.root ∧ tree.spelling id = path := by
  rw [paths, entries_eq_map_spelling shape, List.map_map, List.mem_map]
  refine exists_congr fun node => ?_
  rw [SceneTree.mem_preorder shape, and_assoc]
  rfl

theorem paths_ofTree (shape : tree.IsWellFormed) (named : tree.IsNamed) :
    (ofTree tree).paths = tree.preorder.map tree.path := by
  rw [paths, entries_ofTree shape named, List.map_map]
  rfl

/-- A node other than the root has the path that the walk spells as its canonical path, and the root
has none. -/
theorem pathOf?_eq_some_iff_spelling (shape : tree.IsWellFormed) {path : String} :
    (ofTree tree).pathOf? id = some path ↔
      id < tree.size ∧ id ≠ SceneTree.root ∧ tree.spelling id = path := by
  rw [pathOf?, List.findRev?_eq_find?_reverse, entries_eq_map_spelling shape, ← List.map_reverse,
    List.find?_map, Option.map_map, Option.map_eq_some_iff, ← and_assoc,
    ← SceneTree.mem_preorder shape]
  constructor
  · rintro ⟨node, found, eq⟩
    have same : node = id := by simpa using List.find?_some found
    subst same
    exact ⟨List.mem_reverse.1 (List.mem_of_find?_eq_some found), eq⟩
  · rintro ⟨mem, eq⟩
    obtain ⟨node, found⟩ : ∃ node, tree.preorder.reverse.find? (· == id) = some node := by
      rw [← Option.isSome_iff_exists, List.find?_isSome]
      exact ⟨id, List.mem_reverse.2 mem, beq_self_eq_true id⟩
    have same : node = id := by simpa using List.find?_some found
    exact ⟨id, same ▸ found, eq⟩

/-- A node other than the root has its path from the root as its canonical path, and the root has
none. -/
theorem pathOf?_ofTree (shape : tree.IsWellFormed) (named : tree.IsNamed) {path : String} :
    (ofTree tree).pathOf? id = some path ↔
      id < tree.size ∧ id ≠ SceneTree.root ∧ tree.path id = path := by
  rw [pathOf?_eq_some_iff_spelling shape, SceneTree.spelling_eq_path shape named]

/-- A path is found if it is one of the canonical paths. -/
theorem get?_eq_none_iff {index : PathIndex} {path : String} :
    index.get? path = none ↔ path ∉ index.paths := by
  simp only [get?, paths, List.findRev?_eq_find?_reverse, Option.map_eq_none_iff,
    List.find?_eq_none, List.mem_reverse, List.mem_map, beq_iff_eq, not_exists, not_and]

theorem map_withFinalSegment_ne_nil_iff {index : PathIndex} {segment : String} :
    (index.withFinalSegment segment).map Prod.snd ≠ [] ↔
      ∃ path ∈ index.paths, Text.finalSegment path = segment := by
  simp [withFinalSegment, paths]

end PathIndex

end SceneAudit
