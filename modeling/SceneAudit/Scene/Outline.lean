import SceneAudit.Scene.Record
import SceneAudit.Text.Segment

/-!
# Outlines of scenes

An outline lists the nodes of a tree, the root first and each parent before its children. It is
written as a scene with one header line for each node. Node `0` is the root, and node `i + 1` is the
item at position `i`.

## Main definitions

* `Scene.Outline`: the nodes of a tree in some order.
* `Scene.Outline.IsWellFormed`: parents come first, siblings differ, and names can be written.
* `Scene.Outline.way`, `Scene.Outline.path`: the names on the way from the root to a node.
* `Scene.Outline.preorder`: the nodes below the root, depth first.
* `Scene.Outline.records`, `Scene.Outline.text`: the declarations of an outline, and its scene.

## Main results

* `Scene.Outline.way_succ`: the way to a node is the way to its parent and its own name.
* `Scene.Outline.mem_children`: the children of a node are the nodes whose parent it is.
* `Scene.Outline.subtree_eq`: a subtree is made of its root and of the subtrees of its children.
-/

namespace SceneAudit.Scene

/-- A node below the root. -/
structure Outline.Item where
  name : String
  kind : Option String
  /-- The node that is the parent. -/
  parent : Nat
  deriving DecidableEq, Repr

/-- The nodes of a tree: the root, and the others in some order. -/
structure Outline where
  rootName : String
  rootKind : Option String
  items : List Outline.Item
  deriving DecidableEq, Repr

namespace Outline

/-- A name that can be a segment of a path on one line. -/
def IsName (name : String) : Prop :=
  name ≠ "" ∧ name ≠ rootMark ∧ '/' ∉ name.toList ∧ '\n' ∉ name.toList

/-- A type that can be written on one line. -/
def IsKind (kind : Option String) : Prop :=
  ∀ text, kind = some text → '\n' ∉ text.toList

/-- Parents come before their children, siblings have different names, and names and types can be
written. -/
structure IsWellFormed (outline : Outline) : Prop where
  rootName : IsName outline.rootName
  rootKind : IsKind outline.rootKind
  name : ∀ item ∈ outline.items, IsName item.name
  kind : ∀ item ∈ outline.items, IsKind item.kind
  parent : ∀ (i : Nat) (h : i < outline.items.length), outline.items[i].parent ≤ i
  siblings : outline.items.Pairwise fun left right =>
    left.parent = right.parent → left.name ≠ right.name

instance (name : String) : Decidable (IsName name) :=
  inferInstanceAs (Decidable (_ ∧ _))

instance (kind : Option String) : Decidable (IsKind kind) :=
  match kind with
  | none => isTrue nofun
  | some text =>
    decidable_of_iff ('\n' ∉ text.toList)
      ⟨fun plain _ eq => Option.some.inj eq ▸ plain, fun all => all text rfl⟩

instance (outline : Outline) : Decidable outline.IsWellFormed :=
  decidable_of_iff
    (IsName outline.rootName ∧ IsKind outline.rootKind ∧
      (∀ item ∈ outline.items, IsName item.name) ∧ (∀ item ∈ outline.items, IsKind item.kind) ∧
      (∀ (i : Nat) (h : i < outline.items.length), outline.items[i].parent ≤ i) ∧
      outline.items.Pairwise fun left right =>
        left.parent = right.parent → left.name ≠ right.name)
    ⟨fun ⟨rootName, rootKind, name, kind, parent, siblings⟩ =>
        ⟨rootName, rootKind, name, kind, parent, siblings⟩,
      fun ⟨rootName, rootKind, name, kind, parent, siblings⟩ =>
        ⟨rootName, rootKind, name, kind, parent, siblings⟩⟩

/-! ### Ways and order -/

/-- The number of nodes. -/
def size (outline : Outline) : Nat :=
  outline.items.length + 1

/-- The names on the way from the root to a node, without the root's own. -/
def way (outline : Outline) : Nat → List String
  | 0 => []
  | i + 1 =>
    match outline.items[i]? with
    | none => []
    | some item => (if item.parent ≤ i then outline.way item.parent else []) ++ [item.name]

/-- The path of a node from the root. -/
def path (outline : Outline) (id : Nat) : String :=
  Text.joinSegments (outline.way id)

/-- The children of a node, in the order of the outline. -/
def children (outline : Outline) (id : Nat) : List Nat :=
  (List.range' 1 outline.items.length).filter fun child =>
    (outline.items[child - 1]?).any fun item => item.parent == id

/-- The node and all nodes below it, depth first, children in the order of the outline. -/
def subtree (outline : Outline) (id : Nat) : List Nat :=
  id :: (outline.children id).flatMap fun child =>
    if id < child ∧ child < outline.size then outline.subtree child else []
termination_by outline.size - id
decreasing_by omega

/-- The nodes below the root, depth first. -/
def preorder (outline : Outline) : List Nat :=
  (outline.subtree 0).tail

/-- The way to a node is the way to its parent and its own name. -/
theorem way_succ {outline : Outline} {i : Nat} {item : Item}
    (h : outline.items[i]? = some item) (earlier : item.parent ≤ i) :
    outline.way (i + 1) = outline.way item.parent ++ [item.name] := by
  rw [way, h]
  simp [earlier]

theorem mem_children {outline : Outline} {i id : Nat} :
    i + 1 ∈ outline.children id ↔
      ∃ item, outline.items[i]? = some item ∧ item.parent = id := by
  rw [children, List.mem_filter, List.mem_range'_1, Nat.add_sub_cancel]
  cases found : outline.items[i]? with
  | none => simp
  | some item =>
    have bound : i < outline.items.length := (List.getElem?_eq_some_iff.1 found).1
    have listed : 1 ≤ i + 1 ∧ i + 1 < 1 + outline.items.length := by omega
    simp [listed]

/-- The subtree at a node is the node itself and, child by child, the subtrees below it. -/
theorem subtree_eq {outline : Outline} (shape : outline.IsWellFormed) (id : Nat) :
    outline.subtree id = id :: (outline.children id).flatMap outline.subtree := by
  rw [subtree, List.flatMap_def, List.flatMap_def]
  refine congrArg _ (congrArg List.flatten (List.map_congr_left fun child mem => ?_))
  obtain ⟨i, rfl⟩ : ∃ i, child = i + 1 := by
    obtain ⟨positive, -⟩ := List.mem_range'_1.1 (List.mem_filter.1 mem).1
    exact ⟨child - 1, by omega⟩
  obtain ⟨item, found, rfl⟩ := mem_children.1 mem
  obtain ⟨bound, rfl⟩ := List.getElem?_eq_some_iff.1 found
  have earlier := shape.parent i bound
  exact ite_cond_eq_true _ _ (eq_true (by rw [size]; omega))

/-! ### Scenes -/

/-- How a node is named as a parent. -/
def parentRef (outline : Outline) (id : Nat) : ParentRef :=
  if id = 0 then .root else .node (outline.path id)

/-- The declarations of the nodes, one on each line. -/
def records (outline : Outline) : List NodeRecord :=
  ⟨outline.rootName, outline.rootKind, .absent, none, 1⟩ ::
    outline.items.mapIdx fun i item =>
      ⟨item.name, item.kind, outline.parentRef item.parent, none, i + 2⟩

/-- The scene in which each node is declared by a line of its own. -/
def text (outline : Outline) : String :=
  String.ofList (outline.records.flatMap fun record => record.header.render ++ ['\n'])

end Outline

end SceneAudit.Scene
