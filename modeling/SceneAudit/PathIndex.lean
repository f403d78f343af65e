import SceneAudit.Tree

/-!
# The path index of a scene

Every node but the root has a canonical path: the names of its ancestors below the root and its
own name, joined by slashes. The index lists the canonical paths in depth-first order, children
in the order of their declaration, and finds nodes by path and paths by node. Should two nodes
have one path, the later one in this order is found.

## Main definitions

* `PathIndex`, `PathIndex.ofTree`: the canonical paths of a tree.
* `PathIndex.get?`, `PathIndex.pathOf?`: the node with a path, the path of a node.
* `PathIndex.withFinalSegment`: the entries whose path ends with a given segment.
* `SceneTree.child?`, `SceneTree.descend`: the tree walked down by names.

## Main results

* `PathIndex.walk_eq`: the entries of a subtree are its own and those of its children's subtrees.
-/

namespace SceneAudit

/-- Canonical paths with their nodes, in depth-first order. -/
structure PathIndex where
  entries : List (String × Nat)
  deriving DecidableEq, Repr

namespace PathIndex

/-- The path of a node called `name` whose parent has the path `parent`, empty for the root. -/
def extend (parent name : String) : String :=
  if parent = "" then name else parent ++ "/" ++ name

/-- The entries of the subtree at `id`, where `parent` is the path of the parent of `id`. Only
links to later nodes are followed; a tree formed by records has no others. -/
def walk (tree : SceneTree) (parent : String) (id : Nat) : List (String × Nat) :=
  let path := extend parent (tree.name id)
  (path, id) ::
    (tree.children id).flatMap fun child =>
      if id < child ∧ child < tree.size then walk tree path child else []
termination_by tree.size - id
decreasing_by omega

/-- The index of a tree. -/
def ofTree (tree : SceneTree) : PathIndex where
  entries := (tree.children SceneTree.root).flatMap (walk tree "")

/-- The number of canonical paths. -/
def size (index : PathIndex) : Nat :=
  index.entries.length

/-- The canonical paths in depth-first order. -/
def paths (index : PathIndex) : List String :=
  index.entries.map Prod.fst

/-- The node with the given canonical path. -/
def get? (index : PathIndex) (path : String) : Option Nat :=
  (index.entries.findRev? fun entry => entry.1 == path).map Prod.snd

/-- Whether a node has the given canonical path. -/
def contains (index : PathIndex) (path : String) : Bool :=
  index.entries.any fun entry => entry.1 == path

/-- The canonical path of a node. -/
def pathOf? (index : PathIndex) (id : Nat) : Option String :=
  (index.entries.findRev? fun entry => entry.2 == id).map Prod.fst

/-- The entries whose path has the given last segment, in depth-first order. -/
def withFinalSegment (index : PathIndex) (segment : String) : List (String × Nat) :=
  index.entries.filter fun entry => Text.finalSegment entry.1 == segment

/-- The entries of a subtree are its own and, child by child, those of the subtrees below it. -/
theorem walk_eq (tree : SceneTree) (parent : String) (id : Nat) :
    walk tree parent id =
      (extend parent (tree.name id), id) ::
        (tree.children id).flatMap fun child =>
          if id < child ∧ child < tree.size then
            walk tree (extend parent (tree.name id)) child
          else [] := by
  rw [walk]

end PathIndex

namespace SceneTree

/-- The child of a node with the given name. -/
def child? (tree : SceneTree) (id : Nat) (name : String) : Option Nat :=
  (tree.children id).find? fun child => tree.name child == name

/-- The node reached from `id` by going from child to child along the given names. -/
def descend (tree : SceneTree) (id : Nat) : List String → Option Nat
  | [] => some id
  | name :: rest => (tree.child? id name).bind fun child => tree.descend child rest

end SceneTree

end SceneAudit
