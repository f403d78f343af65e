import SceneAudit.Diagnostic
import SceneAudit.Text.Segment
import SceneAudit.Scene.Record

/-!
# Scene trees

The nodes that a scene declares form a tree if the first one names no parent, every later one
names a node declared before it, and no two children of a node have the same name. A node is
identified by its position in the order of declaration, so that the root is node `0`.

A parent is named by its path from the root or, failing that, by its name alone; where several
earlier nodes qualify, the latest one is meant. A node that names no parent is a child of the root.

## Main definitions

* `SceneNode`, `SceneTree`: nodes with links to their parents and to their children.
* `SceneTree.ancestors`: the chain of parents of a node, the nearest first.
* `StructuralError`: why records do not form a tree, with its wording in `StructuralError.message`.
* `SceneTree.Draft`: the tree of the first few records, to which the next one is added.
* `SceneTree.ofRecords`: the tree that records form.

## Main results

* `SceneTree.latest?_eq_some_iff`: what it means for a node to be the latest with a property.
* `SceneTree.Draft.addAll_append`: records can be added in two goes, if the first go is told which
  records are to follow.
-/

namespace SceneAudit

open Scene

/-- A node with its links in the tree. -/
structure SceneNode where
  name : String
  kind : Option String
  /-- The parent; the root has none. -/
  parent : Option Nat
  /-- The children, in the order of declaration. -/
  children : List Nat
  /-- The line of the declaration. -/
  line : Nat
  deriving DecidableEq, Repr

/-- The node of a record under the given parent, without children yet. -/
def SceneNode.ofRecord (record : NodeRecord) (parent : Option Nat) : SceneNode where
  name := record.name
  kind := record.kind
  parent := parent
  children := []
  line := record.line

/-- The nodes of a scene in the order of declaration, and the script attached to the root. -/
structure SceneTree where
  nodes : Array SceneNode
  script : Option String
  deriving DecidableEq, Repr

namespace SceneTree

/-! ### Walking the tree -/

/-- The root of every scene. -/
def root : Nat := 0

/-- The number of nodes. -/
def size (tree : SceneTree) : Nat :=
  tree.nodes.size

/-- The nodes in the order of declaration. -/
def ids (tree : SceneTree) : List Nat :=
  List.range tree.size

/-- The name of a node. -/
def name (tree : SceneTree) (id : Nat) : String :=
  (tree.nodes[id]?.map SceneNode.name).getD ""

/-- The parent of a node, which the root does not have. -/
def parent? (tree : SceneTree) (id : Nat) : Option Nat :=
  tree.nodes[id]?.bind SceneNode.parent

/-- The children of a node, in the order of declaration. -/
def children (tree : SceneTree) (id : Nat) : List Nat :=
  (tree.nodes[id]?.map SceneNode.children).getD []

/-- The parent of a node, the parent of that, and so on. A link that does not lead to an earlier
node ends the chain; in a tree formed by records there is none. -/
def ancestors (tree : SceneTree) (id : Nat) : List Nat :=
  match tree.parent? id with
  | none => []
  | some parent => parent :: if parent < id then tree.ancestors parent else []
termination_by id

/-! ### Errors -/

/-- What is wrong with a node that does not fit into the tree. -/
inductive NodeFault where
  /-- The first node names a parent. -/
  | rootHasParent
  /-- The parent is not declared anywhere. -/
  | parentUnresolved
  /-- The parent is declared after the node. -/
  | parentForwardReference
  /-- The parent is the node itself. -/
  | parentCycle
  /-- The parent has a child of that name already. -/
  | duplicateSibling
  deriving DecidableEq, Repr

end SceneTree

/-- Why records do not form a tree. -/
inductive StructuralError where
  /-- There are no records. -/
  | rootMissing
  /-- The record with the given name, parent and line does not fit. -/
  | atNode (fault : SceneTree.NodeFault) (name parent : String) (line : Nat)
  deriving DecidableEq, Repr

namespace SceneTree.NodeFault

/-- The kind of finding that a fault is reported as. -/
def kind : NodeFault → Diagnostic.Kind
  | rootHasParent => .rootHasParent
  | parentUnresolved => .parentUnresolved
  | parentForwardReference => .parentForwardReference
  | parentCycle => .parentCycle
  | duplicateSibling => .duplicateSibling

end SceneTree.NodeFault

namespace StructuralError

/-- The kind of finding that an error is reported as. -/
def kind : StructuralError → Diagnostic.Kind
  | rootMissing => .rootMissing
  | atNode fault _ _ _ => fault.kind

/-- The line of the record that does not fit. -/
def line? : StructuralError → Option Nat
  | rootMissing => none
  | atNode _ _ _ line => some line

/-- The wording of an error. -/
def message : StructuralError → String
  | rootMissing => "Scene declares no nodes, so it has no root."
  | atNode .rootHasParent name parent _ =>
    "Root node \"" ++ name ++ "\" must not carry a parent attribute (found parent=\"" ++ parent ++
      "\")."
  | atNode .parentUnresolved name parent _ =>
    "Node \"" ++ name ++ "\" names parent \"" ++ parent ++
      "\", which is not declared in this scene."
  | atNode .parentForwardReference name parent _ =>
    "Node \"" ++ name ++ "\" names parent \"" ++ parent ++ "\" before that node is declared."
  | atNode .parentCycle name parent _ =>
    "Node \"" ++ name ++ "\" names itself as its parent (\"" ++ parent ++ "\")."
  | atNode .duplicateSibling name parent _ =>
    "Node \"" ++ name ++ "\" is declared twice under \"" ++ parent ++ "\"."

theorem isStructural_kind (error : StructuralError) : error.kind.isStructural = true := by
  cases error with
  | rootMissing => rfl
  | atNode fault => cases fault <;> rfl

end StructuralError

namespace SceneTree

/-! ### Drafts -/

/-- The greatest number below `n` with the property `p`. -/
def latest? (p : Nat → Bool) : Nat → Option Nat
  | 0 => none
  | n + 1 => if p n then some n else latest? p n

theorem latest?_eq_none_iff {p : Nat → Bool} {n : Nat} :
    latest? p n = none ↔ ∀ i < n, p i = false := by
  induction n with
  | zero => simp [latest?]
  | succ n ih =>
    rw [latest?]
    split
    · rename_i h
      simp only [reduceCtorEq, false_iff]
      exact fun all => by simp [all n (by omega)] at h
    · rename_i h
      rw [ih]
      constructor
      · intro all i lt
        rcases Nat.lt_succ_iff_lt_or_eq.1 lt with lt | rfl
        · exact all i lt
        · simpa using h
      · exact fun all i lt => all i (by omega)

/-- A number is the latest one with a property if it has the property and no later one does. -/
theorem latest?_eq_some_iff {p : Nat → Bool} {n i : Nat} :
    latest? p n = some i ↔ i < n ∧ p i = true ∧ ∀ j, i < j → j < n → p j = false := by
  induction n with
  | zero => simp [latest?]
  | succ n ih =>
    rw [latest?]
    split
    · rename_i h
      simp only [Option.some.injEq]
      constructor
      · rintro rfl
        exact ⟨by omega, h, fun j _ _ => by omega⟩
      · rintro ⟨lt, -, none⟩
        rcases Nat.lt_succ_iff_lt_or_eq.1 lt with lt | rfl
        · simp [none n lt (by omega)] at h
        · rfl
    · rename_i h
      rw [ih]
      constructor
      · rintro ⟨lt, here, none⟩
        refine ⟨by omega, here, fun j after lt => ?_⟩
        rcases Nat.lt_succ_iff_lt_or_eq.1 lt with lt | rfl
        · exact none j after lt
        · simpa using h
      · rintro ⟨lt, here, none⟩
        have : i ≠ n := fun eq => h (eq ▸ here)
        exact ⟨by omega, here, fun j after lt => none j after (by omega)⟩

/-- The tree formed by the records so far, with the path of each node from the root. -/
structure Draft where
  nodes : Array SceneNode
  /-- The path of each node; the one of the root is not used. -/
  paths : Array String
  deriving DecidableEq, Repr

namespace Draft

/-- The draft of a single record. -/
def start (record : NodeRecord) : Draft where
  nodes := #[SceneNode.ofRecord record none]
  paths := #[""]

/-- The latest node with the given path from the root, the root excluded. -/
def withPath? (draft : Draft) (path : String) : Option Nat :=
  latest? (fun id => id != root && draft.paths[id]? == some path) draft.nodes.size

/-- The latest node with the given name. -/
def withName? (draft : Draft) (name : String) : Option Nat :=
  latest? (fun id => draft.nodes[id]?.map SceneNode.name == some name) draft.nodes.size

/-- The node meant by a parent that is named: by its path if a node has it, else by its name. -/
def resolve? (draft : Draft) (parent : String) : Option Nat :=
  (draft.withPath? parent).or (draft.withName? parent)

/-- What is wrong with a parent that no earlier node answers to. Of its path only the last segment
is looked at: whether it is the name of the record itself or of a later one. -/
def missingParent (record : NodeRecord) (parent : String) (later : List NodeRecord) : NodeFault :=
  let target := Text.finalSegment parent
  if target = record.name then .parentCycle
  else if later.any fun other => other.name == target then .parentForwardReference
  else .parentUnresolved

/-- The parent of the next record, given the records after it. -/
def parentOf (draft : Draft) (record : NodeRecord) (later : List NodeRecord) :
    Except StructuralError Nat :=
  match record.parent with
  | .absent | .root => .ok root
  | .node parent =>
    match draft.resolve? parent with
    | some id => .ok id
    | none => .error (.atNode (missingParent record parent later) record.name parent record.line)

/-- Whether a node has a child of the given name. -/
def hasChild (draft : Draft) (parent : Nat) (name : String) : Bool :=
  ((draft.nodes[parent]?.map SceneNode.children).getD []).any fun child =>
    draft.nodes[child]?.map SceneNode.name == some name

/-- The path of a node as errors show it. -/
def label (draft : Draft) (id : Nat) : String :=
  if id = root then rootMark else (draft.paths[id]?).getD ""

/-- The path of a child of `parent`. -/
def childPath (draft : Draft) (parent : Nat) (name : String) : String :=
  if parent = root then name else (draft.paths[parent]?).getD "" ++ "/" ++ name

/-- The draft with the record as the last child of `parent`. -/
def attach (draft : Draft) (parent : Nat) (record : NodeRecord) : Draft where
  nodes :=
    (draft.nodes.modify parent fun node =>
        { node with children := node.children ++ [draft.nodes.size] }).push
      (SceneNode.ofRecord record (some parent))
  paths := draft.paths.push (draft.childPath parent record.name)

/-- The draft with the next record added, given the records after it. -/
def add (draft : Draft) (record : NodeRecord) (later : List NodeRecord) :
    Except StructuralError Draft :=
  match draft.parentOf record later with
  | .error error => .error error
  | .ok parent =>
    if draft.hasChild parent record.name then
      .error (.atNode .duplicateSibling record.name (draft.label parent) record.line)
    else .ok (draft.attach parent record)

/-- The draft with the given records added, `later` being the records after them. -/
def addAll (later : List NodeRecord) : Draft → List NodeRecord → Except StructuralError Draft
  | draft, [] => .ok draft
  | draft, record :: rest =>
    match draft.add record (rest ++ later) with
    | .error error => .error error
    | .ok draft => addAll later draft rest

/-- **Records can be added in two goes,** if the first go is told which records are to follow. -/
theorem addAll_append (later front back : List NodeRecord) (draft : Draft) :
    addAll later draft (front ++ back) =
      (addAll (back ++ later) draft front).bind fun draft => addAll later draft back := by
  induction front generalizing draft with
  | nil => rfl
  | cons record front ih =>
    simp only [List.cons_append, addAll, List.append_assoc]
    cases draft.add record (front ++ (back ++ later)) with
    | error error => rfl
    | ok next => exact ih next

end Draft

/-! ### The tree of a scene -/

/-- The tree that records form: the first record is the root and has to name no parent, and the
others are added one after the other. -/
def ofRecords : List NodeRecord → Except StructuralError SceneTree
  | [] => .error .rootMissing
  | first :: rest =>
    match first.parent.value? with
    | some parent => .error (.atNode .rootHasParent first.name parent first.line)
    | none =>
      match Draft.addAll [] (Draft.start first) rest with
      | .error error => .error error
      | .ok draft => .ok { nodes := draft.nodes, script := first.script }

end SceneTree

end SceneAudit
