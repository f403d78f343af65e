import SceneAudit.Proofs.Tree.Draft

/-!
# The way up from a node

A tree is walked up by going from a node to its parent, to the parent of that, and so on, until a
node has no parent. Nothing in the links themselves says that this comes to an end. In the tree that
records form it does, because every parent is declared before its children, and it ends at the root.

## Main definitions

* `SceneTree.Climbs`: the nodes met by following the links to the parents as long as there are any.

## Main results

* `SceneTree.climbs_ancestors`: the chain of parents of a node is what is met on the way up.
* `SceneTree.pairwise_ancestors`: the way up leads from later nodes to earlier ones.
* `SceneTree.getLast?_ancestors`: it ends at the root.
* `SceneTree.ofRecords_isTree`: the nodes of a tree are those of its records, ordered as a tree.
-/

namespace SceneAudit

open Scene

namespace SceneTree

variable {tree : SceneTree} {id parent : Nat}

/-- From the given node, if any, the links to the parents are followed until there is none. Nothing
keeps the links from leading on for ever, in which case no list is related to the node. -/
inductive Climbs (tree : SceneTree) : Option Nat → List Nat → Prop
  | done : tree.Climbs none []
  | next {id : Nat} {rest : List Nat} (further : tree.Climbs (tree.parent? id) rest) :
      tree.Climbs (some id) (id :: rest)

/-- There is one way up. -/
private theorem Climbs.unique {start : Option Nat} {ids others : List Nat}
    (h : tree.Climbs start ids) (h' : tree.Climbs start others) : ids = others := by
  induction h generalizing others with
  | done =>
    cases h'
    rfl
  | next _ ih =>
    cases h' with
    | next further => rw [ih further]

theorem ancestors_of_parent? (shape : tree.IsWellFormed) (link : tree.parent? id = some parent) :
    tree.ancestors id = parent :: tree.ancestors parent := by
  rw [ancestors, link]
  simp only [shape.lt_of_parent? link, ↓reduceIte]

theorem ancestors_of_parent?_eq_none (top : tree.parent? id = none) : tree.ancestors id = [] := by
  rw [ancestors, top]

/-- The chain of parents of a node is what is met on the way up from it. -/
theorem climbs_ancestors (shape : tree.IsWellFormed) (id : Nat) :
    tree.Climbs (tree.parent? id) (tree.ancestors id) := by
  induction id using shape.parent_induction with
  | top id link =>
    rw [link, ancestors_of_parent?_eq_none link]
    exact .done
  | step id parent link ih =>
    rw [link, ancestors_of_parent? shape link]
    exact .next ih

/-- The way up leads from later nodes to earlier ones. -/
theorem pairwise_ancestors (shape : tree.IsWellFormed) (id : Nat) :
    (id :: tree.ancestors id).Pairwise (· > ·) := by
  induction id using shape.parent_induction with
  | top id link =>
    rw [ancestors_of_parent?_eq_none link]
    exact List.pairwise_singleton _ id
  | step id parent link ih =>
    have lt := shape.lt_of_parent? link
    rw [ancestors_of_parent? shape link]
    refine List.pairwise_cons.2 ⟨fun other mem => ?_, ih⟩
    rcases List.mem_cons.1 mem with rfl | above
    · exact lt
    · exact Nat.lt_trans (List.rel_of_pairwise_cons ih above) lt

private theorem not_mem_ancestors (shape : tree.IsWellFormed) (id : Nat) : id ∉ tree.ancestors id :=
  fun mem => Nat.lt_irrefl id (List.rel_of_pairwise_cons (pairwise_ancestors shape id) mem)

private theorem nodup_ancestors (shape : tree.IsWellFormed) (id : Nat) :
    (tree.ancestors id).Nodup :=
  (pairwise_ancestors shape id).of_cons.imp Nat.ne_of_gt

/-- The way up from a node below the root ends at the root. -/
theorem getLast?_ancestors (shape : tree.IsWellFormed) (lt : id < tree.size) (ne : id ≠ root) :
    (tree.ancestors id).getLast? = some root := by
  induction id using Nat.strongRecOn with
  | ind id ih =>
    obtain ⟨parent, before, link⟩ := shape.parent_lt id lt ne
    rw [ancestors_of_parent? shape link, List.getLast?_cons]
    by_cases top : parent = root
    · rw [top, ancestors_of_parent?_eq_none shape.parent?_root]
      rfl
    · rw [ih parent before (Nat.lt_trans before lt) top, Option.getD_some]

theorem parent?_eq_none_iff (shape : tree.IsWellFormed) (lt : id < tree.size) :
    tree.parent? id = none ↔ id = root := by
  constructor
  · intro none
    apply Classical.byContradiction
    intro ne
    obtain ⟨parent, -, link⟩ := shape.parent_lt id lt ne
    rw [none] at link
    contradiction
  · rintro rfl
    exact shape.parent?_root

/-- **Records that can be put together form a tree.** There is a node for each record, with its
name, type and line. The first node alone has no parent, every other one has an earlier parent, the
children of a node are the nodes whose parent it is, each once and in the order of declaration, and
siblings have different names. Hence the way up from a node comes to an end, meets neither the node
itself nor any node twice, and ends at the root. -/
theorem ofRecords_isTree {records : List NodeRecord} {tree : SceneTree}
    (formed : ofRecords records = .ok tree) :
    tree.nodes.toList.map (fun node => (node.name, node.kind, node.line)) =
        records.map (fun record => (record.name, record.kind, record.line)) ∧
      root < tree.size ∧
      (∀ id < tree.size, tree.parent? id = none ↔ id = root) ∧
      (∀ id parent, tree.parent? id = some parent → parent < id) ∧
      (∀ id child, child ∈ tree.children id ↔ tree.parent? child = some id) ∧
      (∀ id, (tree.children id).Pairwise (· < ·) ∧ (tree.children id).Nodup) ∧
      (∀ left right parent, left ≠ right → tree.parent? left = some parent →
        tree.parent? right = some parent → tree.name left ≠ tree.name right) ∧
      ∀ id < tree.size,
        (∀ chain, tree.Climbs (tree.parent? id) chain ↔ chain = tree.ancestors id) ∧
          id ∉ tree.ancestors id ∧ (tree.ancestors id).Nodup ∧
          (id ≠ root → (tree.ancestors id).getLast? = some root) := by
  obtain ⟨draft, script, rfl, tracks⟩ := exists_tracks formed
  have shape := tracks.shape script
  refine ⟨tracks.nodes, shape.root_lt, fun id lt => parent?_eq_none_iff shape lt,
    fun id parent link => shape.lt_of_parent? link, fun id child => shape.mem_children,
    fun id => ⟨shape.pairwise_children id, (shape.pairwise_children id).imp Nat.ne_of_lt⟩,
    fun left right parent ne linkLeft linkRight =>
      shape.name_ne_of_siblings ne linkLeft linkRight,
    fun id lt => ⟨fun chain => ⟨fun climbs => climbs.unique (climbs_ancestors shape id), ?_⟩,
      not_mem_ancestors shape id, nodup_ancestors shape id,
      fun ne => getLast?_ancestors shape lt ne⟩⟩
  rintro rfl
  exact climbs_ancestors shape id

/-- Records of a chain of four nodes, the last one with the name of the second one, and of a node
beside this chain. -/
def chained : List NodeRecord :=
  [⟨"Hud", none, .absent, none, 1⟩, ⟨"A", some "Panel", .root, none, 2⟩,
    ⟨"B", none, .node "A", none, 4⟩, ⟨"A", none, .node "A/B", none, 5⟩, ⟨"B", none, .root, none, 9⟩]

theorem ofRecords_chained :
    ∃ tree, ofRecords chained = .ok tree ∧ tree.children root = [1, 4] ∧
      (∀ chain, tree.Climbs (tree.parent? 3) chain ↔ chain = [2, 1, 0]) ∧
      3 ∉ tree.ancestors 3 ∧ (tree.ancestors 3).getLast? = some root := by
  have computed : (ofRecords chained).toOption.map (fun tree =>
      (tree.size, tree.children root, tree.ancestors 3)) = some (5, [1, 4], [2, 1, 0]) := by
    decide +kernel
  cases formed : ofRecords chained with
  | error error =>
    rw [formed] at computed
    contradiction
  | ok tree =>
    rw [formed] at computed
    simp only [Except.toOption, Option.map_some, Option.some.injEq, Prod.mk.injEq] at computed
    obtain ⟨size, children, ancestors⟩ := computed
    obtain ⟨-, -, -, -, -, -, -, up⟩ := ofRecords_isTree formed
    obtain ⟨climbs, others, -, last⟩ := up 3 (by omega)
    exact ⟨tree, rfl, children, ancestors ▸ climbs, others, last (by decide)⟩

end SceneTree

end SceneAudit
