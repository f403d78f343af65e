import SceneAudit.Proofs.Tree.Ancestry

/-!
# The index in depth-first order

Which of two nodes comes first, depth first, is said by their links to their parents: a node comes
before the nodes below it, and of two nodes in the subtrees of two siblings the one below the
earlier sibling comes first. Read from the root down, the chains of nodes that lead to them are then
in lexicographic order. So no two nodes come before each other, and there is one list of all nodes
below the root in this order. The path index goes through this list, with the names of the chains as
its paths.

## Main definitions

* `SceneTree.IsBefore`: a node comes before another one, depth first.
* `SceneTree.IsDepthFirst`: all nodes below the root, depth first.
* `SceneTree.lineage`: the ancestors of a node below the root and the node itself, from above.

## Main results

* `SceneTree.way_eq_map_lineage`: the names on the way to a node are those of its lineage.
* `SceneTree.IsBefore.lineage_lt`: nodes in depth-first order have lineages in lexicographic order.
* `SceneTree.isDepthFirst_iff`: the nodes in depth-first order are those that the walk meets.
* `PathIndex.ofTree_depthFirst`: the index of the tree that records form.
-/

namespace SceneAudit

open Scene Text

namespace SceneTree

/-- The node `first` comes before the node `second`, depth first: it stands above it, or in the
subtree of an earlier sibling of `second` or of a node above `second`. -/
inductive IsBefore (tree : SceneTree) : Nat → Nat → Prop
  | above {first second parent : Nat} (link : tree.parent? second = some parent)
      (under : tree.IsUnder first parent) : tree.IsBefore first second
  | beside {first second left right parent : Nat} (earlier : left < right)
      (linkLeft : tree.parent? left = some parent) (linkRight : tree.parent? right = some parent)
      (underLeft : tree.IsUnder left first) (underRight : tree.IsUnder right second) :
      tree.IsBefore first second

/-- The nodes are those below the root, each once and depth first, children in the order of their
declaration. -/
structure IsDepthFirst (tree : SceneTree) (nodes : List Nat) : Prop where
  nodup : nodes.Nodup
  mem_iff : ∀ id, id ∈ nodes ↔ id < tree.size ∧ id ≠ root
  ordered : nodes.Pairwise tree.IsBefore

/-- The ancestors of a node from below the root down, and the node itself. -/
def lineage (tree : SceneTree) (id : Nat) : List Nat :=
  ((id :: tree.ancestors id).filter (· != root)).reverse

variable {tree : SceneTree} {id parent : Nat}

/-! ### Lineages -/

private theorem lineage_root (shape : tree.IsWellFormed) : tree.lineage root = [] := by
  rw [lineage, ancestors_of_parent?_eq_none shape.parent?_root]
  rfl

theorem lineage_of_parent? (shape : tree.IsWellFormed) (link : tree.parent? id = some parent) :
    tree.lineage id = tree.lineage parent ++ [id] := by
  have below : (id != root) = true := bne_iff_ne.2 (shape.ne_root_of_parent? link)
  rw [lineage, ancestors_of_parent? shape link, List.filter_cons, if_pos below,
    List.reverse_cons, lineage]

/-- The names on the way to a node are those of its lineage. -/
theorem way_eq_map_lineage (shape : tree.IsWellFormed) (lt : id < tree.size) :
    tree.way id = (tree.lineage id).map tree.name := by
  induction id using shape.parent_induction with
  | top id link =>
    obtain rfl := (parent?_eq_none_iff shape lt).1 link
    rw [way_root shape, lineage_root shape, List.map_nil]
  | step id parent link ih =>
    rw [way_of_parent? shape link, lineage_of_parent? shape link, List.map_append,
      ih (Nat.lt_trans (shape.lt_of_parent? link) lt), List.map_singleton]

/-- The lineage of a node goes on from that of any node above it. -/
private theorem IsUnder.exists_lineage {top : Nat} (shape : tree.IsWellFormed)
    (under : tree.IsUnder top id) : ∃ rest, tree.lineage id = tree.lineage top ++ rest := by
  induction under with
  | refl => exact ⟨[], (List.append_nil _).symm⟩
  | @step id parent link _ ih =>
    obtain ⟨rest, eq⟩ := ih
    exact ⟨rest ++ [id], by rw [lineage_of_parent? shape link, eq, List.append_assoc]⟩

/-! ### The order of nodes -/

/-- Nodes in depth-first order have lineages in lexicographic order. -/
theorem IsBefore.lineage_lt {first second : Nat} (shape : tree.IsWellFormed)
    (h : tree.IsBefore first second) : tree.lineage first < tree.lineage second := by
  cases h with
  | above link under =>
    obtain ⟨rest, eq⟩ := under.exists_lineage shape
    have longer : [] < rest ++ [second] := by
      cases rest with
      | nil => exact List.nil_lt_cons second []
      | cons id rest => exact List.nil_lt_cons id _
    have further : tree.lineage first ++ [] < tree.lineage first ++ (rest ++ [second]) :=
      List.append_left_lt longer
    rwa [List.append_nil, ← List.append_assoc, ← eq, ← lineage_of_parent? shape link] at further
  | beside earlier linkLeft linkRight underLeft underRight =>
    obtain ⟨restLeft, eqLeft⟩ := underLeft.exists_lineage shape
    obtain ⟨restRight, eqRight⟩ := underRight.exists_lineage shape
    rw [eqLeft, eqRight, lineage_of_parent? shape linkLeft, lineage_of_parent? shape linkRight,
      List.append_assoc, List.append_assoc]
    exact List.append_left_lt (List.cons_lt_cons_iff.2 (.inl earlier))

/-- No two nodes come before each other. -/
theorem IsBefore.asymm {first second : Nat} (shape : tree.IsWellFormed)
    (h : tree.IsBefore first second) : ¬tree.IsBefore second first := fun h' =>
  List.lt_asymm (h.lineage_lt shape) (h'.lineage_lt shape)

/-- Subtrees of siblings, one after the other, are in depth-first order if each of them is. -/
theorem pairwise_flatMap_subtree (shape : tree.IsWellFormed)
    (inside : ∀ child ∈ tree.children id, (tree.subtree child).Pairwise tree.IsBefore) :
    ((tree.children id).flatMap tree.subtree).Pairwise tree.IsBefore := by
  refine List.pairwise_flatMap.2 ⟨inside, ?_⟩
  refine (shape.pairwise_children id).imp_of_mem ?_
  intro left right memLeft memRight earlier first memFirst second memSecond
  exact .beside earlier (shape.mem_children.1 memLeft) (shape.mem_children.1 memRight)
    ((mem_subtree shape).1 memFirst) ((mem_subtree shape).1 memSecond)

private theorem pairwise_subtree (shape : tree.IsWellFormed) (id : Nat) :
    (tree.subtree id).Pairwise tree.IsBefore := by
  induction id using shape.child_induction with
  | step id ih =>
    rw [subtree_eq shape, List.pairwise_cons]
    refine ⟨fun other mem => ?_, pairwise_flatMap_subtree shape ih⟩
    obtain ⟨child, listed, under⟩ := List.mem_flatMap.1 mem
    have link := shape.mem_children.1 listed
    cases (mem_subtree shape).1 under with
    | refl => exact .above link .refl
    | step lower upper => exact .above lower (upper.trans (.step link .refl))

/-- The walk meets the nodes below the root in depth-first order. -/
theorem isDepthFirst_preorder (shape : tree.IsWellFormed) : tree.IsDepthFirst tree.preorder where
  nodup := nodup_preorder shape
  mem_iff _ := mem_preorder shape
  ordered := pairwise_flatMap_subtree shape fun child _ => pairwise_subtree shape child

/-- There is one list of the nodes in depth-first order, the one that the walk meets. -/
theorem isDepthFirst_iff (shape : tree.IsWellFormed) {nodes : List Nat} :
    tree.IsDepthFirst nodes ↔ nodes = tree.preorder := by
  have met := isDepthFirst_preorder shape
  constructor
  · intro listed
    have same : nodes.Perm tree.preorder :=
      (List.perm_ext_iff_of_nodup listed.nodup met.nodup).2 fun id =>
        (listed.mem_iff id).trans (met.mem_iff id).symm
    exact same.eq_of_pairwise (fun _ _ _ _ before after => absurd after (before.asymm shape))
      listed.ordered met.ordered
  · rintro rfl
    exact met

private theorem length_preorder (shape : tree.IsWellFormed) :
    tree.preorder.length + 1 = tree.size := by
  have all : (root :: tree.preorder).Perm tree.ids := by
    have nodup : (root :: tree.preorder).Nodup := subtree_root shape ▸ nodup_subtree shape root
    refine (List.perm_ext_iff_of_nodup nodup List.nodup_range).2 fun id => ?_
    rw [List.mem_cons, mem_preorder shape, List.mem_range]
    constructor
    · rintro (rfl | below)
      · exact shape.root_lt
      · exact below.1
    · exact fun lt => (Decidable.em (id = root)).imp_right fun ne => ⟨lt, ne⟩
  rw [← List.length_cons, all.length_eq, ids, List.length_range]

end SceneTree

/-! ### The index -/

namespace PathIndex

open SceneTree

variable {records : List NodeRecord} {tree : SceneTree}

/-- The entries with a final segment are those whose path ends with it. -/
private theorem mem_withFinalSegment_iff {index : PathIndex} {segment : String}
    {entry : String × Nat} : entry ∈ index.withFinalSegment segment ↔
      entry ∈ index.entries ∧ IsFinalSegment segment entry.1 := by
  rw [withFinalSegment, List.mem_filter, beq_iff_eq, finalSegment_eq_iff]

/-- **The index is in depth-first order.** Let records with names form a tree. Then the index of the
tree has an entry for each node but the root, depth first and with children in the order of their
declaration. The path of a node is made of the names of its ancestors from below the root down and
its own, joined by slashes; the root has none. The paths are listed in the order of the entries, and
so are the entries whose path ends with a given segment. -/
theorem ofTree_depthFirst (named : ∀ record ∈ records, record.name ≠ "")
    (formed : ofRecords records = .ok tree) :
    (∀ nodes, tree.IsDepthFirst nodes ↔ nodes = (ofTree tree).entries.map Prod.snd) ∧
      (ofTree tree).size + 1 = tree.size ∧ (ofTree tree).pathOf? root = none ∧
      (∀ id < tree.size, id ≠ root →
        (ofTree tree).pathOf? id = some (joinSegments ((tree.lineage id).map tree.name))) ∧
      (ofTree tree).paths.map some =
        ((ofTree tree).entries.map Prod.snd).map (ofTree tree).pathOf? ∧
      ∀ segment, ((ofTree tree).withFinalSegment segment).Sublist (ofTree tree).entries ∧
        ∀ entry, entry ∈ (ofTree tree).withFinalSegment segment ↔
          entry ∈ (ofTree tree).entries ∧ IsFinalSegment segment entry.1 := by
  have shape := isWellFormed_of_ofRecords formed
  have isNamed := isNamed_of_ofRecords formed named
  have entries := entries_ofTree shape isNamed
  have visited : (ofTree tree).entries.map Prod.snd = tree.preorder := by
    rw [entries, List.map_map]
    exact List.map_id _
  have pathOf {id : Nat} (lt : id < tree.size) (ne : id ≠ root) :
      (ofTree tree).pathOf? id = some (tree.path id) :=
    (pathOf?_ofTree shape isNamed).2 ⟨lt, ne, rfl⟩
  refine ⟨fun nodes => ?_, ?_, ?_, fun id lt ne => ?_, ?_,
    fun segment => ⟨List.filter_sublist, fun entry => mem_withFinalSegment_iff⟩⟩
  · rw [visited]
    exact isDepthFirst_iff shape
  · rw [size, entries, List.length_map, length_preorder shape]
  · refine Option.eq_none_iff_forall_ne_some.2 fun path found => ?_
    exact ((pathOf?_ofTree shape isNamed).1 found).2.1 rfl
  · rw [pathOf lt ne, SceneTree.path, way_eq_map_lineage shape lt]
  · rw [paths_ofTree shape isNamed, visited, List.map_map]
    refine List.map_congr_left fun id mem => ?_
    obtain ⟨lt, ne⟩ := (mem_preorder shape).1 mem
    exact (pathOf lt ne).symm

/-- Records of two nodes below the root, each with a label that is declared after both of them. -/
def twoLabels : List NodeRecord :=
  [⟨"Hud", none, .absent, none, 1⟩, ⟨"Menu", some "Panel", .root, none, 2⟩,
    ⟨"Body", none, .root, none, 3⟩, ⟨"Label", none, .node "Menu", none, 5⟩,
    ⟨"Label", none, .node "Body", none, 6⟩]

theorem ofTree_depthFirst_twoLabels :
    (∀ record ∈ twoLabels, record.name ≠ "") ∧
      ∃ tree, ofRecords twoLabels = .ok tree ∧
        (∀ nodes, tree.IsDepthFirst nodes ↔ nodes = [1, 3, 2, 4]) ∧ (ofTree tree).size = 4 ∧
        (ofTree tree).pathOf? root = none ∧ (ofTree tree).pathOf? 3 = some "Menu/Label" ∧
        (ofTree tree).paths.map some = [1, 3, 2, 4].map (ofTree tree).pathOf? ∧
        (ofTree tree).withFinalSegment "Label" = [("Menu/Label", 3), ("Body/Label", 4)] := by
  have named : ∀ record ∈ twoLabels, record.name ≠ "" := by decide
  have computed : (ofRecords twoLabels).toOption.map (fun tree =>
      (tree.size, (ofTree tree).entries.map Prod.snd, (tree.lineage 3).map tree.name,
        (ofTree tree).withFinalSegment "Label")) =
      some (5, [1, 3, 2, 4], ["Menu", "Label"], [("Menu/Label", 3), ("Body/Label", 4)]) := by
    decide +kernel
  obtain ⟨tree, formed, values⟩ := exists_of_map_ofRecords computed
  simp only [Prod.mk.injEq] at values
  obtain ⟨size, visited, names, labels⟩ := values
  obtain ⟨order, length, noPath, pathOf, paths, -⟩ := ofTree_depthFirst named formed
  rw [visited] at order paths
  refine ⟨named, tree, formed, order, by omega, noPath, ?_, paths, labels⟩
  rw [pathOf 3 (by omega) (by decide), names]
  rfl

end PathIndex

end SceneAudit
