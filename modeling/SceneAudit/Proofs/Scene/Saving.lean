import SceneAudit.Proofs.Scene.Reading
import SceneAudit.Proofs.Scene.Writing
import SceneAudit.Proofs.Tree.Collision
import SceneAudit.Proofs.Tree.Construction
import SceneAudit.Scene.Outline

/-!
# Saved scenes

An outline that is saved as a scene is read back exactly. Its declarations are read back one by one,
and they are put together again: when a node is added, the tree has the nodes before it, so that the
path by which its parent is named leads to that parent and, since no name has a slash, to no other
node. No node is looked up by its name alone, however often names are repeated.

## Main definitions

* `SceneTree.Follows`: the nodes of a tree are the first ones of an outline.
* `SceneTree.Draft.Builds`: a draft is the one of the first nodes of an outline.
* `Scene.Outline.node?`: the node of a tree that an outline describes.

## Main results

* `SceneTree.Follows.means_parentRef`: the path of a node leads to this node and to no other.
* `SceneTree.Follows.preorder_eq`: a tree is walked like its outline.
* `SceneTree.Draft.Builds.add`: the next node of an outline is put under its parent.
* `Scene.Outline.read_text`: a saved outline is read back as its declarations.
* `Analysis.ofText_outline`: a saved outline is read back.
-/

namespace SceneAudit

open Scene

/-! ### Trees of outlines -/

namespace SceneTree

variable {tree : SceneTree} {outline : Outline} {id : Nat}

/-- The nodes of the tree are the first nodes of the outline, with their names and parents. -/
structure Follows (tree : SceneTree) (outline : Outline) : Prop where
  shape : tree.IsWellFormed
  size_le : tree.size ≤ outline.size
  name : ∀ i item, outline.items[i]? = some item → i + 1 < tree.size →
    tree.name (i + 1) = item.name
  link : ∀ i item, outline.items[i]? = some item → i + 1 < tree.size →
    tree.parent? (i + 1) = some item.parent

namespace Follows

theorem exists_item (follows : tree.Follows outline) {i : Nat} (lt : i + 1 < tree.size) :
    ∃ item, outline.items[i]? = some item := by
  have bound : i < outline.items.length := by
    have le := follows.size_le
    rw [Outline.size] at le
    omega
  exact ⟨_, List.getElem?_eq_getElem bound⟩

theorem way_eq (follows : tree.Follows outline) (lt : id < tree.size) :
    tree.way id = outline.way id := by
  induction id using Nat.strongRecOn with
  | ind id ih =>
    cases id with
    | zero =>
      rw [Outline.way]
      exact way_root follows.shape
    | succ i =>
      obtain ⟨item, found⟩ := follows.exists_item lt
      have link := follows.link i item found lt
      have earlier := follows.shape.lt_of_parent? link
      rw [way_of_parent? follows.shape link, Outline.way_succ found (Nat.le_of_lt_succ earlier),
        ih item.parent earlier (Nat.lt_trans earlier lt), follows.name i item found lt]

theorem path_eq (follows : tree.Follows outline) (lt : id < tree.size) :
    tree.path id = outline.path id := by
  rw [path, Outline.path, follows.way_eq lt]

/-- Different nodes of a tree that follows an outline have different paths. -/
private theorem eq_of_path_eq (follows : tree.Follows outline) (written : outline.IsWellFormed)
    (named : tree.IsNamed) {other : Nat} {path : String}
    (h : tree.HasPath path id) (h' : tree.HasPath path other) : id = other := by
  refine (isIndexedOnce_of_no_slash follows.shape named fun id lt ne => ?_).injective id other path
    h h'
  obtain ⟨i, rfl⟩ := Nat.exists_eq_succ_of_ne_zero ne
  obtain ⟨item, found⟩ := follows.exists_item lt
  rw [follows.name i item found lt]
  exact (written.name item (List.mem_of_getElem? found)).2.2.1

/-- The parent of the next node is found by its path. -/
theorem means_parentRef (follows : tree.Follows outline) (written : outline.IsWellFormed)
    (named : tree.IsNamed) (lt : id < tree.size) : tree.Means (outline.parentRef id) id := by
  rw [Outline.parentRef]
  split
  · rename_i top
    exact top ▸ .root
  · rename_i ne
    have own : tree.HasPath (outline.path id) id :=
      (PathIndex.pathOf?_ofTree follows.shape named).2 ⟨lt, ne, follows.path_eq lt⟩
    refine .byPath ⟨lt, own, fun other after _ path => ?_⟩
    have same := follows.eq_of_path_eq written named own path
    omega

/-- The next node has none of the names that the children of its parent have. -/
theorem not_hasChildNamed (follows : tree.Follows outline) (written : outline.IsWellFormed)
    {item : Outline.Item} (found : outline.items[tree.size - 1]? = some item) :
    ¬tree.HasChildNamed item.parent item.name := by
  rintro ⟨child, lt, link, name⟩
  cases child with
  | zero =>
    rw [← root, follows.shape.parent?_root] at link
    contradiction
  | succ i =>
    obtain ⟨other, found'⟩ := follows.exists_item lt
    rw [follows.link i other found' lt, Option.some.injEq] at link
    rw [follows.name i other found' lt] at name
    obtain ⟨bound, rfl⟩ := List.getElem?_eq_some_iff.1 found
    obtain ⟨bound', rfl⟩ := List.getElem?_eq_some_iff.1 found'
    exact List.pairwise_iff_getElem.1 written.siblings i _ bound' bound (by omega) link name

/-! ### The whole outline -/

section Whole

variable (follows : tree.Follows outline) (whole : tree.size = outline.size)

include follows whole

private theorem parent?_eq_some_iff {i parent : Nat} :
    tree.parent? (i + 1) = some parent ↔ (outline.items[i]?.any fun item =>
      item.parent == parent) = true := by
  cases found : outline.items[i]? with
  | none =>
    have beyond : tree.size ≤ i + 1 := by
      rw [List.getElem?_eq_none_iff] at found
      rw [whole, Outline.size]
      omega
    simp [parent?_of_size_le beyond]
  | some item =>
    have lt : i + 1 < tree.size := by
      obtain ⟨bound, -⟩ := List.getElem?_eq_some_iff.1 found
      rw [whole, Outline.size]
      omega
    simp [follows.link i item found lt]

theorem children_eq (id : Nat) : tree.children id = outline.children id := by
  have ids : tree.ids = root :: List.range' 1 outline.items.length := by
    rw [ids, whole, Outline.size, List.range_eq_range', List.range'_succ]
    rfl
  have top : (tree.parent? root == some id) = false := by
    rw [follows.shape.parent?_root]
    rfl
  rw [follows.shape.children_eq, ids, List.filter_cons, top, Outline.children]
  refine List.filter_congr fun child mem => ?_
  obtain ⟨i, rfl⟩ : ∃ i, child = i + 1 := by
    obtain ⟨positive, -⟩ := List.mem_range'_1.1 mem
    exact ⟨child - 1, by omega⟩
  rw [Bool.eq_iff_iff, beq_iff_eq, follows.parent?_eq_some_iff whole, Nat.add_sub_cancel]

theorem subtree_eq (written : outline.IsWellFormed) (id : Nat) :
    tree.subtree id = outline.subtree id := by
  induction id using follows.shape.child_induction with
  | step id ih =>
    rw [SceneTree.subtree_eq follows.shape, Outline.subtree_eq written,
      ← follows.children_eq whole, List.flatMap_def, List.flatMap_def]
    exact congrArg _ (congrArg List.flatten (List.map_congr_left ih))

/-- A tree is walked like its outline. -/
theorem preorder_eq (written : outline.IsWellFormed) : tree.preorder = outline.preorder := by
  rw [Outline.preorder, ← follows.subtree_eq whole written]
  exact (congrArg List.tail (subtree_root follows.shape)).symm

end Whole

end Follows

/-! ### Adding the nodes of an outline -/

theorem getElem?_records_succ (outline : Outline) (i : Nat) :
    outline.records[i + 1]? = outline.items[i]?.map fun item =>
      ⟨item.name, item.kind, outline.parentRef item.parent, none, i + 2⟩ := by
  rw [Outline.records, List.getElem?_cons_succ, List.getElem?_mapIdx]

theorem length_records (outline : Outline) : outline.records.length = outline.size := by
  simp [Outline.records, Outline.size]

theorem name_ne_empty_of_mem_records (written : outline.IsWellFormed) {record : NodeRecord}
    (mem : record ∈ outline.records) : record.name ≠ "" := by
  rw [Outline.records, List.mem_cons] at mem
  rcases mem with rfl | mem
  · exact written.rootName.1
  · obtain ⟨i, lt, rfl⟩ := List.mem_mapIdx.1 mem
    exact (written.name _ (List.getElem_mem lt)).1

/-- The draft is that of the first `count` nodes of the outline and follows it. -/
structure Draft.Builds (draft : Draft) (outline : Outline) (count : Nat) : Prop where
  tracks : draft.Tracks (outline.records.take count)
  size_eq : draft.nodes.size = count
  follows : (draft.toTree none).Follows outline

namespace Draft.Builds

variable {draft : Draft} {later : List NodeRecord} {count : Nat}

theorem start (outline : Outline) :
    (Draft.start ⟨outline.rootName, outline.rootKind, .absent, none, 1⟩).Builds outline 1 where
  tracks := tracks_start _
  size_eq := rfl
  follows := {
    shape := isWellFormed_start _
    size_le := Nat.le_add_left 1 _
    name := fun i _ _ lt => absurd (Nat.lt_one_iff.1 lt) (Nat.succ_ne_zero i)
    link := fun i _ _ lt => absurd (Nat.lt_one_iff.1 lt) (Nat.succ_ne_zero i) }

/-- A node of the tree with one more node is the new one or an old one. -/
theorem eq_or_lt_size (builds : draft.Builds outline (count + 1)) {item other : Outline.Item}
    {i parent : Nat} {record : NodeRecord} (found : outline.items[count]? = some item)
    (found' : outline.items[i]? = some other)
    (lt : i + 1 < ((draft.attach parent record).toTree none).size) :
    (i + 1 = draft.nodes.size ∧ other = item) ∨
      (i + 1 ≠ draft.nodes.size ∧ i + 1 < (draft.toTree none).size) := by
  rw [size_toTree, size_attach] at lt
  by_cases new : i + 1 = draft.nodes.size
  · have same : i = count := Nat.succ.inj (new.trans builds.size_eq)
    rw [same, found, Option.some.injEq] at found'
    exact .inl ⟨new, found'.symm⟩
  · exact .inr ⟨new, by rw [size_toTree]; omega⟩

/-- With its next node the tree goes on to follow the outline. -/
theorem follows_attach (builds : draft.Builds outline (count + 1)) {item : Outline.Item}
    {record : NodeRecord} (found : outline.items[count]? = some item)
    (name : record.name = item.name)
    (shape : ((draft.attach item.parent record).toTree none).IsWellFormed) :
    ((draft.attach item.parent record).toTree none).Follows outline where
  shape := shape
  size_le := by
    obtain ⟨bound, -⟩ := List.getElem?_eq_some_iff.1 found
    rw [size_toTree, size_attach, builds.size_eq, Outline.size]
    omega
  name i other found' lt := by
    rw [name_attach]
    rcases builds.eq_or_lt_size found found' lt with ⟨new, rfl⟩ | ⟨old, before⟩
    · rw [ite_cond_eq_true _ _ (eq_true new), name]
    · rw [ite_cond_eq_false _ _ (eq_false old), builds.follows.name i other found' before]
  link i other found' lt := by
    rw [parent?_attach]
    rcases builds.eq_or_lt_size found found' lt with ⟨new, rfl⟩ | ⟨old, before⟩
    · rw [ite_cond_eq_true _ _ (eq_true new)]
    · rw [ite_cond_eq_false _ _ (eq_false old), builds.follows.link i other found' before]

/-- The next node of the outline is put under its parent. -/
theorem add (builds : draft.Builds outline (count + 1)) (written : outline.IsWellFormed)
    {record : NodeRecord} (next : outline.records[count + 1]? = some record) :
    ∃ draft', draft.add record later = .ok draft' ∧ draft'.Builds outline (count + 2) := by
  have named : ∀ other ∈ outline.records.take (count + 1), other.name ≠ "" := fun other mem =>
    name_ne_empty_of_mem_records written (List.mem_of_mem_take mem)
  have listed := next
  rw [getElem?_records_succ] at next
  obtain ⟨item, found, eq⟩ := Option.map_eq_some_iff.1 next
  have name : record.name = item.name := eq ▸ rfl
  have earlier : item.parent < draft.nodes.size := by
    obtain ⟨bound, rfl⟩ := List.getElem?_eq_some_iff.1 found
    rw [builds.size_eq]
    exact Nat.lt_succ_of_le (written.parent count bound)
  have parent : draft.parentOf record later = .ok item.parent := by
    rw [parentOf_eq_ok_iff builds.tracks named, ← eq]
    exact builds.follows.means_parentRef written (builds.tracks.isNamed named) earlier
  have fresh : draft.hasChild item.parent record.name = false := by
    have found' : outline.items[(draft.toTree none).size - 1]? = some item := by
      rw [size_toTree, builds.size_eq]
      exact found
    have free := builds.follows.not_hasChildNamed written found'
    rw [← hasChild_iff_hasChildNamed builds.tracks, ← name, Bool.not_eq_true] at free
    exact free
  have tracks := builds.tracks.attach earlier fresh
  refine ⟨_, add_eq_ok_iff.2 ⟨_, parent, fresh, rfl⟩, ?_, ?_, ?_⟩
  · rw [List.take_add_one, listed]
    exact tracks
  · rw [size_attach, builds.size_eq]
  · exact builds.follows_attach found name (tracks.shape none)

/-- All further nodes of the outline are put under their parents. -/
theorem addAll (builds : draft.Builds outline (count + 1)) (written : outline.IsWellFormed) :
    ∃ final, Draft.addAll [] draft (outline.records.drop (count + 1)) = .ok final ∧
      final.Builds outline outline.size := by
  induction h : outline.records.drop (count + 1) generalizing draft count with
  | nil =>
    have le := builds.follows.size_le
    have ge := List.drop_eq_nil_iff.1 h
    rw [length_records] at ge
    rw [size_toTree, builds.size_eq] at le
    exact ⟨draft, rfl, Nat.le_antisymm le ge ▸ builds⟩
  | cons record rest ih =>
    have next : outline.records[count + 1]? = some record := by
      rw [← List.head?_drop, h, List.head?_cons]
    have others : outline.records.drop (count + 2) = rest := by
      rw [← List.tail_drop, h, List.tail_cons]
    obtain ⟨draft', added, builds'⟩ : ∃ draft', draft.add record (rest ++ []) = .ok draft' ∧
        draft'.Builds outline (count + 2) := builds.add written next
    obtain ⟨final, more, done⟩ := ih builds' others
    refine ⟨final, ?_, done⟩
    rw [Draft.addAll, added]
    exact more

end Draft.Builds

/-- The declarations of an outline form a tree that follows it. -/
private theorem exists_ofRecords_records (written : outline.IsWellFormed) :
    ∃ draft : Draft, ofRecords outline.records = .ok (draft.toTree none) ∧
      draft.Builds outline outline.size := by
  obtain ⟨draft, added, done⟩ := (Draft.Builds.start outline).addAll written
  refine ⟨draft, ?_, done⟩
  exact ofRecords_eq_ok_iff.2 ⟨_, _, draft, rfl, rfl, added, rfl⟩

end SceneTree

/-! ### Writing outlines -/

namespace Scene.Outline

variable {outline : Outline} {id : Nat}

/-- The names on a way are names of nodes below the root. -/
theorem exists_item_of_mem_way {name : String} (h : name ∈ outline.way id) :
    ∃ item ∈ outline.items, item.name = name := by
  fun_induction way outline id with
  | case1 => contradiction
  | case2 => contradiction
  | case3 i item found ih =>
    rcases List.mem_append.1 h with above | own
    · split at above
      · rename_i le
        exact ih le above
      · contradiction
    · exact ⟨item, List.mem_of_getElem? found, (List.mem_singleton.1 own).symm⟩

private theorem parentRef_ne_absent : outline.parentRef id ≠ .absent := by
  rw [parentRef]
  split <;> simp

/-- A path can be written as a parent. -/
theorem path_ne_rootMark (written : outline.IsWellFormed) (lt : id < outline.size) (ne : id ≠ 0) :
    outline.path id ≠ rootMark := by
  obtain ⟨i, rfl⟩ := Nat.exists_eq_succ_of_ne_zero ne
  have bound : i < outline.items.length := Nat.lt_of_succ_lt_succ lt
  have name := written.name _ (List.getElem_mem bound)
  rw [path, way_succ (List.getElem?_eq_getElem bound) (written.parent i bound)]
  by_cases top : outline.way outline.items[i].parent = []
  · rw [top, List.nil_append, Text.joinSegments_singleton]
    exact name.2.1
  · rw [Text.joinSegments_append top (List.cons_ne_nil _ _)]
    intro eq
    have slash : '/' ∈ rootMark.toList := by
      rw [← eq, String.toList_append, String.toList_append]
      exact List.mem_append_left _ (List.mem_append_right _ List.mem_cons_self)
    revert slash
    decide

private theorem newline_not_mem_path (written : outline.IsWellFormed) :
    '\n' ∉ (outline.path id).toList := by
  intro mem
  rw [path, Text.joinSegments, String.toList_ofList] at mem
  rcases Text.mem_joinPieces mem with eq | ⟨piece, listed, inside⟩
  · contradiction
  · obtain ⟨name, onWay, rfl⟩ := List.mem_map.1 listed
    obtain ⟨item, below, rfl⟩ := exists_item_of_mem_way onWay
    exact (written.name item below).2.2.2 inside

/-- The declarations of an outline can be written. -/
theorem isWritable_of_mem_records (written : outline.IsWellFormed) {record : NodeRecord}
    (mem : record ∈ outline.records) : record.IsWritable := by
  rw [records, List.mem_cons] at mem
  rcases mem with rfl | mem
  · refine ⟨written.rootName.1, written.rootName.2.2.2, written.rootKind, fun path declared => ?_⟩
    contradiction
  · obtain ⟨i, lt, rfl⟩ := List.mem_mapIdx.1 mem
    have name := written.name _ (List.getElem_mem lt)
    refine ⟨name.1, name.2.2.2, written.kind _ (List.getElem_mem lt), fun path declared => ?_⟩
    rw [parentRef] at declared
    split at declared
    · contradiction
    · rename_i ne
      have earlier := written.parent i lt
      rw [ParentRef.node.injEq] at declared
      subst declared
      exact ⟨path_ne_rootMark written (by rw [size]; omega) ne, newline_not_mem_path written⟩

/-- A saved outline is read back as its declarations. -/
theorem read_text (written : outline.IsWellFormed) :
    SceneFile.read outline.text = { records := outline.records, issues := [] } := by
  refine SceneFile.read_text (fun _ mem => isWritable_of_mem_records written mem) fun i lt => ?_
  cases i with
  | zero => exact ⟨rfl, rfl⟩
  | succ i => simp [records]

/-- A node for each line, and a backslash before each quotation mark and backslash of a value. -/
example : text ⟨"Hud", some "Control", [⟨"A", none, 0⟩, ⟨"\"\\", some "", 1⟩, ⟨"A", none, 2⟩]⟩ =
    "[node name=\"Hud\" type=\"Control\"]\n[node name=\"A\" parent=\".\"]\n" ++
      "[node name=\"\\\"\\\\\" type=\"\" parent=\"A\"]\n" ++
      "[node name=\"A\" parent=\"A/\\\"\\\\\"]\n" := by
  decide +kernel

/-- The node of the tree that the outline describes. -/
def node? (outline : Outline) : Nat → Option SceneNode
  | 0 => some ⟨outline.rootName, outline.rootKind, none, outline.children 0, 1⟩
  | i + 1 => outline.items[i]?.map fun item =>
      ⟨item.name, item.kind, some item.parent, outline.children (i + 1), i + 2⟩

end Scene.Outline

/-! ### Reading saved scenes -/

/-- The nodes of the tree are those that the outline describes. -/
theorem SceneTree.Draft.Builds.getElem?_nodes {outline : Outline} {draft : Draft}
    (builds : draft.Builds outline outline.size) (id : Nat) :
    draft.nodes[id]? = outline.node? id := by
  have tracks : draft.Tracks outline.records := by
    have taken := builds.tracks
    rwa [← length_records, List.take_length] at taken
  cases declared : outline.records[id]? with
  | none =>
    rw [List.getElem?_eq_none_iff, length_records] at declared
    have none : draft.nodes[id]? = none :=
      Array.getElem?_eq_none (by rw [builds.size_eq]; exact declared)
    cases id with
    | zero => exact absurd declared (Nat.not_succ_le_zero _)
    | succ i =>
      rw [none, Outline.node?, List.getElem?_eq_none (Nat.le_of_succ_le_succ declared)]
      rfl
  | some record =>
    obtain ⟨node, found, name, kind, line⟩ := tracks.exists_node declared
    have parent : (draft.toTree none).parent? id = node.parent := by
      rw [parent?, toTree, found]
      rfl
    have children : outline.children id = node.children := by
      rw [← builds.follows.children_eq builds.size_eq, SceneTree.children, toTree, found]
      rfl
    rw [found]
    cases id with
    | zero =>
      have root : node.parent = none := parent.symm.trans builds.follows.shape.parent?_root
      rw [Outline.records, List.getElem?_cons_zero, Option.some.injEq] at declared
      subst declared
      dsimp only at name kind line
      rw [Outline.node?, children, ← root, ← name, ← kind, ← line]
    | succ i =>
      rw [getElem?_records_succ] at declared
      obtain ⟨item, listed, rfl⟩ := Option.map_eq_some_iff.1 declared
      have lt : i + 1 < draft.nodes.size := (Array.getElem?_eq_some_iff.1 found).1
      have link : node.parent = some item.parent :=
        parent.symm.trans (builds.follows.link i item listed lt)
      dsimp only at name kind line
      rw [Outline.node?, listed, Option.map_some, children, ← link, ← name, ← kind, ← line]

namespace Analysis

/-- **Saved scenes are read back.** An outline that is saved as a scene is valid, there is nothing
to report of it, and the nodes of its tree and their order are those of the outline. -/
theorem ofText_outline (scene : String) (outline : Outline) (written : outline.IsWellFormed) :
    let analysis := ofText scene outline.text
    analysis.verdict = .valid ∧ analysis.sceneDiagnostics = [] ∧
      ∃ tree, analysis.tree? = some tree ∧ tree.size = outline.size ∧
        (∀ id, tree.nodes[id]? = outline.node? id) ∧
        analysis.index?.map PathIndex.paths = some (outline.preorder.map outline.path) := by
  obtain ⟨draft, formed, builds⟩ := SceneTree.exists_ofRecords_records written
  have read : ofText scene outline.text =
      ⟨scene, ⟨outline.records, []⟩, .ok (draft.toTree none)⟩ := by
    rw [ofText, Outline.read_text written]
    exact congrArg _ formed
  have explicit : (outline.records.drop 1).filter (fun record => record.parent = .absent) = [] := by
    refine List.filter_eq_nil_iff.2 fun record mem => ?_
    rw [Outline.records, List.drop_succ_cons, List.drop_zero] at mem
    obtain ⟨i, lt, rfl⟩ := List.mem_mapIdx.1 mem
    simpa using Outline.parentRef_ne_absent
  have shape := builds.follows.shape
  have named : (draft.toTree none).IsNamed := by
    refine builds.tracks.isNamed fun record mem => ?_
    exact SceneTree.name_ne_empty_of_mem_records written (List.mem_of_mem_take mem)
  have paths : (PathIndex.ofTree (draft.toTree none)).paths =
      outline.preorder.map outline.path := by
    rw [PathIndex.paths_ofTree shape named, ← builds.follows.preorder_eq builds.size_eq written]
    refine List.map_congr_left fun id mem => ?_
    exact builds.follows.path_eq ((SceneTree.mem_preorder shape).1 mem).1
  dsimp only
  rw [read]
  refine ⟨rfl, ?_, draft.toTree none, rfl, builds.size_eq, builds.getElem?_nodes,
    congrArg some paths⟩
  rw [sceneDiagnostics]
  dsimp only
  rw [explicit]
  rfl

/-- An outline in which names are repeated on different branches and have to be escaped. -/
def quotedNames : Outline where
  rootName := "Hud"
  rootKind := some "Control"
  items := [⟨"A", none, 0⟩, ⟨"B\"\\", some "Label", 1⟩, ⟨"A", none, 2⟩, ⟨"B\"\\", none, 0⟩,
    ⟨"C", some "", 1⟩]

theorem ofText_quotedNames :
    quotedNames.IsWellFormed ∧
      (ofText "hud.tscn" quotedNames.text).verdict = .valid ∧
      (ofText "hud.tscn" quotedNames.text).index?.map PathIndex.paths =
        some ["A", "A/B\"\\", "A/B\"\\/A", "A/C", "B\"\\"] := by
  have written : quotedNames.IsWellFormed := by decide +kernel
  obtain ⟨valid, -, -, -, -, -, paths⟩ := ofText_outline "hud.tscn" quotedNames written
  have order : quotedNames.preorder.map quotedNames.path =
      ["A", "A/B\"\\", "A/B\"\\/A", "A/C", "B\"\\"] := by
    decide +kernel
  exact ⟨written, valid, paths.trans (congrArg some order)⟩

end Analysis

end SceneAudit
