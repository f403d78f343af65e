import SceneAudit.Proofs.Tree.Traversal

/-!
# The draft of a scene tree

While records are added one after the other, the draft keeps a node for each of them, in their
order, and beside the nodes a table of their paths. The table agrees with the links of the tree: the
path that is entered for a new node is the one that leads to it from the root.

## Main definitions

* `SceneTree.Draft.Tracks`: a draft is the one of the given records.

## Main results

* `SceneTree.Draft.Tracks.attach`: the draft goes on to be the one of the records so far.
* `SceneTree.exists_tracks`: the tree that records form is the one of their draft.
* `SceneTree.isWellFormed_of_ofRecords`: the tree that records form is well-formed.
* `SceneTree.exists_name_of_ofRecords`: its nodes have the names of the records.
* `SceneTree.exists_of_ofRecords_eq_ok`, `SceneTree.exists_of_ofRecords_eq_error`: a tree grows
  record by record, and where it stops a record does not fit.
-/

namespace SceneAudit

open Scene

namespace SceneTree

/-! ### Drafts of given records -/

namespace Draft

variable {draft : Draft} {past later : List NodeRecord} {record : NodeRecord}
  {script : Option String}

/-- The draft is the one of the given records: it has a node for each of them and the right path for
each node. -/
structure Tracks (draft : Draft) (past : List NodeRecord) : Prop where
  shape : ∀ script, (draft.toTree script).IsWellFormed
  nodes : draft.nodes.toList.map (fun node => (node.name, node.kind, node.line)) =
    past.map fun record => (record.name, record.kind, record.line)
  size_paths : draft.paths.size = draft.nodes.size
  paths : ∀ script, ∀ id < draft.nodes.size, id ≠ root →
    draft.paths[id]? = some ((draft.toTree script).path id)

theorem tracks_start (record : NodeRecord) : (start record).Tracks [record] where
  shape _ := isWellFormed_start record
  nodes := rfl
  size_paths := rfl
  paths _ _ lt ne := absurd (Nat.lt_one_iff.1 lt) ne

namespace Tracks

theorem size_eq (tracks : draft.Tracks past) : draft.nodes.size = past.length := by
  have lengths := congrArg List.length tracks.nodes
  rwa [List.length_map, List.length_map, Array.length_toList] at lengths

/-- A record has a node with its name, its type and its line. -/
theorem exists_node (tracks : draft.Tracks past) {id : Nat} (h : past[id]? = some record) :
    ∃ node, draft.nodes[id]? = some node ∧ node.name = record.name ∧ node.kind = record.kind ∧
      node.line = record.line := by
  have faces := congrArg (·[id]?) tracks.nodes
  simp only [List.getElem?_map, Array.getElem?_toList, h, Option.map_some] at faces
  obtain ⟨node, found, same⟩ := Option.map_eq_some_iff.1 faces
  rw [Prod.mk.injEq, Prod.mk.injEq] at same
  exact ⟨node, found, same.1, same.2.1, same.2.2⟩

/-- The names of the nodes are those of the records. -/
theorem map_name (tracks : draft.Tracks past) (script : Option String) :
    (draft.toTree script).ids.map (draft.toTree script).name = past.map NodeRecord.name := by
  have names : draft.nodes.toList.map SceneNode.name = past.map NodeRecord.name := by
    have firsts := congrArg (List.map Prod.fst) tracks.nodes
    rwa [List.map_map, List.map_map] at firsts
  rw [← names]
  refine List.ext_getElem (by simp [ids]) fun id lt _ => ?_
  have bound : id < draft.nodes.size := by simpa [ids] using lt
  simp [ids, SceneTree.name, toTree, bound]

theorem exists_name (tracks : draft.Tracks past) {id : Nat}
    (lt : id < (draft.toTree script).size) :
    ∃ record ∈ past, record.name = (draft.toTree script).name id := by
  have listed : (draft.toTree script).name id ∈ past.map NodeRecord.name := by
    rw [← tracks.map_name script]
    exact List.mem_map_of_mem (List.mem_range.2 lt)
  exact List.mem_map.1 listed

theorem isNamed (tracks : draft.Tracks past) (named : ∀ record ∈ past, record.name ≠ "") :
    (draft.toTree script).IsNamed := by
  intro id lt empty
  obtain ⟨record, mem, eq⟩ := tracks.exists_name lt
  exact named record mem (eq.trans empty)

/-- The path that is entered for a new node is its path from the root. -/
theorem path_attach (tracks : draft.Tracks past) {parent : Nat}
    (shape : ((draft.attach parent record).toTree script).IsWellFormed)
    (lt : parent < draft.nodes.size) :
    ((draft.attach parent record).toTree script).path draft.nodes.size =
      draft.childPath parent record.name := by
  have link : ((draft.attach parent record).toTree script).parent? draft.nodes.size =
      some parent := by
    simp [parent?_attach]
  have name : ((draft.attach parent record).toTree script).name draft.nodes.size =
      record.name := by
    simp [name_attach]
  by_cases top : parent = root
  · subst top
    rw [path_of_parent?_root shape link, name]
    rfl
  · have above : ((draft.attach parent record).toTree script).path parent =
        (draft.toTree script).path parent :=
      congrArg Text.joinSegments (isFrontOf_attach.way_eq (tracks.shape script) lt)
    rw [path_of_parent? shape link top, name, above, childPath,
      ite_cond_eq_false _ _ (eq_false top), tracks.paths script parent lt top, Option.getD_some]

theorem attach (tracks : draft.Tracks past) {parent : Nat} (lt : parent < draft.nodes.size)
    (fresh : draft.hasChild parent record.name = false) :
    (draft.attach parent record).Tracks (past ++ [record]) where
  shape script := isWellFormed_attach (tracks.shape script) lt fresh
  nodes := by
    refine List.ext_getElem? fun id => ?_
    have faces := congrArg (·[id]?) tracks.nodes
    simp only [List.getElem?_map, Array.getElem?_toList] at faces
    rw [List.getElem?_map, Array.getElem?_toList, getElem?_attach, List.getElem?_map,
      List.getElem?_append, ← tracks.size_eq]
    by_cases new : id = draft.nodes.size
    · simp [new, SceneNode.ofRecord]
    · rw [ite_cond_eq_false _ _ (eq_false new), Option.map_map]
      by_cases old : id < draft.nodes.size
      · rw [ite_cond_eq_true _ _ (eq_true old), ← faces]
        congr 1
        funext node
        simp only [Function.comp_apply]
        split <;> rfl
      · have none : draft.nodes[id]? = none := Array.getElem?_eq_none (by omega)
        rw [ite_cond_eq_false _ _ (eq_false old), none, List.getElem?_singleton,
          ite_cond_eq_false _ _ (eq_false (by omega))]
        rfl
  size_paths := by
    simp [Draft.attach, tracks.size_paths]
  paths script id bound ne := by
    have pushed : (draft.attach parent record).paths =
        draft.paths.push (draft.childPath parent record.name) := rfl
    rw [size_attach] at bound
    rw [pushed, Array.getElem?_push, tracks.size_paths]
    by_cases new : id = draft.nodes.size
    · rw [ite_cond_eq_true _ _ (eq_true new), new,
        tracks.path_attach (isWellFormed_attach (tracks.shape script) lt fresh) lt]
    · have old : id < draft.nodes.size := by omega
      rw [ite_cond_eq_false _ _ (eq_false new), tracks.paths script id old ne, SceneTree.path,
        SceneTree.path, isFrontOf_attach.way_eq (tracks.shape script) old]

theorem add (tracks : draft.Tracks past) {next : Draft}
    (added : draft.add record later = .ok next) : next.Tracks (past ++ [record]) := by
  obtain ⟨parent, found, fresh, rfl⟩ := add_eq_ok_iff.1 added
  exact tracks.attach (lt_of_parentOf (tracks.shape none).root_lt found) fresh

theorem addAll (tracks : draft.Tracks past) {rest : List NodeRecord} {final : Draft}
    (added : Draft.addAll later draft rest = .ok final) : final.Tracks (past ++ rest) :=
  addAll_induction (motive := fun past now => now.Tracks past)
    (fun _ _ _ _ _ before added => before.add added) tracks added

end Tracks

/-! ### The records to follow -/

/-- Whether a record can be added, and what comes of it, does not depend on the records after it,
which are only looked at to say what is wrong. -/
theorem add_of_add {later' : List NodeRecord} {next : Draft}
    (added : draft.add record later = .ok next) : draft.add record later' = .ok next := by
  obtain ⟨parent, found, fresh, rfl⟩ := add_eq_ok_iff.1 added
  refine add_eq_ok_iff.2 ⟨parent, ?_, fresh, rfl⟩
  unfold parentOf at found ⊢
  split at found
  · exact found
  · exact found
  · split at found
    · exact found
    · contradiction

theorem addAll_of_addAll {later' : List NodeRecord} {rest : List NodeRecord} {final : Draft}
    (added : addAll later draft rest = .ok final) : addAll later' draft rest = .ok final := by
  induction rest generalizing draft with
  | nil => exact added
  | cons record rest ih =>
    rw [addAll] at added ⊢
    split at added
    · contradiction
    · rename_i next first
      rw [add_of_add first]
      exact ih added

/-- Records that can be added are added one by one. -/
theorem exists_of_addAll_eq_ok {front back : List NodeRecord} {final : Draft}
    (added : addAll [] draft (front ++ record :: back) = .ok final) :
    ∃ middle next, addAll [] draft front = .ok middle ∧ middle.add record back = .ok next ∧
      addAll [] next back = .ok final := by
  rw [addAll_append] at added
  cases first : addAll (record :: back ++ []) draft front with
  | error error =>
    rw [first] at added
    contradiction
  | ok middle =>
    rw [first] at added
    change addAll [] middle (record :: back) = .ok final at added
    rw [addAll, List.append_nil] at added
    split at added
    · contradiction
    · rename_i next second
      exact ⟨middle, next, addAll_of_addAll first, second, added⟩

/-- If not all records can be added, one of them fails after the ones before it were added. -/
theorem exists_of_addAll_eq_error {rest : List NodeRecord} {error : StructuralError}
    (fails : addAll [] draft rest = .error error) :
    ∃ front record back middle, rest = front ++ record :: back ∧
      addAll [] draft front = .ok middle ∧ middle.add record back = .error error := by
  induction rest generalizing draft with
  | nil => contradiction
  | cons record rest ih =>
    rw [addAll, List.append_nil] at fails
    split at fails
    · rename_i first
      rw [Except.error.injEq] at fails
      exact ⟨[], record, rest, draft, rfl, rfl, fails ▸ first⟩
    · rename_i next first
      obtain ⟨front, culprit, back, middle, rfl, added, last⟩ := ih fails
      refine ⟨record :: front, culprit, back, middle, rfl, ?_, last⟩
      rw [addAll, add_of_add first]
      exact added

end Draft

/-! ### The tree of a draft -/

theorem absent_of_value?_eq_none {parent : ParentRef} (h : parent.value? = none) :
    parent = .absent := by
  cases parent with
  | absent => rfl
  | root | node => contradiction

theorem ofRecords_eq_ok_iff {records : List NodeRecord} {tree : SceneTree} :
    ofRecords records = .ok tree ↔
      ∃ first rest draft, records = first :: rest ∧ first.parent = .absent ∧
        Draft.addAll [] (Draft.start first) rest = .ok draft ∧
        tree = draft.toTree first.script := by
  constructor
  · intro h
    unfold ofRecords at h
    split at h
    · contradiction
    · rename_i first rest
      split at h
      · contradiction
      · rename_i absent
        split at h
        · contradiction
        · rename_i draft added
          rw [Except.ok.injEq] at h
          exact ⟨first, rest, draft, rfl, absent_of_value?_eq_none absent, added, h.symm⟩
  · rintro ⟨first, rest, draft, rfl, absent, added, rfl⟩
    simp only [ofRecords, absent, ParentRef.value?, added, Draft.toTree]

/-- The tree that records form is the one of their draft. -/
theorem exists_tracks {records : List NodeRecord} {tree : SceneTree}
    (h : ofRecords records = .ok tree) :
    ∃ draft script, tree = Draft.toTree draft script ∧ draft.Tracks records := by
  obtain ⟨first, rest, draft, rfl, -, added, rfl⟩ := ofRecords_eq_ok_iff.1 h
  exact ⟨draft, first.script, rfl, (Draft.tracks_start first).addAll added⟩

/-- The tree that records form is well-formed. -/
theorem isWellFormed_of_ofRecords {records : List NodeRecord} {tree : SceneTree}
    (h : ofRecords records = .ok tree) : tree.IsWellFormed := by
  obtain ⟨draft, script, rfl, tracks⟩ := exists_tracks h
  exact tracks.shape script

/-- The nodes of the tree that records form have the names of the records. -/
theorem exists_name_of_ofRecords {records : List NodeRecord} {tree : SceneTree}
    (h : ofRecords records = .ok tree) {id : Nat} (lt : id < tree.size) :
    ∃ record ∈ records, record.name = tree.name id := by
  obtain ⟨draft, script, rfl, tracks⟩ := exists_tracks h
  exact tracks.exists_name lt

theorem isNamed_of_ofRecords {records : List NodeRecord} {tree : SceneTree}
    (h : ofRecords records = .ok tree) (named : ∀ record ∈ records, record.name ≠ "") :
    tree.IsNamed := by
  obtain ⟨draft, script, rfl, tracks⟩ := exists_tracks h
  exact tracks.isNamed named

/-- Records form a tree if something was computed of it. -/
theorem exists_of_map_ofRecords {α : Type} {records : List NodeRecord} {f : SceneTree → α}
    {value : α} (computed : (ofRecords records).toOption.map f = some value) :
    ∃ tree, ofRecords records = .ok tree ∧ f tree = value := by
  cases formed : ofRecords records with
  | error error =>
    rw [formed] at computed
    contradiction
  | ok tree =>
    rw [formed] at computed
    exact ⟨tree, rfl, Option.some.inj computed⟩

/-- A tree of several records grows out of the tree of the records before any of them. -/
theorem exists_of_ofRecords_eq_ok {front back : List NodeRecord} {record : NodeRecord}
    {tree : SceneTree} (nonempty : front ≠ [])
    (h : ofRecords (front ++ record :: back) = .ok tree) :
    ∃ (middle next final : Draft) (script : Option String),
      ofRecords front = .ok (middle.toTree script) ∧ middle.Tracks front ∧
        middle.add record back = .ok next ∧ Draft.addAll [] next back = .ok final ∧
        tree = final.toTree script := by
  obtain ⟨first, rest, final, eq, absent, added, rfl⟩ := ofRecords_eq_ok_iff.1 h
  obtain ⟨head, front, rfl⟩ := List.exists_cons_of_ne_nil nonempty
  rw [List.cons_append, List.cons.injEq] at eq
  obtain ⟨rfl, rfl⟩ := eq
  obtain ⟨middle, next, before, here, after⟩ := Draft.exists_of_addAll_eq_ok added
  refine ⟨middle, next, final, head.script, ?_, ?_, here, after, rfl⟩
  · exact ofRecords_eq_ok_iff.2 ⟨head, front, middle, rfl, absent, before, rfl⟩
  · exact (Draft.tracks_start head).addAll before

/-- If records form no tree and the first one is a root, one of the others does not fit into the
tree of the records before it. -/
theorem exists_of_ofRecords_eq_error {first : NodeRecord} {rest : List NodeRecord}
    {error : StructuralError} (absent : first.parent = .absent)
    (h : ofRecords (first :: rest) = .error error) :
    ∃ (front : List NodeRecord) (record : NodeRecord) (back : List NodeRecord) (middle : Draft)
      (script : Option String), first :: rest = front ++ record :: back ∧
        ofRecords front = .ok (middle.toTree script) ∧ middle.Tracks front ∧
        middle.add record back = .error error := by
  have fails : Draft.addAll [] (Draft.start first) rest = .error error := by
    simp only [ofRecords, absent, ParentRef.value?] at h
    split at h
    · rename_i fails
      rw [fails, Except.error.inj h]
    · contradiction
  obtain ⟨front, record, back, middle, rfl, before, here⟩ := Draft.exists_of_addAll_eq_error fails
  refine ⟨first :: front, record, back, middle, first.script, rfl, ?_, ?_, here⟩
  · exact ofRecords_eq_ok_iff.2 ⟨first, front, middle, rfl, absent, before, rfl⟩
  · exact (Draft.tracks_start first).addAll before

end SceneTree

end SceneAudit
