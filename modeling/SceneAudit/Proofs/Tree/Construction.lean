import SceneAudit.Proofs.Tree.Draft

/-!
# Which records form a tree

Records are added to a draft one after the other. The draft finds the parent of a record in its own
table of paths, while a reader of the scene thinks of the path index of the nodes declared so far.
The two agree, so that it can be said without the draft which records form a tree, which tree they
form, and what is wrong with the others: each record has to fit into the tree of the records before
it, and the first one that does not is the one that is reported.

## Main definitions

* `SceneTree.HasPath`, `SceneTree.IsLatest`: canonical paths, and the latest node with a property.
* `SceneTree.Means`: the node that a record names as its parent.
* `SceneTree.Fits`: a record can be added to the tree of the records before it.
* `SceneTree.Offends`: the error that is reported of a record that does not fit.

## Main results

* `SceneTree.Draft.parentOf_eq_ok_iff`: the draft finds the node that is meant.
* `SceneTree.Draft.add_eq_error_iff`: the draft reports what is wrong with a record.
* `SceneTree.ofRecords_characterization`: which records form a tree, which tree it is, and which
  error is reported otherwise.
-/

namespace SceneAudit

open Scene

namespace SceneTree

/-! ### What a record needs -/

section Meaning

variable (tree : SceneTree)

/-- The node has the given canonical path in the path index of the tree. -/
def HasPath (path : String) (id : Nat) : Prop :=
  (PathIndex.ofTree tree).pathOf? id = some path

/-- The node has the property and no later one does. -/
def IsLatest (holds : Nat → Prop) (id : Nat) : Prop :=
  id < tree.size ∧ holds id ∧ ∀ other, id < other → other < tree.size → ¬holds other

/-- The node of the tree that a record names as its parent: the root, or the latest node with the
given canonical path, or, if there is none, the latest node with the given name. -/
inductive Means : ParentRef → Nat → Prop
  | absent : Means .absent root
  | root : Means .root root
  | byPath {path : String} {id : Nat} (latest : tree.IsLatest (tree.HasPath path) id) :
      Means (.node path) id
  | byName {name : String} {id : Nat} (noPath : ∀ other < tree.size, ¬tree.HasPath name other)
      (latest : tree.IsLatest (fun node => tree.name node = name) id) : Means (.node name) id

/-- Some node of the tree answers to the parent that a record names: it is the canonical path of a
node below the root or the name of a node. -/
def Answers : ParentRef → Prop
  | .absent | .root => True
  | .node parent =>
    (∃ id < tree.size, id ≠ root ∧ tree.HasPath parent id) ∨
      ∃ id < tree.size, tree.name id = parent

/-- The node has a child of the given name. -/
def HasChildNamed (parent : Nat) (name : String) : Prop :=
  ∃ id < tree.size, tree.parent? id = some parent ∧ tree.name id = name

/-- The record can be added to the tree: it names a parent that is there, and no child of this
parent has its name. -/
structure Fits (record : NodeRecord) : Prop where
  parent : tree.Answers record.parent
  fresh : ∀ parent, tree.Means record.parent parent → ¬tree.HasChildNamed parent record.name

/-- How a node is written as a parent: a dot for the root, the canonical path for the others. -/
def IsLabel (id : Nat) (label : String) : Prop :=
  (id = root ∧ label = rootMark) ∨ (id ≠ root ∧ tree.HasPath label id)

/-- The error that is reported of a record that does not fit, given the records after it. -/
inductive Offends (record : NodeRecord) (later : List NodeRecord) : StructuralError → Prop
  | parent {parent : String} (declared : record.parent = .node parent)
      (missing : ¬tree.Answers record.parent) :
      Offends record later
        (.atNode (Draft.missingParent record parent later) record.name parent record.line)
  | sibling {parent : Nat} {label : String} (means : tree.Means record.parent parent)
      (taken : tree.HasChildNamed parent record.name) (shown : tree.IsLabel parent label) :
      Offends record later (.atNode .duplicateSibling record.name label record.line)

end Meaning

/-! ### The draft finds what is meant -/

section Agreement

variable {draft : Draft} {past later : List NodeRecord} {record : NodeRecord}
  {script : Option String}

theorem latest?_eq_some_iff_isLatest {p : Nat → Bool} {holds : Nat → Prop} {id : Nat}
    (agree : ∀ node < draft.nodes.size, p node = true ↔ holds node) :
    latest? p draft.nodes.size = some id ↔ (draft.toTree script).IsLatest holds id := by
  rw [latest?_eq_some_iff]
  refine and_congr_right fun lt => and_congr (agree id lt) ?_
  refine forall_congr' fun other => forall_congr' fun _ => forall_congr' fun bound => ?_
  rw [← agree other bound, Bool.not_eq_true]

namespace Draft

variable (tracks : draft.Tracks past) (named : ∀ record ∈ past, record.name ≠ "")

include tracks named

theorem hasPath_iff {path : String} {id : Nat} (lt : id < draft.nodes.size) :
    (id != root && draft.paths[id]? == some path) = true ↔
      (draft.toTree script).HasPath path id := by
  rw [HasPath, PathIndex.pathOf?_ofTree (tracks.shape script) (tracks.isNamed named),
    Bool.and_eq_true, bne_iff_ne, beq_iff_eq]
  have bound : id < (draft.toTree script).size := lt
  rw [and_iff_right bound]
  refine and_congr_right fun ne => ?_
  rw [tracks.paths script id lt ne, Option.some.injEq]

private theorem withPath?_eq_some_iff {path : String} {id : Nat} :
    draft.withPath? path = some id ↔
      (draft.toTree script).IsLatest ((draft.toTree script).HasPath path) id :=
  latest?_eq_some_iff_isLatest fun _ lt => hasPath_iff tracks named lt

theorem withPath?_eq_none_iff {path : String} :
    draft.withPath? path = none ↔
      ∀ id < draft.nodes.size, ¬(draft.toTree script).HasPath path id := by
  rw [withPath?, latest?_eq_none_iff]
  refine forall_congr' fun id => forall_congr' fun lt => ?_
  rw [← hasPath_iff tracks named lt, Bool.not_eq_true]

omit tracks named in
theorem hasName_iff {name : String} {id : Nat} (lt : id < draft.nodes.size) :
    (draft.nodes[id]?.map SceneNode.name == some name) = true ↔
      (draft.toTree script).name id = name := by
  simp [SceneTree.name, toTree, Array.getElem?_eq_getElem lt]

omit tracks named in
private theorem withName?_eq_some_iff {name : String} {id : Nat} :
    draft.withName? name = some id ↔
      (draft.toTree script).IsLatest (fun node => (draft.toTree script).name node = name) id :=
  latest?_eq_some_iff_isLatest fun _ lt => hasName_iff lt

omit tracks named in
private theorem withName?_eq_none_iff {name : String} :
    draft.withName? name = none ↔
      ∀ id < draft.nodes.size, (draft.toTree script).name id ≠ name := by
  rw [withName?, latest?_eq_none_iff]
  refine forall_congr' fun id => forall_congr' fun lt => ?_
  rw [← Bool.not_eq_true]
  exact not_congr (hasName_iff lt)

private theorem resolve?_eq_some_iff {parent : String} {id : Nat} :
    draft.resolve? parent = some id ↔ (draft.toTree script).Means (.node parent) id := by
  rw [resolve?, Option.or_eq_some_iff, withPath?_eq_some_iff tracks named,
    withPath?_eq_none_iff tracks named, withName?_eq_some_iff]
  constructor
  · rintro (latest | ⟨noPath, latest⟩)
    · exact .byPath latest
    · exact .byName noPath latest
  · intro means
    cases means with
    | byPath latest => exact .inl latest
    | byName noPath latest => exact .inr ⟨noPath, latest⟩

private theorem resolve?_eq_none_iff {parent : String} :
    draft.resolve? parent = none ↔ ¬(draft.toTree script).Answers (.node parent) := by
  have below {id : Nat} (path : (draft.toTree script).HasPath parent id) : id ≠ root :=
    ((PathIndex.pathOf?_ofTree (tracks.shape script) (tracks.isNamed named)).1 path).2.1
  have byPath : draft.withPath? parent = none ↔
      ∀ id < draft.nodes.size, ¬(draft.toTree script).HasPath parent id :=
    withPath?_eq_none_iff tracks named
  have byName : draft.withName? parent = none ↔
      ∀ id < draft.nodes.size, (draft.toTree script).name id ≠ parent := withName?_eq_none_iff
  rw [resolve?, Option.or_eq_none_iff, byPath, byName, Answers, not_or]
  constructor
  · rintro ⟨noPath, noName⟩
    exact ⟨fun ⟨id, lt, _, path⟩ => noPath id lt path, fun ⟨id, lt, name⟩ => noName id lt name⟩
  · rintro ⟨noPath, noName⟩
    exact ⟨fun id lt path => noPath ⟨id, lt, below path, path⟩,
      fun id lt name => noName ⟨id, lt, name⟩⟩

/-- The draft finds the node that a record names as its parent. -/
theorem parentOf_eq_ok_iff {id : Nat} :
    draft.parentOf record later = .ok id ↔ (draft.toTree script).Means record.parent id := by
  unfold parentOf
  cases record.parent with
  | absent =>
    rw [Except.ok.injEq]
    exact ⟨fun eq => eq ▸ .absent, fun means => by cases means; rfl⟩
  | root =>
    rw [Except.ok.injEq]
    exact ⟨fun eq => eq ▸ .root, fun means => by cases means; rfl⟩
  | node parent =>
    rw [← resolve?_eq_some_iff tracks named]
    cases found : draft.resolve? parent <;> simp [found]

/-- The draft finds no parent if no node answers to it. -/
theorem parentOf_eq_error_iff {error : StructuralError} :
    draft.parentOf record later = .error error ↔
      ∃ parent, record.parent = .node parent ∧ ¬(draft.toTree script).Answers record.parent ∧
        error = .atNode (missingParent record parent later) record.name parent record.line := by
  unfold parentOf
  cases declared : record.parent with
  | absent | root => simp
  | node parent =>
    have missing : draft.resolve? parent = none ↔ ¬(draft.toTree script).Answers (.node parent) :=
      resolve?_eq_none_iff tracks named
    cases found : draft.resolve? parent with
    | none => simp [← missing, found, eq_comm]
    | some id => simp [← missing, found]

omit named in
theorem hasChild_iff_hasChildNamed {parent : Nat} {name : String} :
    draft.hasChild parent name = true ↔ (draft.toTree script).HasChildNamed parent name := by
  rw [hasChild_iff (tracks.shape script), HasChildNamed]
  exact exists_congr fun child => (and_iff_right_of_imp fun h => lt_size_of_parent? h.1).symm

private theorem isLabel_iff {id : Nat} {label : String} (lt : id < draft.nodes.size) :
    (draft.toTree script).IsLabel id label ↔ label = draft.label id := by
  rw [IsLabel, Draft.label, HasPath,
    PathIndex.pathOf?_ofTree (tracks.shape script) (tracks.isNamed named)]
  by_cases top : id = root
  · simp [top]
  · simp [top, lt, tracks.paths script id lt top, eq_comm]

/-- A record can be added if it fits. -/
theorem exists_add_eq_ok_iff :
    (∃ next, draft.add record later = .ok next) ↔ (draft.toTree script).Fits record := by
  constructor
  · rintro ⟨next, added⟩
    obtain ⟨parent, found, fresh, -⟩ := add_eq_ok_iff.1 added
    constructor
    · apply Classical.byContradiction
      intro missing
      cases declared : record.parent with
      | absent | root => simp [declared, Answers] at missing
      | node name =>
        have fails : ∃ error, draft.parentOf record later = .error error :=
          ⟨_, (parentOf_eq_error_iff tracks named).2 ⟨name, declared, missing, rfl⟩⟩
        simp [found] at fails
    · intro other means taken
      have same : draft.parentOf record later = .ok other :=
        (parentOf_eq_ok_iff tracks named).2 means
      rw [found, Except.ok.injEq] at same
      subst same
      rw [← hasChild_iff_hasChildNamed tracks, fresh] at taken
      contradiction
  · rintro ⟨answers, fresh⟩
    cases found : draft.parentOf record later with
    | error error =>
      obtain ⟨-, -, missing, -⟩ := (parentOf_eq_error_iff tracks named).1 found
      exact absurd answers missing
    | ok parent =>
      have free := fresh parent ((parentOf_eq_ok_iff tracks named).1 found)
      rw [← hasChild_iff_hasChildNamed tracks, Bool.not_eq_true] at free
      exact ⟨_, add_eq_ok_iff.2 ⟨parent, found, free, rfl⟩⟩

/-- A record that does not fit is reported as it offends. -/
theorem add_eq_error_iff {error : StructuralError} :
    draft.add record later = .error error ↔
      (draft.toTree script).Offends record later error := by
  unfold add
  cases found : draft.parentOf record later with
  | error other =>
    obtain ⟨name, declared, missing, rfl⟩ := (parentOf_eq_error_iff tracks named).1 found
    rw [Except.error.injEq]
    constructor
    · rintro rfl
      exact .parent declared missing
    · intro offends
      cases offends with
      | parent declared' _ =>
        rw [declared, ParentRef.node.injEq] at declared'
        rw [declared']
      | @sibling parent _ means _ _ =>
        have resolved : draft.parentOf record later = .ok parent :=
          (parentOf_eq_ok_iff tracks named).2 means
        rw [found] at resolved
        contradiction
  | ok parent =>
    have means : (draft.toTree script).Means record.parent parent :=
      (parentOf_eq_ok_iff tracks named).1 found
    have lt := lt_of_parentOf (tracks.shape script).root_lt found
    have taken : draft.hasChild parent record.name = true ↔
        (draft.toTree script).HasChildNamed parent record.name :=
      hasChild_iff_hasChildNamed tracks
    dsimp only
    constructor
    · intro fails
      split at fails
      · rename_i repeats
        rw [Except.error.injEq] at fails
        subst fails
        exact .sibling means (taken.1 repeats) ((isLabel_iff tracks named lt).2 rfl)
      · contradiction
    · intro offends
      cases offends with
      | parent declared missing =>
        have fails : draft.parentOf record later = .error _ :=
          (parentOf_eq_error_iff tracks named).2 ⟨_, declared, missing, rfl⟩
        rw [found] at fails
        contradiction
      | @sibling other _ means' repeats shown =>
        have same : draft.parentOf record later = .ok other :=
          (parentOf_eq_ok_iff tracks named).2 means'
        rw [found, Except.ok.injEq] at same
        subst same
        rw [ite_cond_eq_true _ _ (eq_true (taken.2 repeats)),
          (isLabel_iff tracks named lt).1 shown]

end Draft

end Agreement

/-! ### The records of a tree -/

section Records

variable {front back : List NodeRecord} {record : NodeRecord} {tree : SceneTree}
  (named : ∀ other ∈ front ++ record :: back, other.name ≠ "")

include named

private theorem named_front : ∀ other ∈ front, other.name ≠ "" :=
  fun other mem => named other (List.mem_append_left _ mem)

/-- In a tree every record fits into the tree of the records before it, and its parent is the node
that it names there. -/
theorem exists_means_of_ofRecords (formed : ofRecords (front ++ record :: back) = .ok tree)
    (nonempty : front ≠ []) :
    ∃ earlier parent, ofRecords front = .ok earlier ∧ earlier.Fits record ∧
      earlier.Means record.parent parent ∧ tree.parent? front.length = some parent := by
  obtain ⟨middle, next, final, script, before, tracks, added, rest, rfl⟩ :=
    exists_of_ofRecords_eq_ok nonempty formed
  have fits : (middle.toTree script).Fits record :=
    (Draft.exists_add_eq_ok_iff tracks (named_front named)).1 ⟨next, added⟩
  obtain ⟨parent, found, fresh, rfl⟩ := Draft.add_eq_ok_iff.1 added
  refine ⟨_, parent, before, fits, ?_, ?_⟩
  · exact (Draft.parentOf_eq_ok_iff tracks (named_front named)).1 found
  · rw [← tracks.size_eq, (Draft.isFrontOf_addAll rest).parent?_eq _ (by simp),
      Draft.parent?_attach, ite_cond_eq_true _ _ (eq_true rfl)]

omit named in
/-- If records form no tree and the first one is a root, one of the others is the first that does
not fit, and the error is the one that is reported of it. -/
theorem exists_offends_of_ofRecords_eq_error {first : NodeRecord} {rest : List NodeRecord}
    {error : StructuralError} (named : ∀ other ∈ first :: rest, other.name ≠ "")
    (absent : first.parent = .absent) (fails : ofRecords (first :: rest) = .error error) :
    ∃ front record back earlier, first :: rest = front ++ record :: back ∧
      ofRecords front = .ok earlier ∧ ¬earlier.Fits record ∧ earlier.Offends record back error := by
  obtain ⟨front, record, back, middle, script, eq, before, tracks, last⟩ :=
    exists_of_ofRecords_eq_error absent fails
  rw [eq] at named
  refine ⟨front, record, back, _, eq, before, fun fits => ?_,
    (Draft.add_eq_error_iff tracks (named_front named)).1 last⟩
  obtain ⟨next, added⟩ : ∃ next, middle.add record back = .ok next :=
    (Draft.exists_add_eq_ok_iff tracks (named_front named)).2 fits
  rw [added] at last
  contradiction

end Records

/-- **Which records form a tree.** Records with names form a tree if the first of them names no
parent and each later one fits into the tree of the records before it. Then there is a node for each
record, and its parent is the node that the record names in the tree of the records before it.
Otherwise there are no records, or the first one names a parent, or the error is that of the first
record that does not fit. -/
theorem ofRecords_characterization (records : List NodeRecord)
    (named : ∀ record ∈ records, record.name ≠ "") :
    ((∃ tree, ofRecords records = .ok tree) ↔
      (∃ first rest, records = first :: rest ∧ first.parent = .absent) ∧
        ∀ front record back earlier, records = front ++ record :: back →
          ofRecords front = .ok earlier → earlier.Fits record) ∧
    (∀ tree, ofRecords records = .ok tree →
      tree.size = records.length ∧ tree.ids.map tree.name = records.map NodeRecord.name ∧
        tree.parent? root = none ∧
        ∀ front record back, front ≠ [] → records = front ++ record :: back →
          ∃ earlier parent, ofRecords front = .ok earlier ∧ earlier.Means record.parent parent ∧
            tree.parent? front.length = some parent) ∧
    ∀ error, ofRecords records = .error error →
      (records = [] ∧ error = .rootMissing) ∨
      (∃ first rest parent, records = first :: rest ∧ first.parent.value? = some parent ∧
        error = .atNode .rootHasParent first.name parent first.line) ∨
      ∃ front record back earlier, records = front ++ record :: back ∧
        ofRecords front = .ok earlier ∧ earlier.Offends record back error := by
  refine ⟨⟨?_, ?_⟩, ?_, ?_⟩
  · rintro ⟨tree, formed⟩
    obtain ⟨first, rest, -, eq, absent, -⟩ := ofRecords_eq_ok_iff.1 formed
    refine ⟨⟨first, rest, eq, absent⟩, ?_⟩
    rintro front record back earlier rfl before
    have nonempty : front ≠ [] := by
      rintro rfl
      contradiction
    obtain ⟨other, -, before', fits, -⟩ := exists_means_of_ofRecords named formed nonempty
    rw [before, Except.ok.injEq] at before'
    exact before' ▸ fits
  · rintro ⟨⟨first, rest, rfl, absent⟩, fits⟩
    cases formed : ofRecords (first :: rest) with
    | ok tree => exact ⟨tree, rfl⟩
    | error error =>
      obtain ⟨front, record, back, earlier, eq, before, unfit, -⟩ :=
        exists_offends_of_ofRecords_eq_error named absent formed
      exact absurd (fits front record back earlier eq before) unfit
  · intro tree formed
    refine ⟨?_, ?_, (isWellFormed_of_ofRecords formed).parent?_root, ?_⟩
    · obtain ⟨draft, script, rfl, tracks⟩ := exists_tracks formed
      exact tracks.size_eq
    · obtain ⟨draft, script, rfl, tracks⟩ := exists_tracks formed
      exact tracks.map_name script
    · rintro front record back nonempty rfl
      obtain ⟨earlier, parent, before, -, means, link⟩ :=
        exists_means_of_ofRecords named formed nonempty
      exact ⟨earlier, parent, before, means, link⟩
  · intro error fails
    cases records with
    | nil => exact .inl ⟨rfl, (Except.error.inj fails).symm⟩
    | cons first rest =>
      right
      cases declared : first.parent.value? with
      | some parent =>
        left
        simp only [ofRecords, declared] at fails
        exact ⟨first, rest, parent, rfl, declared, (Except.error.inj fails).symm⟩
      | none =>
        right
        obtain ⟨front, record, back, earlier, eq, before, -, offends⟩ :=
          exists_offends_of_ofRecords_eq_error named (absent_of_value?_eq_none declared) fails
        exact ⟨front, record, back, earlier, eq, before, offends⟩

/-- Records of which the last names a parent that is the path of one node and the name of a later
one. -/
def namesakes : List NodeRecord :=
  [⟨"Hud", none, .absent, none, 1⟩, ⟨"A", none, .root, none, 2⟩, ⟨"B", none, .node "A", none, 3⟩,
    ⟨"A", none, .node "A/B", none, 4⟩, ⟨"C", none, .node "A", none, 5⟩]

theorem ofRecords_namesakes :
    (∀ record ∈ namesakes, record.name ≠ "") ∧
      ∃ tree earlier, ofRecords namesakes = .ok tree ∧
        ofRecords (namesakes.take 4) = .ok earlier ∧ tree.size = 5 ∧
        earlier.Means (.node "A") 1 ∧ tree.parent? 4 = some 1 := by
  have named : ∀ record ∈ namesakes, record.name ≠ "" := by decide
  obtain ⟨-, links, -⟩ := ofRecords_characterization namesakes named
  have formed : (ofRecords namesakes).toOption.isSome = true := by decide +kernel
  refine ⟨named, ?_⟩
  cases found : ofRecords namesakes with
  | error error =>
    rw [found] at formed
    contradiction
  | ok tree =>
    obtain ⟨size, -, -, parents⟩ := links tree found
    obtain ⟨earlier, parent, before, means, link⟩ :=
      parents (namesakes.take 4) ⟨"C", none, .node "A", none, 5⟩ [] (by decide) rfl
    have first : (ofRecords namesakes).toOption.bind (fun tree => tree.parent? 4) = some 1 := by
      decide +kernel
    rw [found] at first
    have same : parent = 1 := Option.some.inj (link.symm.trans first)
    exact ⟨tree, earlier, rfl, before, size, same ▸ means, same ▸ link⟩

end SceneTree

end SceneAudit
