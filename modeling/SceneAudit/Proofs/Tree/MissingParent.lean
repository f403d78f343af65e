import SceneAudit.Proofs.Tree.Draft

/-!
# Missing parents

A record may name a parent that no record before it answers to, neither by its path nor by its name.
There are three things to be said of it: that the record names itself, that the parent is declared
too late, or that it is not declared at all. A record names itself if it gives its own name. The
program looks at the last segment of the path instead: it takes a path to another node of the same
name for the record itself, and a record that has a slash in its name never for itself. In all other
cases it says what is right.

## Main definitions

* `SceneTree.IsUnknown`: no node answers to the parent that a record names.
* `SceneTree.IsRightFault`: what is to be said of a missing parent.

## Main results

* `SceneTree.Draft.missingParent_cases`: what is said of a missing parent.
* `SceneTree.Draft.resolve?_eq_none_iff_isUnknown`: the draft finds no parent that is unknown.
* `SceneTree.ofRecords_missingParent`: the error of a record with a missing parent, and when it is
  the right one.
-/

namespace SceneAudit

open Scene Text

namespace SceneTree

/-- No node answers to the parent that a record names: no node below the root has this path, and no
node at all has this name. -/
structure IsUnknown (tree : SceneTree) (parent : String) : Prop where
  noPath : ∀ id < tree.size, id ≠ root → tree.path id ≠ parent
  noName : ∀ id < tree.size, tree.name id ≠ parent

instance (tree : SceneTree) (parent : String) : Decidable (tree.IsUnknown parent) :=
  decidable_of_iff ((∀ id < tree.size, id ≠ root → tree.path id ≠ parent) ∧
      ∀ id < tree.size, tree.name id ≠ parent)
    ⟨fun ⟨noPath, noName⟩ => { noPath, noName }, fun h => ⟨h.noPath, h.noName⟩⟩

/-- What is to be said of a missing parent: that the record names itself, if it gives its own name,
and otherwise that the parent is declared too late, if a later record has the name at the end of its
path, or that it is not declared at all. -/
inductive IsRightFault (record : NodeRecord) (parent : String) (later : List NodeRecord) :
    NodeFault → Prop
  | itself (same : parent = record.name) : IsRightFault record parent later .parentCycle
  | tooLate (other : parent ≠ record.name)
      (declared : ∃ next ∈ later, IsFinalSegment next.name parent) :
      IsRightFault record parent later .parentForwardReference
  | nowhere (other : parent ≠ record.name)
      (undeclared : ∀ next ∈ later, ¬IsFinalSegment next.name parent) :
      IsRightFault record parent later .parentUnresolved

namespace Draft

variable {draft : Draft} {past : List NodeRecord} {script : Option String} {parent : String}

/-- What is said of a missing parent. -/
theorem missingParent_cases (record : NodeRecord) (parent : String) (later : List NodeRecord) :
    (IsFinalSegment record.name parent ∧ missingParent record parent later = .parentCycle) ∨
      (¬IsFinalSegment record.name parent ∧ (∃ next ∈ later, IsFinalSegment next.name parent) ∧
        missingParent record parent later = .parentForwardReference) ∨
      (¬IsFinalSegment record.name parent ∧ (∀ next ∈ later, ¬IsFinalSegment next.name parent) ∧
        missingParent record parent later = .parentUnresolved) := by
  have found : (later.any fun next => next.name == finalSegment parent) = true ↔
      ∃ next ∈ later, IsFinalSegment next.name parent := by
    refine List.any_eq_true.trans (exists_congr fun next => and_congr_right fun _ => ?_)
    rw [beq_iff_eq, eq_comm, finalSegment_eq_iff]
  unfold missingParent
  by_cases own : IsFinalSegment record.name parent
  · exact .inl ⟨own, if_pos (finalSegment_eq_iff.2 own)⟩
  · rw [if_neg fun same => own (finalSegment_eq_iff.1 same)]
    by_cases declared : ∃ next ∈ later, IsFinalSegment next.name parent
    · exact .inr (.inl ⟨own, declared, if_pos (found.2 declared)⟩)
    · have undeclared : ∀ next ∈ later, ¬IsFinalSegment next.name parent :=
        fun next mem ends => declared ⟨next, mem, ends⟩
      exact .inr (.inr ⟨own, undeclared, if_neg fun any => declared (found.1 any)⟩)

/-- The draft finds no node for a parent that is unknown, and only for such a parent none. -/
theorem resolve?_eq_none_iff_isUnknown (tracks : draft.Tracks past) :
    draft.resolve? parent = none ↔ (draft.toTree script).IsUnknown parent := by
  have byPath : draft.withPath? parent = none ↔
      ∀ id < draft.nodes.size, id ≠ root → (draft.toTree script).path id ≠ parent := by
    rw [withPath?, latest?_eq_none_iff]
    refine forall_congr' fun id => forall_congr' fun lt => ?_
    by_cases top : id = root
    · simp [top]
    · simp [top, tracks.paths script id lt top]
  have byName : draft.withName? parent = none ↔
      ∀ id < draft.nodes.size, (draft.toTree script).name id ≠ parent := by
    rw [withName?, latest?_eq_none_iff]
    refine forall_congr' fun id => forall_congr' fun lt => ?_
    simp [SceneTree.name, toTree, Array.getElem?_eq_getElem lt]
  rw [resolve?, Option.or_eq_none_iff, byPath, byName]
  constructor
  · rintro ⟨noPath, noName⟩
    exact { noPath, noName }
  · intro unknown
    exact ⟨unknown.noPath, unknown.noName⟩

/-- A record with an unknown parent cannot be added. -/
private theorem add_of_isUnknown (tracks : draft.Tracks past) {record : NodeRecord}
    (later : List NodeRecord) (declared : record.parent = .node parent)
    (unknown : (draft.toTree script).IsUnknown parent) :
    draft.add record later =
      .error (.atNode (missingParent record parent later) record.name parent record.line) := by
  rw [add, parentOf, declared]
  simp only [(resolve?_eq_none_iff_isUnknown tracks).2 unknown]

end Draft

variable {front : List NodeRecord} {record : NodeRecord} {earlier : SceneTree} {parent : String}

/-- The error of a record with an unknown parent is the error of all records, whatever follows. -/
theorem ofRecords_of_isUnknown (before : ofRecords front = .ok earlier)
    (declared : record.parent = .node parent) (unknown : earlier.IsUnknown parent)
    (back : List NodeRecord) :
    ofRecords (front ++ record :: back) =
      .error (.atNode (Draft.missingParent record parent back) record.name parent record.line) := by
  obtain ⟨first, rest, draft, rfl, absent, added, rfl⟩ := ofRecords_eq_ok_iff.1 before
  have fails := Draft.add_of_isUnknown ((Draft.tracks_start first).addAll added) back declared
    unknown
  have all : Draft.addAll [] (Draft.start first) (rest ++ record :: back) =
      .error (.atNode (Draft.missingParent record parent back) record.name parent record.line) := by
    rw [Draft.addAll_append, Draft.addAll_of_addAll added]
    change Draft.addAll [] draft (record :: back) = _
    rw [Draft.addAll, List.append_nil, fails]
  simp only [List.cons_append, ofRecords, absent, ParentRef.value?, all]

/-- **Missing parents.** Let some records form a tree, followed by a record that names a parent to
which no node of the tree answers. Then there is an error, which is about this record. It is that
the record names itself exactly if the parent ends with the name of the record; otherwise it is that
the parent is declared too late exactly if it ends with the name of a later record, and that it is
not declared in all other cases. This is right if the parent ends with the name of the record
exactly when it is this name and nothing more, and wrong otherwise. -/
theorem ofRecords_missingParent (back : List NodeRecord) (before : ofRecords front = .ok earlier)
    (declared : record.parent = .node parent) (unknown : earlier.IsUnknown parent) :
    ∃ fault, ofRecords (front ++ record :: back) =
        .error (.atNode fault record.name parent record.line) ∧
      (fault = .parentCycle ↔ IsFinalSegment record.name parent) ∧
      (fault = .parentForwardReference ↔ ¬IsFinalSegment record.name parent ∧
        ∃ next ∈ back, IsFinalSegment next.name parent) ∧
      (fault = .parentUnresolved ↔ ¬IsFinalSegment record.name parent ∧
        ∀ next ∈ back, ¬IsFinalSegment next.name parent) ∧
      (IsRightFault record parent back fault ↔
        (IsFinalSegment record.name parent ↔ parent = record.name)) := by
  refine ⟨_, ofRecords_of_isUnknown before declared unknown back, ?_⟩
  rcases Draft.missingParent_cases record parent back with
    ⟨own, eq⟩ | ⟨other, ⟨next, mem, ends⟩, eq⟩ | ⟨other, undeclared, eq⟩
  · rw [eq]
    refine ⟨iff_of_true rfl own, by simp [own], by simp [own], ?_⟩
    rw [iff_true_left own]
    exact ⟨fun right => by cases right with | itself same => exact same, .itself⟩
  · rw [eq]
    refine ⟨iff_of_false nofun other, iff_of_true rfl ⟨other, next, mem, ends⟩,
      iff_of_false nofun fun none => none.2 next mem ends, ?_⟩
    rw [iff_false_left other]
    exact ⟨fun right => by cases right with | tooLate differs => exact differs,
      fun differs => .tooLate differs ⟨next, mem, ends⟩⟩
  · rw [eq]
    refine ⟨iff_of_false nofun other, iff_of_false nofun fun ⟨_, next, mem, ends⟩ =>
      undeclared next mem ends, iff_of_true rfl ⟨other, undeclared⟩, ?_⟩
    rw [iff_false_left other]
    exact ⟨fun right => by cases right with | nowhere differs => exact differs,
      fun differs => .nowhere differs undeclared⟩

/-- Records of a menu. -/
def menu : List NodeRecord :=
  [⟨"Hud", none, .absent, none, 1⟩, ⟨"Menu", none, .root, none, 2⟩]

/-- A record of a label that names the parent `parent`. -/
def labelOn (parent : String) : NodeRecord :=
  ⟨"Label", none, .node parent, none, 3⟩

/-- A label on a title that is declared after it, and not where the label says. -/
theorem ofRecords_missingParent_title :
    ∃ earlier, ofRecords menu = .ok earlier ∧ earlier.IsUnknown "Panel/Title" ∧
      ofRecords (menu ++ labelOn "Panel/Title" :: [⟨"Title", none, .root, none, 4⟩]) =
        .error (.atNode .parentForwardReference "Label" "Panel/Title" 3) ∧
      IsRightFault (labelOn "Panel/Title") "Panel/Title" [⟨"Title", none, .root, none, 4⟩]
        .parentForwardReference := by
  have computed : (ofRecords menu).toOption.map (fun tree =>
      decide (tree.IsUnknown "Panel/Title")) = some true := by
    decide +kernel
  obtain ⟨earlier, before, unknown⟩ := exists_of_map_ofRecords computed
  have declared : (labelOn "Panel/Title").parent = .node "Panel/Title" := rfl
  obtain ⟨fault, fails, -, late, -, right⟩ := ofRecords_missingParent
    [⟨"Title", none, .root, none, 4⟩] before declared (of_decide_eq_true unknown)
  have other : ¬IsFinalSegment "Label" "Panel/Title" := fun ends =>
    absurd (finalSegment_eq_iff.2 ends) (by decide)
  obtain rfl := late.2 ⟨other, _, List.mem_singleton_self _, finalSegment_eq_iff.1 (by decide)⟩
  exact ⟨earlier, before, of_decide_eq_true unknown, fails,
    right.2 (iff_of_false other (by decide))⟩

/-- A label names the label of a panel as its parent. There is no such panel, but the label is said
to name itself. -/
theorem not_isRightFault_label :
    ∃ earlier, ofRecords menu = .ok earlier ∧ earlier.IsUnknown "Panel/Label" ∧
      ofRecords (menu ++ [labelOn "Panel/Label"]) =
        .error (.atNode .parentCycle "Label" "Panel/Label" 3) ∧
      ¬IsRightFault (labelOn "Panel/Label") "Panel/Label" [] .parentCycle := by
  have computed : (ofRecords menu).toOption.map (fun tree =>
      decide (tree.IsUnknown "Panel/Label")) = some true := by
    decide +kernel
  obtain ⟨earlier, before, unknown⟩ := exists_of_map_ofRecords computed
  refine ⟨earlier, before, of_decide_eq_true unknown, rfl, fun right => ?_⟩
  cases right with
  | itself same => exact absurd same (by decide)

end SceneTree

end SceneAudit
