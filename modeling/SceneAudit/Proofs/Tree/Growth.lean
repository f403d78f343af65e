import SceneAudit.Proofs.Tree.Draft
import SceneAudit.Resolution

/-!
# Growth of a scene

Nodes are declared one after the other, and a scene grows by further declarations at its end. They
cannot take anything back: the nodes that are there keep their parents and their canonical paths, a
reference that stands for a node goes on to stand for one, and a scene that is not a tree does not
become one. Only the account of a missing parent can change, since a parent that was declared
nowhere may be declared after all, too late.

## Main definitions

* `StructuralError.followedBy`: what becomes of an error if further records follow.

## Main results

* `SceneTree.Draft.addAll_append_later`: records after those that are added are looked at for the
  account of an error only.
* `SceneTree.ofRecords_append_of_error`, `SceneTree.isFrontOf_of_ofRecords_append`: what further
  records make of an error and of a tree.
* `PathIndex.isResolved_resolve_iff`: which references stand for a node.
* `SceneTree.ofRecords_append`: declarations only add to a scene.
-/

namespace SceneAudit

open Scene

/-! ### Errors -/

/-- What becomes of an error if further records follow: a parent that was not declared at all is
then declared too late, if one of them has the name at the end of its path. -/
def StructuralError.followedBy (further : List NodeRecord) : StructuralError → StructuralError
  | .atNode .parentUnresolved name parent line =>
    if further.any fun record => record.name == Text.finalSegment parent then
      .atNode .parentForwardReference name parent line
    else .atNode .parentUnresolved name parent line
  | error => error

/-- Further records leave an error as it is, unless one of them is the missing parent. -/
theorem StructuralError.followedBy_cases (error : StructuralError) (further : List NodeRecord) :
    (error.followedBy further = error ∧
      ∀ name parent line, error = .atNode .parentUnresolved name parent line →
        ∀ record ∈ further, record.name ≠ Text.finalSegment parent) ∨
      ∃ name parent line, error = .atNode .parentUnresolved name parent line ∧
        (∃ record ∈ further, record.name = Text.finalSegment parent) ∧
        error.followedBy further = .atNode .parentForwardReference name parent line := by
  unfold followedBy
  split
  · rename_i name parent line
    split
    · rename_i declared
      obtain ⟨record, mem, eq⟩ := List.any_eq_true.1 declared
      exact .inr ⟨name, parent, line, rfl, ⟨record, mem, beq_iff_eq.1 eq⟩, rfl⟩
    · rename_i undeclared
      refine .inl ⟨rfl, ?_⟩
      rintro _ _ _ ⟨⟩ record mem eq
      exact undeclared (List.any_eq_true.2 ⟨record, mem, beq_iff_eq.2 eq⟩)
  · rename_i other
    exact .inl ⟨rfl, fun name parent line eq => absurd eq (other name parent line)⟩

namespace SceneTree

namespace Draft

variable {draft : Draft} {record : NodeRecord} {later further : List NodeRecord}

private theorem missingParent_append (parent name : String) (line : Nat) :
    StructuralError.atNode (missingParent record parent (later ++ further)) name parent line =
      (StructuralError.atNode (missingParent record parent later) name parent line).followedBy
        further := by
  simp only [missingParent, List.any_append]
  split
  · rfl
  · cases later.any fun other => other.name == Text.finalSegment parent with
    | true => rfl
    | false =>
      simp only [Bool.false_or, Bool.false_eq_true, ↓reduceIte, StructuralError.followedBy]
      split <;> rfl

private theorem parentOf_append :
    draft.parentOf record (later ++ further) =
      (draft.parentOf record later).mapError (·.followedBy further) := by
  unfold parentOf
  cases record.parent with
  | absent | root => rfl
  | node parent =>
    cases found : draft.resolve? parent with
    | some id => simp only [found]; rfl
    | none =>
      simp only [found, missingParent_append]
      rfl

private theorem add_append :
    draft.add record (later ++ further) =
      (draft.add record later).mapError (·.followedBy further) := by
  rw [add, add, parentOf_append]
  cases draft.parentOf record later with
  | error error => rfl
  | ok parent =>
    have kept :
        Except.mapError (StructuralError.followedBy further) (.ok parent) = .ok parent := rfl
    rw [kept]
    dsimp only
    split <;> rfl

/-- Records after those that are added are looked at for the account of an error only. -/
theorem addAll_append_later (rest : List NodeRecord) :
    addAll (later ++ further) draft rest =
      (addAll later draft rest).mapError (·.followedBy further) := by
  induction rest generalizing draft with
  | nil => rfl
  | cons record rest ih =>
    rw [addAll, addAll, ← List.append_assoc, add_append]
    cases draft.add record (rest ++ later) with
    | error error => rfl
    | ok next => exact ih

end Draft

variable {front further : List NodeRecord} {tree larger : SceneTree} {error : StructuralError}

/-- An error stays, up to what the further records say about a missing parent. -/
theorem ofRecords_append_of_error (nonempty : front ≠ []) (fails : ofRecords front = .error error) :
    ofRecords (front ++ further) = .error (error.followedBy further) := by
  obtain ⟨first, rest, rfl⟩ := List.exists_cons_of_ne_nil nonempty
  rw [List.cons_append]
  cases declared : first.parent.value? with
  | some parent =>
    simp only [ofRecords, declared, Except.error.injEq] at fails ⊢
    rw [← fails]
    rfl
  | none =>
    simp only [ofRecords, declared] at fails ⊢
    rw [Draft.addAll_append, List.append_nil, ← List.nil_append further, Draft.addAll_append_later]
    split at fails
    · rename_i other added
      rw [added, ← Except.error.inj fails]
      rfl
    · contradiction

/-- A tree that records form begins with the tree of the first of them. -/
theorem isFrontOf_of_ofRecords_append (nonempty : front ≠ [])
    (formed : ofRecords (front ++ further) = .ok larger) :
    ∃ tree, ofRecords front = .ok tree ∧ tree.IsFrontOf larger := by
  cases before : ofRecords front with
  | error error =>
    rw [ofRecords_append_of_error nonempty before] at formed
    contradiction
  | ok tree =>
    refine ⟨tree, rfl, ?_⟩
    obtain ⟨first, rest, draft, rfl, absent, added, rfl⟩ := ofRecords_eq_ok_iff.1 before
    obtain ⟨first', rest', final, eq, -, all, rfl⟩ := ofRecords_eq_ok_iff.1 formed
    rw [List.cons_append, List.cons.injEq] at eq
    obtain ⟨rfl, rfl⟩ := eq
    rw [Draft.addAll_append, Draft.addAll_of_addAll added] at all
    exact Draft.isFrontOf_addAll all

end SceneTree

/-! ### Paths and references -/

namespace SceneTree.IsFrontOf

variable {tree larger : SceneTree}

/-- A larger tree keeps the canonical paths of the nodes that it begins with. -/
private theorem pathOf?_eq (front : tree.IsFrontOf larger) (shape : tree.IsWellFormed)
    (shapeLarger : larger.IsWellFormed) {id : Nat} (lt : id < tree.size) :
    (PathIndex.ofTree larger).pathOf? id = (PathIndex.ofTree tree).pathOf? id := by
  refine Option.ext fun path => ?_
  rw [PathIndex.pathOf?_eq_some_iff_spelling shape,
    PathIndex.pathOf?_eq_some_iff_spelling shapeLarger, front.spelling_eq shape lt,
    and_iff_right lt, and_iff_right (Nat.lt_of_lt_of_le lt front.size_le)]

/-- The canonical paths of a tree are among those of a larger one. -/
private theorem paths_subset (front : tree.IsFrontOf larger) (shape : tree.IsWellFormed)
    (shapeLarger : larger.IsWellFormed) :
    (PathIndex.ofTree tree).paths ⊆ (PathIndex.ofTree larger).paths := by
  intro path mem
  obtain ⟨id, lt, ne, eq⟩ := (PathIndex.mem_paths_iff shape).1 mem
  exact (PathIndex.mem_paths_iff shapeLarger).2
    ⟨id, Nat.lt_of_lt_of_le lt front.size_le, ne, (front.spelling_eq shape lt).trans eq⟩

end SceneTree.IsFrontOf

namespace PathIndex

variable {index larger : PathIndex} {reference : String}

/-- A reference stands for a node if it is a canonical path or, without slashes, the last segment of
one. -/
theorem isResolved_resolve_iff :
    (index.resolve reference).isResolved = true ↔
      reference ∈ index.paths ∨
        '/' ∉ reference.toList ∧ ∃ path ∈ index.paths, Text.finalSegment path = reference := by
  rw [← map_withFinalSegment_ne_nil_iff, resolve]
  split
  · rename_i id found
    have known : reference ∈ index.paths := by
      apply Classical.byContradiction
      intro unknown
      rw [get?_eq_none_iff.2 unknown] at found
      contradiction
    exact iff_of_true rfl (.inl known)
  · rename_i missing
    rw [or_iff_right (get?_eq_none_iff.1 missing)]
    dsimp only
    split
    · rename_i bare
      exact iff_of_true rfl bare
    · rename_i other
      exact iff_of_false Bool.false_ne_true other

/-- With more canonical paths no reference is lost. -/
private theorem isResolved_resolve_mono (more : index.paths ⊆ larger.paths)
    (resolved : (index.resolve reference).isResolved = true) :
    (larger.resolve reference).isResolved = true := by
  rw [isResolved_resolve_iff] at resolved ⊢
  rcases resolved with known | ⟨bare, path, known, eq⟩
  · exact .inl (more known)
  · exact .inr ⟨bare, path, more known, eq⟩

end PathIndex

namespace SceneTree

/-- **Declarations only add to a scene.** If records form a tree, then so do the first of them, and
in the larger tree the nodes of the smaller one have the parents and the canonical paths that they
had, and every reference that stood for a node goes on to stand for one. If records form no tree,
then no further records make one of them, and the error stays the same: unless a parent was not
declared at all and one of the further records has the name at the end of its path, in which case
the same parent of the same node is now declared too late. -/
theorem ofRecords_append (front further : List NodeRecord) (nonempty : front ≠ []) :
    (∀ larger, ofRecords (front ++ further) = .ok larger →
      ∃ tree, ofRecords front = .ok tree ∧ tree.size = front.length ∧
        (∀ id < tree.size, larger.parent? id = tree.parent? id ∧
          (PathIndex.ofTree larger).pathOf? id = (PathIndex.ofTree tree).pathOf? id) ∧
        ∀ reference, ((PathIndex.ofTree tree).resolve reference).isResolved = true →
          ((PathIndex.ofTree larger).resolve reference).isResolved = true) ∧
    ∀ error, ofRecords front = .error error →
      (ofRecords (front ++ further) = .error error ∧
        ∀ name parent line, error = .atNode .parentUnresolved name parent line →
          ∀ record ∈ further, record.name ≠ Text.finalSegment parent) ∨
      ∃ name parent line, error = .atNode .parentUnresolved name parent line ∧
        (∃ record ∈ further, record.name = Text.finalSegment parent) ∧
        ofRecords (front ++ further) =
          .error (.atNode .parentForwardReference name parent line) := by
  refine ⟨fun larger formed => ?_, fun error fails => ?_⟩
  · obtain ⟨tree, before, part⟩ := isFrontOf_of_ofRecords_append nonempty formed
    have shape := isWellFormed_of_ofRecords before
    have shapeLarger := isWellFormed_of_ofRecords formed
    refine ⟨tree, before, ?_, fun id lt => ?_, fun reference resolved => ?_⟩
    · obtain ⟨draft, script, rfl, tracks⟩ := exists_tracks before
      exact tracks.size_eq
    · exact ⟨part.parent?_eq id lt, part.pathOf?_eq shape shapeLarger lt⟩
    · exact PathIndex.isResolved_resolve_mono (part.paths_subset shape shapeLarger) resolved
  · rw [ofRecords_append_of_error nonempty fails]
    rcases error.followedBy_cases further with
      ⟨same, undeclared⟩ | ⟨name, parent, line, eq, declared, late⟩
    · exact .inl ⟨congrArg Except.error same, undeclared⟩
    · exact .inr ⟨name, parent, line, eq, declared, congrArg Except.error late⟩

/-- A label on a panel, to which a label beside the panel is added. -/
def labelled : List NodeRecord :=
  [⟨"Hud", none, .absent, none, 1⟩, ⟨"Panel", none, .root, none, 2⟩,
    ⟨"Label", none, .node "Panel", none, 3⟩]

/-- A label on a panel that is missing. -/
def unlabelled : List NodeRecord :=
  [⟨"Hud", none, .absent, none, 1⟩, ⟨"Label", none, .node "Side/Panel", none, 2⟩]

theorem ofRecords_append_label :
    labelled ≠ [] ∧ unlabelled ≠ [] ∧
      (∃ larger, ofRecords (labelled ++ [⟨"Label", none, .root, none, 4⟩]) = .ok larger ∧
        (PathIndex.ofTree larger).pathOf? 2 = some "Panel/Label" ∧
        ((PathIndex.ofTree larger).resolve "Label").isResolved = true) ∧
      ofRecords (unlabelled ++ [⟨"Panel", none, .root, none, 3⟩]) =
        .error (.atNode .parentForwardReference "Label" "Side/Panel" 2) := by
  have nonempty : labelled ≠ [] := by decide
  have nonempty' : unlabelled ≠ [] := by decide
  refine ⟨nonempty, nonempty', ?_, ?_⟩
  · obtain ⟨grows, -⟩ := ofRecords_append labelled [⟨"Label", none, .root, none, 4⟩] nonempty
    have formed : (ofRecords (labelled ++ [⟨"Label", none, .root, none, 4⟩])).toOption.isSome =
        true := by decide +kernel
    cases found : ofRecords (labelled ++ [⟨"Label", none, .root, none, 4⟩]) with
    | error error =>
      rw [found] at formed
      contradiction
    | ok larger =>
      obtain ⟨tree, before, size, kept, resolved⟩ := grows larger found
      have computed : (ofRecords labelled).toOption.map (fun tree =>
          ((PathIndex.ofTree tree).pathOf? 2,
            ((PathIndex.ofTree tree).resolve "Label").isResolved)) =
              some (some "Panel/Label", true) := by
        decide +kernel
      rw [before, Except.toOption, Option.map_some, Option.some.injEq, Prod.mk.injEq] at computed
      have lt : 2 < tree.size := size ▸ (by decide)
      exact ⟨larger, rfl, (kept 2 lt).2.trans computed.1, resolved "Label" computed.2⟩
  · obtain ⟨-, fails⟩ := ofRecords_append unlabelled [⟨"Panel", none, .root, none, 3⟩] nonempty'
    have unresolved : ofRecords unlabelled =
        .error (.atNode .parentUnresolved "Label" "Side/Panel" 2) := by rfl
    rcases fails _ unresolved with ⟨-, undeclared⟩ | ⟨name, parent, line, eq, -, late⟩
    · exact absurd (by decide) (undeclared _ _ _ rfl _ List.mem_cons_self)
    · rw [StructuralError.atNode.injEq] at eq
      obtain ⟨-, rfl, rfl, rfl⟩ := eq
      exact late

end SceneTree

end SceneAudit
