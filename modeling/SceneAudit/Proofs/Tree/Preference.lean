import SceneAudit.Proofs.Tree.Construction
import SceneAudit.Proofs.Tree.DepthFirst
import SceneAudit.Resolution

/-!
# Which path is suggested

For a reference that stands for no node a canonical path is suggested. Paths that end with the last
segment of the reference come first; only if there are none, those whose last segment contains it or
is contained in it are considered. Among the paths of one kind the one with the fewest segments is
preferred, and among several of these the path of the node that comes first, depth first. The
program finds this path by going through the list of all canonical paths, while here it is said by
the nodes of the tree.

## Main definitions

* `IsAkin`: the last segment of a path contains a text or is contained in it.
* `SceneTree.IsPreferred`: the node whose path is suggested among all paths with a property.
* `SceneTree.Suggests`: what is suggested for a reference.

## Main results

* `PathIndex.shortestPath?_filter_eq_some_iff`: the first of the shortest paths in the list is the
  one of the preferred node.
* `PathIndex.suggests_iff`: what is suggested is said by the nodes of the tree.
* `PathIndex.exists_resolve_eq_exact`: a canonical path stands for a node with this path.
* `PathIndex.suggest?_preferred`: what is suggested for a reference, and that it can be followed.
-/

namespace SceneAudit

open Scene Text

/-- The last segment of the path contains the text or is contained in it, the letters of ASCII being
taken in lower case. -/
def IsAkin (target path : String) : Prop :=
  ∃ segment, IsFinalSegment segment path ∧
    (target.toList.map Char.toLower <:+: segment.toList.map Char.toLower ∨
      segment.toList.map Char.toLower <:+: target.toList.map Char.toLower)

namespace SceneTree

/-- The node has the given path, which has a property, and is preferred to all other nodes whose
paths have the property: their paths have more segments, or as many and they come later, depth
first. -/
structure IsPreferred (tree : SceneTree) (holds : String → Prop) (path : String) (id : Nat) :
    Prop where
  hasPath : tree.HasPath path id
  has : holds path
  first : ∀ other otherPath, tree.HasPath otherPath other → holds otherPath → other ≠ id →
    segmentCount path < segmentCount otherPath ∨
      segmentCount path = segmentCount otherPath ∧ tree.IsBefore id other

/-- What is suggested for a reference. -/
inductive Suggests (tree : SceneTree) (reference : String) : Option String → Prop
  | unnamed (ends : IsFinalSegment "" reference) : tree.Suggests reference none
  | same {target path : String} {id : Nat} (nonempty : target ≠ "")
      (ends : IsFinalSegment target reference)
      (preferred : tree.IsPreferred (IsFinalSegment target) path id) :
      tree.Suggests reference (some path)
  | akin {target path : String} {id : Nat} (nonempty : target ≠ "")
      (ends : IsFinalSegment target reference)
      (noSame : ∀ other ∈ (PathIndex.ofTree tree).paths, ¬IsFinalSegment target other)
      (preferred : tree.IsPreferred (IsAkin target) path id) : tree.Suggests reference (some path)
  | nothing {target : String} (nonempty : target ≠ "") (ends : IsFinalSegment target reference)
      (noSame : ∀ other ∈ (PathIndex.ofTree tree).paths, ¬IsFinalSegment target other)
      (noAkin : ∀ other ∈ (PathIndex.ofTree tree).paths, ¬IsAkin target other) :
      tree.Suggests reference none

end SceneTree

/-! ### Candidates -/

theorem overlaps_eq_true_iff {target path : String} :
    PathIndex.overlaps (finalSegment path) target = true ↔ IsAkin target path := by
  rw [PathIndex.overlaps, Bool.or_eq_true, isInfix_iff, isInfix_iff]
  constructor
  · exact fun contained => ⟨finalSegment path, finalSegment_eq_iff.1 rfl, contained⟩
  · rintro ⟨segment, ends, contained⟩
    rwa [finalSegment_eq_iff.2 ends]

namespace PathIndex

open SceneTree

variable {index : PathIndex} {tree : SceneTree} {target path : String}

theorem exactCandidates_eq (index : PathIndex) (target : String) :
    index.exactCandidates target = index.paths.filter fun path => finalSegment path == target := by
  rw [exactCandidates, withFinalSegment, paths, List.filter_map]
  rfl

private theorem exactCandidates_eq_nil_iff :
    index.exactCandidates target = [] ↔ ∀ path ∈ index.paths, ¬IsFinalSegment target path := by
  rw [exactCandidates_eq, List.filter_eq_nil_iff]
  simp only [beq_iff_eq, finalSegment_eq_iff]

private theorem looseCandidates_eq_nil_iff :
    index.looseCandidates target = [] ↔ ∀ path ∈ index.paths, ¬IsAkin target path := by
  rw [looseCandidates, List.filter_eq_nil_iff]
  simp only [overlaps_eq_true_iff]

/-! ### The preferred node -/

/-- The shortest path of nodes in a given order is that of the first one among those with the fewest
segments. -/
theorem shortestPath?_map_eq_some_iff {before : Nat → Nat → Prop} {nodes : List Nat}
    (asymm : ∀ first second, before first second → ¬before second first)
    (ordered : nodes.Pairwise before) (spell : Nat → String) :
    shortestPath? (nodes.map spell) = some path ↔
      ∃ id ∈ nodes, spell id = path ∧ ∀ other ∈ nodes, other ≠ id →
        segmentCount path < segmentCount (spell other) ∨
          segmentCount path = segmentCount (spell other) ∧ before id other := by
  rw [shortestPath?_eq_some_iff]
  constructor
  · rintro ⟨front, back, eq, fewer, noMore⟩
    obtain ⟨earlier, rest, rfl, rfl, cut⟩ := List.map_eq_append_iff.1 eq
    obtain ⟨id, later, rfl, rfl, rfl⟩ := List.map_eq_cons_iff.1 cut
    rw [List.pairwise_append, List.pairwise_cons] at ordered
    refine ⟨id, List.mem_append_right earlier List.mem_cons_self, rfl, fun other mem ne => ?_⟩
    rcases List.mem_append.1 mem with inFront | here
    · exact .inl (fewer _ (List.mem_map_of_mem inFront))
    · have inBack := (List.mem_cons.1 here).resolve_left ne
      have le := noMore _ (List.mem_map_of_mem inBack)
      exact (Nat.lt_or_eq_of_le le).imp_right fun tie => ⟨tie, ordered.2.1.1 other inBack⟩
  · rintro ⟨id, mem, rfl, first⟩
    obtain ⟨earlier, later, rfl⟩ := List.append_of_mem mem
    rw [List.pairwise_append, List.pairwise_cons] at ordered
    have irrefl {other : Nat} (order : before other id ∨ before id other) : other ≠ id := by
      rintro rfl
      exact order.elim (fun h => asymm _ _ h h) fun h => asymm _ _ h h
    refine ⟨earlier.map spell, later.map spell, by rw [List.map_append, List.map_cons],
      List.forall_mem_map.2 fun other inFront => ?_, List.forall_mem_map.2 fun other inBack => ?_⟩
    · have order := ordered.2.2 other inFront id List.mem_cons_self
      rcases first other (List.mem_append_left _ inFront) (irrefl (.inl order)) with
        less | ⟨-, behind⟩
      · exact less
      · exact absurd behind (asymm _ _ order)
    · have order := ordered.2.1.1 other inBack
      rcases first other (List.mem_append_right earlier (List.mem_cons_of_mem id inBack))
        (irrefl (.inr order)) with less | ⟨tie, -⟩
      · exact Nat.le_of_lt less
      · exact Nat.le_of_eq tie

section Preferred

variable (shape : tree.IsWellFormed)

include shape

theorem hasPath_iff_spelling {id : Nat} :
    tree.HasPath path id ↔ id ∈ tree.preorder ∧ tree.spelling id = path := by
  rw [HasPath, pathOf?_eq_some_iff_spelling shape, mem_preorder shape, and_assoc]

/-- The first of the shortest paths with a property is the one of the preferred node. -/
theorem shortestPath?_filter_eq_some_iff {test : String → Bool} {holds : String → Prop}
    (decides : ∀ path, test path = true ↔ holds path) :
    shortestPath? ((ofTree tree).paths.filter test) = some path ↔
      ∃ id, tree.IsPreferred holds path id := by
  have candidates : (ofTree tree).paths.filter test =
      (tree.preorder.filter fun id => test (tree.spelling id)).map tree.spelling := by
    rw [paths, entries_eq_map_spelling shape, List.map_map, List.filter_map]
    rfl
  have ordered : (tree.preorder.filter fun id => test (tree.spelling id)).Pairwise tree.IsBefore :=
    (isDepthFirst_preorder shape).ordered.sublist List.filter_sublist
  have listed (id : Nat) : (id ∈ tree.preorder.filter fun id => test (tree.spelling id)) ↔
      tree.HasPath (tree.spelling id) id ∧ holds (tree.spelling id) := by
    rw [List.mem_filter, decides, hasPath_iff_spelling shape, and_iff_left rfl]
  rw [candidates,
    shortestPath?_map_eq_some_iff (fun _ _ order => order.asymm shape) ordered tree.spelling]
  refine exists_congr fun id => ?_
  constructor
  · rintro ⟨mem, rfl, first⟩
    obtain ⟨hasPath, has⟩ := (listed id).1 mem
    refine ⟨hasPath, has, fun other otherPath hasOther holdsOther ne => ?_⟩
    obtain ⟨-, rfl⟩ := (hasPath_iff_spelling shape).1 hasOther
    exact first other ((listed other).2 ⟨hasOther, holdsOther⟩) ne
  · rintro ⟨hasPath, has, first⟩
    obtain ⟨-, rfl⟩ := (hasPath_iff_spelling shape).1 hasPath
    refine ⟨(listed id).2 ⟨hasPath, has⟩, rfl, fun other mem ne => ?_⟩
    obtain ⟨hasOther, holdsOther⟩ := (listed other).1 mem
    exact first other _ hasOther holdsOther ne

private theorem shortestPath?_exactCandidates :
    shortestPath? ((ofTree tree).exactCandidates target) = some path ↔
      ∃ id, tree.IsPreferred (IsFinalSegment target) path id := by
  rw [exactCandidates_eq]
  exact shortestPath?_filter_eq_some_iff shape fun path => beq_iff_eq.trans finalSegment_eq_iff

private theorem shortestPath?_looseCandidates :
    shortestPath? ((ofTree tree).looseCandidates target) = some path ↔
      ∃ id, tree.IsPreferred (IsAkin target) path id :=
  shortestPath?_filter_eq_some_iff shape fun _ => overlaps_eq_true_iff

/-- What is suggested is said by the nodes of the tree. -/
theorem suggests_iff {reference : String} {answer : Option String} :
    tree.Suggests reference answer ↔ (ofTree tree).suggest? reference = answer := by
  have named {target : String} (ends : IsFinalSegment target reference) (nonempty : target ≠ "") :
      (ofTree tree).suggest? reference =
        (shortestPath? ((ofTree tree).exactCandidates target)).or
          (shortestPath? ((ofTree tree).looseCandidates target)) := by
    obtain rfl := finalSegment_eq_iff.2 ends
    exact if_neg nonempty
  have none_iff (paths : List String) : paths = [] ↔ shortestPath? paths = none :=
    shortestPath?_eq_none_iff.symm
  constructor
  · intro suggests
    cases suggests with
    | unnamed ends => exact if_pos (finalSegment_eq_iff.2 ends)
    | same nonempty ends preferred =>
      rw [named ends nonempty, (shortestPath?_exactCandidates shape).2 ⟨_, preferred⟩]
      rfl
    | akin nonempty ends noSame preferred =>
      rw [named ends nonempty, (none_iff _).1 (exactCandidates_eq_nil_iff.2 noSame),
        (shortestPath?_looseCandidates shape).2 ⟨_, preferred⟩]
      rfl
    | nothing nonempty ends noSame noAkin =>
      rw [named ends nonempty, (none_iff _).1 (exactCandidates_eq_nil_iff.2 noSame),
        (none_iff _).1 (looseCandidates_eq_nil_iff.2 noAkin)]
      rfl
  · rintro rfl
    have ends : IsFinalSegment (finalSegment reference) reference := finalSegment_eq_iff.1 rfl
    by_cases empty : finalSegment reference = ""
    · have absent : (ofTree tree).suggest? reference = none := if_pos empty
      rw [absent]
      exact .unnamed (empty ▸ ends)
    · rw [named ends empty]
      cases exact : shortestPath? ((ofTree tree).exactCandidates (finalSegment reference)) with
      | some path =>
        obtain ⟨id, preferred⟩ := (shortestPath?_exactCandidates shape).1 exact
        exact .same empty ends preferred
      | none =>
        have noSame := exactCandidates_eq_nil_iff.1 ((none_iff _).2 exact)
        cases loose : shortestPath? ((ofTree tree).looseCandidates (finalSegment reference)) with
        | some path =>
          obtain ⟨id, preferred⟩ := (shortestPath?_looseCandidates shape).1 loose
          exact .akin empty ends noSame preferred
        | none =>
          exact .nothing empty ends noSame (looseCandidates_eq_nil_iff.1 ((none_iff _).2 loose))

/-- A canonical path stands for a node with this path. -/
theorem exists_resolve_eq_exact (mem : path ∈ (ofTree tree).paths) :
    ∃ id, (ofTree tree).resolve path = .exact id ∧ tree.HasPath path id := by
  cases found : (ofTree tree).get? path with
  | none => exact absurd mem (get?_eq_none_iff.1 found)
  | some id =>
    refine ⟨id, by rw [resolve, found], ?_⟩
    rw [get?, List.findRev?_eq_find?_reverse] at found
    obtain ⟨⟨own, _⟩, first, rfl⟩ := Option.map_eq_some_iff.1 found
    obtain rfl : own = path := by simpa using List.find?_some first
    have listed := List.mem_reverse.1 (List.mem_of_find?_eq_some first)
    rw [entries_eq_map_spelling shape] at listed
    obtain ⟨node, met, eq⟩ := List.mem_map.1 listed
    obtain ⟨rfl, rfl⟩ := Prod.mk.inj eq
    exact (hasPath_iff_spelling shape).2 ⟨met, rfl⟩

end Preferred

variable {records : List NodeRecord}

/-- **What is suggested.** Let records form a tree. The path suggested for a reference is the one of
the preferred node among those whose paths end with the last segment of the reference, if there are
any, and otherwise among those whose last segment contains it or is contained in it. Nothing is
suggested if there are none of either kind, or if the last segment is empty. Every suggestion is a
canonical path, and as a reference it stands for a node with just this path. -/
theorem suggest?_preferred (formed : ofRecords records = .ok tree) (reference : String) :
    (∀ answer, (ofTree tree).suggest? reference = answer ↔ tree.Suggests reference answer) ∧
      ∀ path, (ofTree tree).suggest? reference = some path → path ∈ (ofTree tree).paths ∧
        ∃ id, (ofTree tree).resolve path = .exact id ∧ tree.HasPath path id := by
  have shape := isWellFormed_of_ofRecords formed
  refine ⟨fun answer => (suggests_iff shape).symm, fun path suggested => ?_⟩
  have canonical := suggest?_mem suggested
  exact ⟨canonical, exists_resolve_eq_exact shape canonical⟩

/-- Records of a scene with a label deep in it, followed by one label on each of two panels. -/
def threeLabels : List NodeRecord :=
  [⟨"Hud", none, .absent, none, 1⟩, ⟨"Menu", none, .root, none, 2⟩,
    ⟨"Body", none, .node "Menu", none, 3⟩, ⟨"Label", none, .node "Menu/Body", none, 4⟩,
    ⟨"Side", none, .root, none, 5⟩, ⟨"Foot", none, .root, none, 6⟩,
    ⟨"Label", none, .node "Foot", none, 7⟩, ⟨"Label", none, .node "Side", none, 8⟩]

/-- The label that is suggested comes first, depth first, of the two with the fewest segments: it is
neither the first of all labels nor the first that is declared on a panel. The same label is
suggested for a part of its name in other letters, and none for a path that ends with a slash. -/
theorem suggest?_preferred_threeLabels :
    ∃ tree, ofRecords threeLabels = .ok tree ∧
      tree.Suggests "Panel/Label" (some "Side/Label") ∧
      tree.Suggests "Panel/LAB" (some "Side/Label") ∧ tree.Suggests "Label/" none ∧
      "Side/Label" ∈ (ofTree tree).paths ∧
      ∃ id, (ofTree tree).resolve "Side/Label" = .exact id ∧ tree.HasPath "Side/Label" id := by
  have computed : (ofRecords threeLabels).toOption.map (fun tree =>
      ["Panel/Label", "Panel/LAB", "Label/"].map (ofTree tree).suggest?) =
      some [some "Side/Label", some "Side/Label", none] := by
    decide +kernel
  obtain ⟨tree, formed, values⟩ := exists_of_map_ofRecords computed
  simp only [List.map_cons, List.map_nil, List.cons.injEq, and_true] at values
  obtain ⟨same, akin, unnamed⟩ := values
  have suggests (reference : String) := (suggest?_preferred formed reference).1
  have canonical := (suggest?_preferred formed "Panel/Label").2 "Side/Label" same
  exact ⟨tree, formed, (suggests _ _).1 same, (suggests _ _).1 akin, (suggests _ _).1 unnamed,
    canonical⟩

end PathIndex

end SceneAudit
