import SceneAudit.Proofs.Tree.Ancestry
import SceneAudit.Proofs.Tree.Collision
import SceneAudit.Resolution

/-!
# The index and the way down

A path can be followed in a tree without any index, from the root to a child for each of its
segments. If no name is empty and none has a slash in it, the index finds the node that is reached
in this way, and finds nothing if at some segment there is no child to go to. The number of segments
of a path is then the depth of its node, so that the shortest of several paths is that of the node
nearest to the root.

## Main definitions

* `SceneTree.Descends`: a node is reached from another one by going down along names.
* `SceneTree.IsStuck`: on the way down along names there is no child to go to.

## Main results

* `SceneTree.descend_eq_some_iff`, `SceneTree.descend_eq_none_iff`: what walking down comes to.
* `SceneTree.descends_root_iff`: a node is reached from the root along the names on the way to it.
* `PathIndex.ofTree_descend`: the index of the tree that records form, and the way down.
-/

namespace SceneAudit

open Scene Text

namespace SceneTree

/-- The last node is reached from the first one by going down along the names, at each step to a
child with the next name. -/
inductive Descends (tree : SceneTree) : Nat → List String → Nat → Prop
  | here {id : Nat} : tree.Descends id [] id
  | down {id child target : Nat} {rest : List String} (link : tree.parent? child = some id)
      (further : tree.Descends child rest target) :
      tree.Descends id (tree.name child :: rest) target

/-- On the way down along the names a node is reached that has no child with the next name. -/
def IsStuck (tree : SceneTree) (id : Nat) (names : List String) : Prop :=
  ∃ front name back node, names = front ++ name :: back ∧ tree.Descends id front node ∧
    ∀ child, tree.parent? child = some node → tree.name child ≠ name

variable {tree : SceneTree} {id child target : Nat} {name : String} {names rest : List String}

/-! ### Walking down -/

/-- A child is found by its name, since it has no sibling of that name. -/
theorem child?_eq_some_iff (shape : tree.IsWellFormed) :
    tree.child? id name = some child ↔ tree.parent? child = some id ∧ tree.name child = name := by
  constructor
  · intro found
    have named := List.find?_some found
    exact ⟨shape.mem_children.1 (List.mem_of_find?_eq_some found), beq_iff_eq.1 named⟩
  · rintro ⟨link, rfl⟩
    cases found : tree.child? id (tree.name child) with
    | none =>
      have fresh := List.find?_eq_none.1 found child (shape.mem_children.2 link)
      simp at fresh
    | some other =>
      have named := List.find?_some found
      have linkOther := shape.mem_children.1 (List.mem_of_find?_eq_some found)
      refine congrArg some (Decidable.byContradiction fun ne => ?_)
      exact shape.name_ne_of_siblings ne linkOther link (beq_iff_eq.1 named)

private theorem child?_eq_none_iff (shape : tree.IsWellFormed) :
    tree.child? id name = none ↔
      ∀ child, tree.parent? child = some id → tree.name child ≠ name := by
  simp [child?, shape.mem_children]

private theorem descends_cons_iff :
    tree.Descends id (name :: rest) target ↔
      ∃ child, tree.parent? child = some id ∧ tree.name child = name ∧
        tree.Descends child rest target := by
  constructor
  · rintro (_ | ⟨link, further⟩)
    exact ⟨_, link, rfl, further⟩
  · rintro ⟨child, link, rfl, further⟩
    exact .down link further

/-- Walking down comes to a node if the node is reached along the names. -/
theorem descend_eq_some_iff (shape : tree.IsWellFormed) :
    tree.descend id names = some target ↔ tree.Descends id names target := by
  induction names generalizing id with
  | nil =>
    rw [descend, Option.some.injEq]
    constructor
    · rintro rfl
      exact .here
    · rintro ⟨⟩
      rfl
  | cons name rest ih =>
    rw [descend, Option.bind_eq_some_iff, descends_cons_iff]
    refine exists_congr fun child => ?_
    rw [child?_eq_some_iff shape, ih, and_assoc]

/-- Walking down comes to nothing if there is no child to go to at some step. -/
theorem descend_eq_none_iff (shape : tree.IsWellFormed) :
    tree.descend id names = none ↔ tree.IsStuck id names := by
  induction names generalizing id with
  | nil => simp [descend, IsStuck]
  | cons name rest ih =>
    rw [descend, Option.bind_eq_none_iff]
    constructor
    · intro fails
      cases found : tree.child? id name with
      | none => exact ⟨[], name, rest, id, rfl, .here, (child?_eq_none_iff shape).1 found⟩
      | some child =>
        obtain ⟨front, next, back, node, rfl, reached, stuck⟩ := ih.1 (fails child found)
        obtain ⟨link, rfl⟩ := (child?_eq_some_iff shape).1 found
        exact ⟨tree.name child :: front, next, back, node, rfl, .down link reached, stuck⟩
    · rintro ⟨front, next, back, node, eq, reached, stuck⟩ child found
      obtain ⟨link, rfl⟩ := (child?_eq_some_iff shape).1 found
      cases reached with
      | here =>
        obtain ⟨rfl, rfl⟩ := List.cons.inj eq
        exact absurd rfl (stuck child link)
      | @down _ other _ front linkOther further =>
        obtain ⟨same, rfl⟩ := List.cons.inj eq
        have sibling := (child?_eq_some_iff shape).2 ⟨linkOther, same.symm⟩
        rw [found, Option.some.injEq] at sibling
        subst sibling
        exact ih.2 ⟨front, next, back, node, rfl, further, stuck⟩

/-! ### Ways from the root -/

private theorem Descends.isUnder (h : tree.Descends id names target) : tree.IsUnder id target := by
  induction h with
  | here => exact .refl
  | down link _ ih => exact ih.trans (.step link .refl)

/-- The names that lead down to a node continue the way to the node above. -/
theorem Descends.way_eq (shape : tree.IsWellFormed) (h : tree.Descends id names target) :
    tree.way target = tree.way id ++ names := by
  induction h with
  | here => exact (List.append_nil _).symm
  | down link _ ih => rw [ih, way_of_parent? shape link, List.append_assoc, List.singleton_append]

theorem Descends.step (h : tree.Descends id names target)
    (link : tree.parent? child = some target) :
    tree.Descends id (names ++ [tree.name child]) child := by
  induction h with
  | here => exact .down link .here
  | down linkFirst _ ih => exact .down linkFirst (ih link)

/-- A node is reached from the root along the names on the way to it, and along no others. -/
theorem descends_root_iff (shape : tree.IsWellFormed) (lt : id < tree.size) :
    tree.Descends root names id ↔ tree.way id = names := by
  constructor
  · intro h
    rw [h.way_eq shape, way_root shape, List.nil_append]
  · rintro rfl
    induction id using shape.parent_induction with
    | top id link =>
      obtain rfl := (parent?_eq_none_iff shape lt).1 link
      rw [way_root shape]
      exact .here
    | step id parent link ih =>
      rw [way_of_parent? shape link]
      exact (ih (Nat.lt_trans (shape.lt_of_parent? link) lt)).step link

theorem length_way (shape : tree.IsWellFormed) (id : Nat) :
    (tree.way id).length = (tree.ancestors id).length := by
  induction id using shape.parent_induction with
  | top id link =>
    rw [ancestors_of_parent?_eq_none link, way, link]
    rfl
  | step id parent link ih =>
    rw [way_of_parent? shape link, ancestors_of_parent? shape link, List.length_append, ih]
    rfl

/-- Without slashes in names, the segments of a path are the names on the way. -/
theorem segments_path (shape : tree.IsWellFormed)
    (plain : ∀ id < tree.size, '/' ∉ (tree.name id).toList) (lt : id < tree.size)
    (ne : id ≠ root) : segments (tree.path id) = tree.way id := by
  refine segments_joinSegments (way_ne_nil shape lt ne) fun part mem => ?_
  obtain ⟨node, bound, rfl⟩ := exists_of_mem_way mem
  exact plain node bound

end SceneTree

/-! ### The index -/

namespace PathIndex

open SceneTree

section Plain

variable {tree : SceneTree} {id : Nat} (shape : tree.IsWellFormed) (named : tree.IsNamed)
  (plain : ∀ id < tree.size, '/' ∉ (tree.name id).toList)

include shape named plain

/-- The index finds the node that is reached along the segments of a reference. -/
theorem get?_eq_some_iff_descends {reference : String} :
    (ofTree tree).get? reference = some id ↔ tree.Descends root (segments reference) id := by
  constructor
  · intro found
    obtain ⟨lt, ne, rfl⟩ := (pathOf?_ofTree shape named).1 (path_of_get? shape named found)
    exact (descends_root_iff shape lt).2 (segments_path shape plain lt ne).symm
  · intro reached
    have lt := lt_size_of_isUnder shape.root_lt reached.isUnder
    have way := (descends_root_iff shape lt).1 reached
    have ne : id ≠ root := by
      rintro rfl
      rw [way_root shape] at way
      exact segments_ne_nil reference way.symm
    obtain ⟨path, own, found⟩ :=
      (isIndexedOnce_of_no_slash shape named fun id lt _ => plain id lt).found id lt ne
    obtain ⟨-, -, rfl⟩ := (pathOf?_ofTree shape named).1 own
    rwa [SceneTree.path, way, joinSegments_segments] at found

/-- A path has as many segments as its node has ancestors. -/
private theorem segmentCount_of_mem_entries {entry : String × Nat}
    (mem : entry ∈ (ofTree tree).entries) :
    segmentCount entry.1 = (tree.ancestors entry.2).length := by
  rw [entries_ofTree shape named] at mem
  obtain ⟨node, met, rfl⟩ := List.mem_map.1 mem
  obtain ⟨lt, ne⟩ := (mem_preorder shape).1 met
  rw [segmentCount, segments_path shape plain lt ne, length_way shape]

/-- The shortest path of some entries is that of the first node among those of least depth. -/
theorem shortestPath?_eq_some_iff_ancestors {candidates : List (String × Nat)} {path : String}
    (listed : candidates ⊆ (ofTree tree).entries) :
    shortestPath? (candidates.map Prod.fst) = some path ↔
      ∃ front id back, candidates = front ++ (path, id) :: back ∧
        (∀ other ∈ front, (tree.ancestors id).length < (tree.ancestors other.2).length) ∧
        ∀ other ∈ back, (tree.ancestors id).length ≤ (tree.ancestors other.2).length := by
  have depth {entry : String × Nat} (mem : entry ∈ candidates) :=
    segmentCount_of_mem_entries shape named plain (listed mem)
  rw [shortestPath?_eq_some_iff]
  constructor
  · rintro ⟨paths, others, eq, before, after⟩
    obtain ⟨front, rest, rfl, rfl, cut⟩ := List.map_eq_append_iff.1 eq
    obtain ⟨⟨path, id⟩, back, rfl, rfl, rfl⟩ := List.map_eq_cons_iff.1 cut
    have own := depth (List.mem_append_right front List.mem_cons_self)
    refine ⟨front, id, back, rfl, fun other mem => ?_, fun other mem => ?_⟩
    · rw [← own, ← depth (List.mem_append_left _ mem)]
      exact before _ (List.mem_map_of_mem mem)
    · rw [← own, ← depth (List.mem_append_right front (List.mem_cons_of_mem _ mem))]
      exact after _ (List.mem_map_of_mem mem)
  · rintro ⟨front, id, back, rfl, before, after⟩
    have own := depth (List.mem_append_right front List.mem_cons_self)
    refine ⟨front.map Prod.fst, back.map Prod.fst, by simp, ?_, ?_⟩
    · intro other mem
      obtain ⟨entry, inside, rfl⟩ := List.mem_map.1 mem
      rw [own, depth (List.mem_append_left _ inside)]
      exact before entry inside
    · intro other mem
      obtain ⟨entry, inside, rfl⟩ := List.mem_map.1 mem
      rw [own, depth (List.mem_append_right front (List.mem_cons_of_mem _ inside))]
      exact after entry inside

end Plain

variable {records : List NodeRecord} {tree : SceneTree}

/-- **The index agrees with the way down.** Let records with names that have no slashes form a tree.
Then the index of the tree finds the node to which a reference leads from the root, segment by
segment, and finds none exactly if the way down ends at a node without the next child. A path has
as many segments as its node has ancestors; so of any entries of the index the shortest path is that
of the first node among those of least depth. -/
theorem ofTree_descend (plain : ∀ record ∈ records, record.name ≠ "" ∧ '/' ∉ record.name.toList)
    (formed : ofRecords records = .ok tree) :
    (∀ reference, (ofTree tree).get? reference = tree.descend root (segments reference) ∧
      (∀ id, (ofTree tree).get? reference = some id ↔
        tree.Descends root (segments reference) id) ∧
      ((ofTree tree).get? reference = none ↔ tree.IsStuck root (segments reference))) ∧
    (∀ id < tree.size, id ≠ root → ∃ path, (ofTree tree).pathOf? id = some path ∧
      segmentCount path = (tree.ancestors id).length) ∧
    ∀ candidates ⊆ (ofTree tree).entries, ∀ path,
      shortestPath? (candidates.map Prod.fst) = some path ↔
        ∃ front id back, candidates = front ++ (path, id) :: back ∧
          (∀ other ∈ front, (tree.ancestors id).length < (tree.ancestors other.2).length) ∧
          ∀ other ∈ back, (tree.ancestors id).length ≤ (tree.ancestors other.2).length := by
  have shape := isWellFormed_of_ofRecords formed
  have named := isNamed_of_ofRecords formed fun record mem => (plain record mem).1
  have noSlash (id : Nat) (lt : id < tree.size) : '/' ∉ (tree.name id).toList := by
    obtain ⟨record, mem, same⟩ := exists_name_of_ofRecords formed lt
    exact same ▸ (plain record mem).2
  have found (reference : String) :
      (ofTree tree).get? reference = tree.descend root (segments reference) :=
    Option.ext fun id => (get?_eq_some_iff_descends shape named noSlash).trans
      (descend_eq_some_iff shape).symm
  refine ⟨fun reference => ⟨found reference,
    fun id => get?_eq_some_iff_descends shape named noSlash, ?_⟩, fun id lt ne => ?_,
    fun candidates listed path => shortestPath?_eq_some_iff_ancestors shape named noSlash listed⟩
  · rw [found]
    exact descend_eq_none_iff shape
  · refine ⟨_, (pathOf?_ofTree shape named).2 ⟨lt, ne, rfl⟩, ?_⟩
    rw [segmentCount, segments_path shape noSlash lt ne, length_way shape]

theorem ofTree_descend_chained :
    (∀ record ∈ chained, record.name ≠ "" ∧ '/' ∉ record.name.toList) ∧
      ∃ tree, ofRecords chained = .ok tree ∧ tree.Descends root ["A", "B", "A"] 3 ∧
        tree.IsStuck root ["A", "", "B"] ∧
        (∃ path, (ofTree tree).pathOf? 3 = some path ∧ segmentCount path = 3) ∧
        ∃ front id back, (ofTree tree).withFinalSegment "B" = front ++ ("B", id) :: back ∧
          ∀ other ∈ front, (tree.ancestors id).length < (tree.ancestors other.2).length := by
  have plain : ∀ record ∈ chained, record.name ≠ "" ∧ '/' ∉ record.name.toList := by
    decide +kernel
  have computed : (ofRecords chained).toOption.map (fun tree =>
      (tree.size, (ofTree tree).get? "A/B/A", (ofTree tree).get? "A//B", tree.ancestors 3,
        shortestPath? (((ofTree tree).withFinalSegment "B").map Prod.fst))) =
      some (5, some 3, none, [2, 1, 0], some "B") := by
    decide +kernel
  obtain ⟨tree, formed, values⟩ := exists_of_map_ofRecords computed
  simp only [Prod.mk.injEq] at values
  obtain ⟨size, found, missing, ancestors, shortest⟩ := values
  obtain ⟨lookup, depth, shallowest⟩ := ofTree_descend plain formed
  obtain ⟨front, id, back, eq, before, -⟩ :=
    (shallowest _ List.filter_sublist.subset "B").1 shortest
  refine ⟨plain, tree, formed, ((lookup "A/B/A").2.1 3).1 found, (lookup "A//B").2.2.1 missing, ?_,
    front, id, back, eq, before⟩
  have own := depth 3 (by omega) (by decide)
  rwa [ancestors] at own

end PathIndex

end SceneAudit
