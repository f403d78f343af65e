import SceneAudit.Tree

/-!
# The shape of a scene tree

A tree keeps each of its links twice, as the parent of the child and in the list of children of the
parent. A tree that records form is well-formed: parents come before their children, the two ways of
writing a link agree, and no two children of a node have the same name. The draft of a tree is
well-formed from its first record on, and adding a record keeps it so.

## Main definitions

* `SceneTree.IsWellFormed`: the links of a tree agree and lead to the root.
* `SceneTree.IsUnder`: a node lies in the subtree of another.
* `SceneTree.IsFrontOf`: a tree is what another one begins with.
* `SceneTree.Draft.toTree`: the tree of the records so far.

## Main results

* `SceneTree.IsUnder.comparable`: of two nodes over a third one, one is under the other.
* `SceneTree.Draft.isWellFormed_attach`: a new last child keeps a tree well-formed.
* `SceneTree.Draft.addAll_induction`: what adding a record keeps is kept by adding several.
* `SceneTree.Draft.isFrontOf_addAll`: records that are added leave the nodes before them as they
  are.
-/

namespace SceneAudit

open Scene

namespace SceneTree

variable {tree : SceneTree} {id child parent top : Nat}

/-! ### Well-formed trees -/

/-- Every node but the root has an earlier parent, the children of a node are the nodes whose
parent it is, in the order of declaration, and siblings have different names. -/
structure IsWellFormed (tree : SceneTree) : Prop where
  root_lt : root < tree.size
  parent?_root : tree.parent? root = none
  parent_lt : ∀ id < tree.size, id ≠ root → ∃ parent < id, tree.parent? id = some parent
  children_eq : ∀ id,
    tree.children id = tree.ids.filter fun child => tree.parent? child == some id
  siblings : ∀ left right, left < right → right < tree.size →
    tree.parent? left = tree.parent? right → tree.name left ≠ tree.name right

theorem parent?_of_size_le (h : tree.size ≤ id) : tree.parent? id = none := by
  have none : tree.nodes[id]? = none := Array.getElem?_eq_none h
  rw [parent?, none, Option.bind_none]

theorem lt_size_of_parent? (h : tree.parent? id = some parent) : id < tree.size := by
  refine Nat.lt_of_not_le fun le => ?_
  rw [parent?_of_size_le le] at h
  contradiction

namespace IsWellFormed

theorem ne_root_of_parent? (shape : tree.IsWellFormed) (h : tree.parent? id = some parent) :
    id ≠ root := by
  rintro rfl
  rw [shape.parent?_root] at h
  contradiction

theorem lt_of_parent? (shape : tree.IsWellFormed) (h : tree.parent? id = some parent) :
    parent < id := by
  obtain ⟨other, lt, eq⟩ :=
    shape.parent_lt id (lt_size_of_parent? h) (shape.ne_root_of_parent? h)
  rw [h, Option.some.injEq] at eq
  exact eq ▸ lt

/-- Induction from the root of a well-formed tree to its leaves. -/
theorem parent_induction {motive : Nat → Prop} (shape : tree.IsWellFormed)
    (top : ∀ id, tree.parent? id = none → motive id)
    (step : ∀ id parent, tree.parent? id = some parent → motive parent → motive id) (id : Nat) :
    motive id := by
  induction id using Nat.strongRecOn with
  | ind id ih =>
    cases link : tree.parent? id with
    | none => exact top id link
    | some parent => exact step id parent link (ih parent (shape.lt_of_parent? link))

theorem mem_children (shape : tree.IsWellFormed) :
    child ∈ tree.children id ↔ tree.parent? child = some id := by
  rw [shape.children_eq, List.mem_filter, ids, List.mem_range, beq_iff_eq]
  exact and_iff_right_of_imp lt_size_of_parent?

theorem pairwise_children (shape : tree.IsWellFormed) (id : Nat) :
    (tree.children id).Pairwise (· < ·) := by
  rw [shape.children_eq]
  exact List.pairwise_lt_range.filter _

/-- Two siblings have different names, whichever of them comes first. -/
theorem name_ne_of_siblings (shape : tree.IsWellFormed) {left right : Nat} (ne : left ≠ right)
    (linkLeft : tree.parent? left = some parent) (linkRight : tree.parent? right = some parent) :
    tree.name left ≠ tree.name right := by
  rcases Nat.lt_or_gt_of_ne ne with before | after
  · exact shape.siblings left right before (lt_size_of_parent? linkRight)
      (linkLeft.trans linkRight.symm)
  · exact (shape.siblings right left after (lt_size_of_parent? linkLeft)
      (linkRight.trans linkLeft.symm)).symm

end IsWellFormed

/-! ### Subtrees -/

/-- The node `id` is `top` or one of the nodes below it. -/
inductive IsUnder (tree : SceneTree) (top : Nat) : Nat → Prop
  | refl : tree.IsUnder top top
  | step {id parent : Nat} (link : tree.parent? id = some parent)
      (above : tree.IsUnder top parent) : tree.IsUnder top id

namespace IsUnder

theorem le (shape : tree.IsWellFormed) (h : tree.IsUnder top id) : top ≤ id := by
  induction h with
  | refl => exact Nat.le_refl top
  | step link _ ih => exact Nat.le_trans ih (Nat.le_of_lt (shape.lt_of_parent? link))

theorem trans {middle : Nat} (lower : tree.IsUnder middle id) (upper : tree.IsUnder top middle) :
    tree.IsUnder top id := by
  induction lower with
  | refl => exact upper
  | step link _ ih => exact .step link ih

/-- Of two nodes over a third one, one is under the other. -/
theorem comparable {other : Nat} (h : tree.IsUnder top id) (h' : tree.IsUnder other id) :
    tree.IsUnder top other ∨ tree.IsUnder other top := by
  induction h with
  | refl => exact .inr h'
  | step link above ih =>
    cases h' with
    | refl => exact .inl (.step link above)
    | step link' above' =>
      rw [link, Option.some.injEq] at link'
      exact ih (link' ▸ above')

/-- A sibling under another one is that other one. -/
private theorem eq_of_parent?_eq {left right : Nat} (shape : tree.IsWellFormed)
    (h : tree.IsUnder left right) (eq : tree.parent? left = tree.parent? right) : left = right := by
  cases h with
  | refl => rfl
  | step link above =>
    have lower := above.le shape
    have upper := shape.lt_of_parent? (eq.trans link)
    omega

/-- The subtrees of two siblings have no node in common. -/
theorem eq_of_siblings {left right : Nat} (shape : tree.IsWellFormed)
    (hl : tree.IsUnder left id) (hr : tree.IsUnder right id)
    (eq : tree.parent? left = tree.parent? right) : left = right := by
  rcases hl.comparable hr with h | h
  · exact h.eq_of_parent?_eq shape eq
  · exact (h.eq_of_parent?_eq shape eq.symm).symm

theorem of_root (shape : tree.IsWellFormed) (lt : id < tree.size) : tree.IsUnder root id := by
  induction id using Nat.strongRecOn with
  | ind id ih =>
    by_cases h : id = root
    · exact h ▸ .refl
    · obtain ⟨parent, before, link⟩ := shape.parent_lt id lt h
      exact .step link (ih parent before (Nat.lt_trans before lt))

end IsUnder

/-! ### Smaller and larger trees -/

/-- The larger tree begins with the nodes of the smaller one, under the same names and parents. -/
structure IsFrontOf (tree larger : SceneTree) : Prop where
  size_le : tree.size ≤ larger.size
  name_eq : ∀ id < tree.size, larger.name id = tree.name id
  parent?_eq : ∀ id < tree.size, larger.parent? id = tree.parent? id

namespace IsFrontOf

theorem refl (tree : SceneTree) : tree.IsFrontOf tree :=
  ⟨Nat.le_refl _, fun _ _ => rfl, fun _ _ => rfl⟩

theorem trans {middle larger : SceneTree} (first : tree.IsFrontOf middle)
    (second : middle.IsFrontOf larger) : tree.IsFrontOf larger where
  size_le := Nat.le_trans first.size_le second.size_le
  name_eq id lt :=
    (second.name_eq id (Nat.lt_of_lt_of_le lt first.size_le)).trans (first.name_eq id lt)
  parent?_eq id lt :=
    (second.parent?_eq id (Nat.lt_of_lt_of_le lt first.size_le)).trans (first.parent?_eq id lt)

end IsFrontOf

/-! ### Drafts -/

namespace Draft

variable {draft : Draft} {record : NodeRecord} {script : Option String}

/-- The tree of the records so far. -/
def toTree (draft : Draft) (script : Option String) : SceneTree :=
  ⟨draft.nodes, script⟩

@[simp] theorem size_toTree : (draft.toTree script).size = draft.nodes.size := rfl

@[simp] theorem size_attach : (draft.attach parent record).nodes.size = draft.nodes.size + 1 := by
  simp [attach]

theorem getElem?_attach (id : Nat) :
    (draft.attach parent record).nodes[id]? =
      if id = draft.nodes.size then some (SceneNode.ofRecord record (some parent))
      else draft.nodes[id]?.map fun node =>
        if id = parent then { node with children := node.children ++ [draft.nodes.size] }
        else node := by
  rw [attach, Array.getElem?_push, Array.size_modify, Array.getElem?_modify]
  split
  · rfl
  · by_cases eq : parent = id
    · simp [eq]
    · simp [eq, Ne.symm eq]

theorem name_attach (id : Nat) :
    ((draft.attach parent record).toTree script).name id =
      if id = draft.nodes.size then record.name else (draft.toTree script).name id := by
  simp only [name, toTree, getElem?_attach]
  split
  · rfl
  · rw [Option.map_map]
    congr 2
    funext node
    simp only [Function.comp_apply]
    split <;> rfl

theorem parent?_attach (id : Nat) :
    ((draft.attach parent record).toTree script).parent? id =
      if id = draft.nodes.size then some parent else (draft.toTree script).parent? id := by
  simp only [parent?, toTree, getElem?_attach]
  split
  · rfl
  · rw [Option.bind_map]
    congr 1
    funext node
    simp only [Function.comp_apply]
    split <;> rfl

private theorem children_attach (lt : parent < draft.nodes.size) (id : Nat) :
    ((draft.attach parent record).toTree script).children id =
      (draft.toTree script).children id ++ if id = parent then [draft.nodes.size] else [] := by
  simp only [children, toTree, getElem?_attach]
  by_cases new : id = draft.nodes.size
  · have ne : id ≠ parent := by omega
    have none : draft.nodes[id]? = none := Array.getElem?_eq_none (Nat.le_of_eq new.symm)
    rw [ite_cond_eq_true _ _ (eq_true new), ite_cond_eq_false _ _ (eq_false ne), none]
    rfl
  · rw [ite_cond_eq_false _ _ (eq_false new), Option.map_map]
    by_cases eq : id = parent
    · obtain ⟨node, found⟩ : ∃ node, draft.nodes[id]? = some node :=
        ⟨_, Array.getElem?_eq_getElem (eq ▸ lt)⟩
      simp [eq ▸ found, eq]
    · simp only [eq, ↓reduceIte, List.append_nil]
      rfl

/-- A new node leaves the nodes before it and their parents as they are. -/
theorem isFrontOf_attach :
    (draft.toTree script).IsFrontOf ((draft.attach parent record).toTree script) where
  size_le := by
    rw [size_toTree, size_toTree, size_attach]
    exact Nat.le_succ _
  name_eq id lt := by
    have old : id ≠ draft.nodes.size := Nat.ne_of_lt lt
    rw [name_attach, ite_cond_eq_false _ _ (eq_false old)]
  parent?_eq id lt := by
    have old : id ≠ draft.nodes.size := Nat.ne_of_lt lt
    rw [parent?_attach, ite_cond_eq_false _ _ (eq_false old)]

/-- A node has a child of the given name if one of the nodes whose parent it is has that name. -/
theorem hasChild_iff (shape : (draft.toTree script).IsWellFormed) {name : String} :
    draft.hasChild parent name = true ↔
      ∃ child, (draft.toTree script).parent? child = some parent ∧
        (draft.toTree script).name child = name := by
  have links : ((draft.nodes[parent]?.map SceneNode.children).getD []) =
      (draft.toTree script).children parent := rfl
  rw [hasChild, links, List.any_eq_true]
  refine exists_congr fun child => ?_
  rw [shape.mem_children]
  refine and_congr_right fun link => ?_
  have lt : child < draft.nodes.size := lt_size_of_parent? link
  simp [SceneTree.name, toTree, Array.getElem?_eq_getElem lt]

theorem isWellFormed_start (record : NodeRecord) :
    ((start record).toTree script).IsWellFormed where
  root_lt := Nat.one_pos
  parent?_root := rfl
  parent_lt id lt ne := absurd (Nat.lt_one_iff.1 lt) ne
  children_eq id := by
    cases id with
    | zero => rfl
    | succ id => rfl
  siblings left right lt lt' := absurd (Nat.lt_one_iff.1 lt') (by omega)

/-- A new last child keeps a tree well-formed, if none of its siblings has its name. -/
theorem isWellFormed_attach (shape : (draft.toTree script).IsWellFormed)
    (lt : parent < draft.nodes.size) (fresh : draft.hasChild parent record.name = false) :
    ((draft.attach parent record).toTree script).IsWellFormed where
  root_lt := by
    rw [size_toTree, size_attach]
    exact Nat.lt_succ_of_lt shape.root_lt
  parent?_root := by
    have ne : root ≠ draft.nodes.size := Nat.ne_of_lt shape.root_lt
    rw [parent?_attach, ite_cond_eq_false _ _ (eq_false ne), shape.parent?_root]
  parent_lt id before ne := by
    rw [parent?_attach]
    split
    · rename_i eq
      exact ⟨parent, eq ▸ lt, rfl⟩
    · rename_i old
      rw [size_toTree, size_attach] at before
      exact shape.parent_lt id (Nat.lt_of_le_of_ne (Nat.le_of_lt_succ before) old) ne
  children_eq id := by
    have old : ∀ child ∈ List.range draft.nodes.size,
        (((draft.attach parent record).toTree script).parent? child == some id) =
          ((draft.toTree script).parent? child == some id) := by
      intro child mem
      have ne := Nat.ne_of_lt (List.mem_range.1 mem)
      rw [parent?_attach, ite_cond_eq_false _ _ (eq_false ne)]
    rw [children_attach lt, shape.children_eq, ids, ids, size_toTree, size_toTree, size_attach,
      List.range_succ, List.filter_append, List.filter_congr old]
    by_cases eq : id = parent
    · simp [parent?_attach, eq]
    · simp [parent?_attach, eq, Ne.symm eq]
  siblings left right before bound eq := by
    rw [size_toTree, size_attach] at bound
    have leftOld : left ≠ draft.nodes.size := by omega
    rw [parent?_attach, parent?_attach, ite_cond_eq_false _ _ (eq_false leftOld)] at eq
    rw [name_attach, name_attach, ite_cond_eq_false _ _ (eq_false leftOld)]
    split at eq
    · rename_i new
      rw [ite_cond_eq_true _ _ (eq_true new)]
      intro same
      have taken := (hasChild_iff shape).2 ⟨left, eq, same⟩
      rw [fresh] at taken
      contradiction
    · rename_i old
      rw [ite_cond_eq_false _ _ (eq_false old)]
      exact shape.siblings left right before (by rw [size_toTree]; omega) eq

/-! ### Adding records -/

/-- The parent of a record is one of the nodes so far. -/
theorem lt_of_parentOf {later : List NodeRecord} (nonempty : 0 < draft.nodes.size)
    (h : draft.parentOf record later = .ok parent) : parent < draft.nodes.size := by
  unfold parentOf at h
  split at h
  · exact Except.ok.inj h ▸ nonempty
  · exact Except.ok.inj h ▸ nonempty
  · split at h
    · rename_i found
      rw [Except.ok.injEq] at h
      subst h
      rcases Option.or_eq_some_iff.1 found with found | ⟨-, found⟩
      · exact (latest?_eq_some_iff.1 found).1
      · exact (latest?_eq_some_iff.1 found).1
    · contradiction

theorem add_eq_ok_iff {later : List NodeRecord} {next : Draft} :
    draft.add record later = .ok next ↔
      ∃ parent, draft.parentOf record later = .ok parent ∧
        draft.hasChild parent record.name = false ∧ next = draft.attach parent record := by
  unfold add
  split
  · rename_i fails
    simp [fails]
  · rename_i parent found
    cases taken : draft.hasChild parent record.name with
    | true => simp [found, taken]
    | false => simpa [found, taken] using eq_comm

/-- What holds of a draft and is kept by adding one record is kept by adding several. The records
so far are part of what is said. -/
theorem addAll_induction {motive : List NodeRecord → Draft → Prop} {later : List NodeRecord}
    (step : ∀ past draft record later next, motive past draft →
      draft.add record later = .ok next → motive (past ++ [record]) next)
    {past rest : List NodeRecord} {final : Draft} (before : motive past draft)
    (h : addAll later draft rest = .ok final) : motive (past ++ rest) final := by
  induction rest generalizing past draft with
  | nil =>
    rw [addAll, Except.ok.injEq] at h
    rw [List.append_nil]
    exact h ▸ before
  | cons record rest ih =>
    rw [addAll] at h
    split at h
    · contradiction
    · rename_i next added
      rw [List.append_cons]
      exact ih (step past draft record _ next before added) h

/-- Records that are added leave the nodes before them and their parents as they are. -/
theorem isFrontOf_addAll {later rest : List NodeRecord} {final : Draft}
    (added : addAll later draft rest = .ok final) :
    (draft.toTree script).IsFrontOf (final.toTree script) := by
  have step (_ : List NodeRecord) (now : Draft) (record : NodeRecord) (later : List NodeRecord)
      (next : Draft) (before : (draft.toTree script).IsFrontOf (now.toTree script))
      (taken : now.add record later = .ok next) :
      (draft.toTree script).IsFrontOf (next.toTree script) := by
    obtain ⟨parent, -, -, rfl⟩ := add_eq_ok_iff.1 taken
    exact before.trans isFrontOf_attach
  -- What the records so far are is of no account here.
  exact @addAll_induction draft
    (fun _ now => (draft.toTree script).IsFrontOf (now.toTree script)) later step [] rest final
    (.refl _) added

end Draft

end SceneTree

end SceneAudit
