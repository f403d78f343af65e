import SceneAudit.Disk

/-!
# Trees as they lie on a disk

A tree of files may hold anything under any name, while the entries of a directory on a disk have
distinct names, and no name is empty, is one of the two dots that stand for a directory, or holds a
slash. In such a tree a file that is met on a walk is found again at the end of its way.

## Main definitions

* `FileTree.IsEntryName`: the names that an entry of a directory can have.
* `FileTree.IsLegal`: the trees whose directories have entries of distinct such names. Whether a tree
  is one can be decided.

## Main results

* `FileTree.get?_append`: a way is followed in two goes.
* `FileTree.IsLegal.of_get?`: what is found in a legal tree is legal, and so are the names on the
  way.
* `FileTree.mem_walk_iff`: what is met on a walk through a legal tree is what is found in it, except
  below a directory that is not entered.
-/

namespace SceneAudit.FileTree

/-- A name that an entry of a directory can have. -/
structure IsEntryName (name : String) : Prop where
  nonempty : name ≠ ""
  notDot : name ≠ "."
  notDots : name ≠ ".."
  noSlash : '/' ∉ name.toList
  noNul : '\x00' ∉ name.toList
  short : name.utf8ByteSize ≤ Disk.nameBytes

instance : DecidablePred IsEntryName := fun name =>
  decidable_of_iff (name ≠ "" ∧ name ≠ "." ∧ name ≠ ".." ∧ '/' ∉ name.toList ∧
      '\x00' ∉ name.toList ∧ name.utf8ByteSize ≤ Disk.nameBytes)
    ⟨fun ⟨nonempty, notDot, notDots, noSlash, noNul, short⟩ =>
      { nonempty, notDot, notDots, noSlash, noNul, short },
    fun h => ⟨h.nonempty, h.notDot, h.notDots, h.noSlash, h.noNul, h.short⟩⟩

/-- A tree in which the entries of every directory have distinct names, all of them proper. -/
inductive IsLegal : FileTree → Prop where
  | file (content : ByteArray) : IsLegal (.file content)
  | directory {entries : List (String × FileTree)}
      (names : ∀ entry ∈ entries, IsEntryName entry.1)
      (distinct : entries.Pairwise fun left right => left.1 ≠ right.1)
      (subtrees : ∀ entry ∈ entries, IsLegal entry.2) : IsLegal (.directory entries)

theorem isLegal_directory_iff {entries : List (String × FileTree)} :
    (directory entries).IsLegal ↔ (∀ entry ∈ entries, IsEntryName entry.1) ∧
      (entries.Pairwise fun left right => left.1 ≠ right.1) ∧
        ∀ entry ∈ entries, IsLegal entry.2 :=
  ⟨fun | .directory names distinct subtrees => ⟨names, distinct, subtrees⟩,
    fun ⟨names, distinct, subtrees⟩ => .directory names distinct subtrees⟩

mutual

/-- The decision whether a tree is legal. -/
def decideLegal : (tree : FileTree) → Decidable tree.IsLegal
  | .file content => .isTrue (.file content)
  | .directory entries =>
    have := decideAllLegal entries
    decidable_of_iff' _ isLegal_directory_iff

/-- The decision whether all entries of a directory are legal. -/
def decideAllLegal :
    (entries : List (String × FileTree)) → Decidable (∀ entry ∈ entries, IsLegal entry.2)
  | [] => .isTrue (List.forall_mem_nil _)
  | (_, tree) :: entries =>
    have := decideLegal tree
    have := decideAllLegal entries
    decidable_of_iff' (tree.IsLegal ∧ ∀ entry ∈ entries, IsLegal entry.2) List.forall_mem_cons

end

instance : DecidablePred IsLegal := decideLegal

variable {tree found : FileTree} {entries : List (String × FileTree)} {name : String}
  {way front back : List String} {enters : List String → Bool}

/-! ### Ways -/

theorem get?_cons (tree : FileTree) (name : String) (names : List String) :
    tree.get? (name :: names) = (tree.child? name).bind (get? · names) := rfl

/-- A way is followed in two goes. -/
theorem get?_append (tree : FileTree) (front back : List String) :
    tree.get? (front ++ back) = (tree.get? front).bind (get? · back) := by
  induction front generalizing tree with
  | nil => rfl
  | cons name front ih =>
    rw [List.cons_append, get?_cons, get?_cons]
    cases tree.child? name with
    | none => rfl
    | some child => exact ih child

/-- What a way goes on from is a directory. -/
theorem exists_directory_of_get? (h : tree.get? (front ++ name :: back) = some found) :
    ∃ entries, tree.get? front = some (.directory entries) ∧
      entries.any (fun entry => entry.1 == name) = true := by
  rw [get?_append] at h
  obtain ⟨middle, reached, h⟩ := Option.bind_eq_some_iff.1 h
  cases middle with
  | file content => contradiction
  | directory entries =>
    obtain ⟨child, listed, -⟩ := Option.bind_eq_some_iff.1 h
    obtain ⟨entry, first, -⟩ := Option.map_eq_some_iff.1 listed
    have named := List.find?_some first
    have mem : entry ∈ entries := List.mem_of_find?_eq_some first
    exact ⟨entries, reached, List.any_eq_true.2 ⟨entry, mem, named⟩⟩

/-- The empty way has no front but itself. -/
theorem forall_front_nil {p : List String → Prop} (front : List String) (short : front <+: [])
    (other : front ≠ []) : p front :=
  absurd (List.prefix_nil.1 short) other

/-- The other fronts of a way are the empty one and those of the rest behind the first name. -/
theorem forall_front_cons_iff {p : List String → Prop} {names : List String} :
    (∀ front, front <+: name :: names → front ≠ name :: names → p front) ↔
      p [] ∧ ∀ front, front <+: names → front ≠ names → p (name :: front) := by
  constructor
  · intro all
    refine ⟨all [] List.nil_prefix (List.cons_ne_nil _ _).symm, fun front short other => ?_⟩
    exact all (name :: front) (List.cons_prefix_cons.2 ⟨rfl, short⟩)
      fun same => other (List.cons.inj same).2
  · rintro ⟨first, later⟩ front short other
    rcases List.prefix_cons_iff.1 short with rfl | ⟨inner, rfl, within⟩
    · exact first
    · exact later inner within fun same => other (congrArg _ same)

/-! ### Legal trees -/

private theorem child?_cons (entry : String × FileTree) (entries : List (String × FileTree))
    (name : String) :
    (directory (entry :: entries)).child? name =
      if entry.1 = name then some entry.2 else (directory entries).child? name := by
  rw [child?, FileTree.entries, List.find?_cons]
  by_cases same : entry.1 = name
  · simp [same]
  · rw [if_neg same, beq_eq_false_iff_ne.2 same]
    rfl

/-- In a directory with distinct names every entry is found by its name. -/
theorem child?_eq_some_iff (distinct : entries.Pairwise fun left right => left.1 ≠ right.1) :
    (directory entries).child? name = some found ↔ (name, found) ∈ entries := by
  induction entries with
  | nil => simp [child?, FileTree.entries]
  | cons entry entries ih =>
    obtain ⟨fresh, distinct⟩ := List.pairwise_cons.1 distinct
    rw [child?_cons, List.mem_cons, Prod.ext_iff]
    split
    · rename_i same
      subst same
      have later : (entry.1, found) ∉ entries := fun mem => fresh _ mem rfl
      simp [later, eq_comm]
    · rename_i differs
      simp [ih distinct, Ne.symm differs]

namespace IsLegal

/-- What is found in a legal tree is legal, and so are the names on the way. -/
theorem of_get? (legal : tree.IsLegal) (h : tree.get? way = some found) :
    found.IsLegal ∧ ∀ name ∈ way, IsEntryName name := by
  induction way generalizing tree with
  | nil =>
    obtain rfl := Option.some.inj h
    exact ⟨legal, fun name mem => absurd mem List.not_mem_nil⟩
  | cons name way ih =>
    obtain ⟨child, listed, below⟩ := Option.bind_eq_some_iff.1 h
    cases legal with
    | file content => contradiction
    | directory names distinct subtrees =>
      have mem := (child?_eq_some_iff distinct).1 listed
      obtain ⟨legalFound, others⟩ := ih (subtrees _ mem) below
      exact ⟨legalFound, List.forall_mem_cons.2 ⟨names _ mem, others⟩⟩

end IsLegal

/-- What is met at the end of a way is found on the rest of it, and all directories on this rest are
entered. -/
theorem mem_walk_iff_of_front (legal : tree.IsLegal) :
    (back, found) ∈ tree.walk enters way ↔ ∃ names, back = way ++ names ∧
      tree.get? names = some found ∧
        ∀ front, front <+: names → front ≠ names → enters (way ++ front) = true := by
  induction legal generalizing way with
  | file content =>
    rw [walk, List.mem_singleton, Prod.mk.injEq]
    constructor
    · rintro ⟨rfl, rfl⟩
      exact ⟨[], (List.append_nil _).symm, rfl, forall_front_nil⟩
    · rintro ⟨names, rfl, reached, -⟩
      cases names with
      | nil => exact ⟨List.append_nil _, (Option.some.inj reached).symm⟩
      | cons name names => contradiction
  | @directory entries names distinct subtrees ih =>
    rw [walk, List.mem_cons, Prod.mk.injEq]
    constructor
    · rintro (⟨rfl, rfl⟩ | below)
      · exact ⟨[], (List.append_nil _).symm, rfl, forall_front_nil⟩
      · split at below
        · rename_i entered
          obtain ⟨name, child, mem, inside⟩ := mem_walkEntries_iff.1 below
          obtain ⟨rest, rfl, reached, fronts⟩ := (ih _ mem).1 inside
          refine ⟨name :: rest, List.append_cons _ _ _ ▸ rfl, ?_, forall_front_cons_iff.2 ⟨?_, ?_⟩⟩
          · rw [get?_cons, (child?_eq_some_iff distinct).2 mem]
            exact reached
          · rwa [List.append_nil]
          · simpa only [List.append_assoc, List.singleton_append] using fronts
        · contradiction
    · rintro ⟨rest, rfl, reached, fronts⟩
      cases rest with
      | nil => exact .inl ⟨List.append_nil _, (Option.some.inj reached).symm⟩
      | cons name rest =>
        obtain ⟨child, listed, below⟩ := Option.bind_eq_some_iff.1 reached
        have mem := (child?_eq_some_iff distinct).1 listed
        obtain ⟨entered, later⟩ := forall_front_cons_iff.1 fronts
        rw [List.append_nil] at entered
        rw [if_pos entered]
        refine .inr (mem_walkEntries_iff.2 ⟨name, child, mem, (ih _ mem).2 ⟨rest, ?_, below, ?_⟩⟩)
        · rw [← List.append_cons]
        · simpa only [List.append_assoc, List.singleton_append] using later

/-- What is met on a walk through a legal tree is what is found in it, unless a directory on the way
is not entered. -/
theorem mem_walk_iff (legal : tree.IsLegal) :
    (way, found) ∈ tree.walk enters [] ↔ tree.get? way = some found ∧
      ∀ front, front <+: way → front ≠ way → enters front = true := by
  simp [mem_walk_iff_of_front legal]

end SceneAudit.FileTree
