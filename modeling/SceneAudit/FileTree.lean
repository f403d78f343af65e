/-!
# Trees of files

A tree of files is a file or a directory of named trees. A name is looked up by its first entry.
On a walk through a tree all files and directories in it are met, with the names on the way to each
of them, except for what is below a directory that is not entered.

## Main definitions

* `FileTree`: files and directories.
* `FileTree.get?`: what is found on the way along some names.
* `FileTree.put`, `FileTree.remove`: a tree with one place changed.
* `FileTree.walk`: what is met on a walk through a tree.

## Main results

* `FileTree.get?_put`: the place that was changed holds what was put there.
* `FileTree.mem_walkEntries_iff`: what is met in the entries of a directory.
-/

namespace SceneAudit

/-- A file or a directory of named trees. -/
inductive FileTree where
  | file (content : ByteArray)
  | directory (entries : List (String × FileTree))

namespace FileTree

/-- The entries of a directory. A file has none. -/
def entries : FileTree → List (String × FileTree)
  | file _ => []
  | directory entries => entries

/-- Whether the tree is a directory. -/
def isDirectory : FileTree → Bool
  | file _ => false
  | directory _ => true

/-- The entry of the given name. -/
def child? (tree : FileTree) (name : String) : Option FileTree :=
  (tree.entries.find? fun entry => entry.1 == name).map Prod.snd

/-- What is found on the way along the given names. -/
def get? (tree : FileTree) : List String → Option FileTree
  | [] => some tree
  | name :: names => (tree.child? name).bind (get? · names)

/-- The directory with its entry of the given name replaced by `subtree?`, or taken away. -/
def setChild (tree : FileTree) (name : String) (subtree? : Option FileTree) : FileTree :=
  let others := tree.entries.filter fun entry => entry.1 ≠ name
  directory ((subtree?.map fun entry => (name, entry)).toList ++ others)

/-- The tree with `new` at the end of the way along the given names. Directories on the way are
made where there are none. -/
def put (tree : FileTree) (names : List String) (new : FileTree) : FileTree :=
  match names with
  | [] => new
  | name :: names =>
    tree.setChild name (some (put ((tree.child? name).getD (directory [])) names new))

/-- The tree without what is at the end of the way along the given names. -/
def remove (tree : FileTree) : List String → FileTree
  | [] => tree
  | [name] => tree.setChild name none
  | name :: names =>
    match tree.child? name with
    | some entry => tree.setChild name (some (remove entry names))
    | none => tree

/-- The tree with a directory at the end of the way along the given names. A directory that is
already there stays as it is. -/
def makeDirectory (tree : FileTree) (names : List String) : FileTree :=
  match tree.get? names with
  | some (directory _) => tree
  | _ => tree.put names (directory [])

mutual

/-- What is met on a walk through a tree that lies at the end of a way, each with its own way: the
tree itself and, if it is a directory that is entered, what is met in its entries. -/
def walk (enters : List String → Bool) (way : List String) :
    FileTree → List (List String × FileTree)
  | file content => [(way, file content)]
  | directory entries =>
    (way, directory entries) :: if enters way then walkEntries enters way entries else []

/-- What is met in some entries of a directory at the end of a way. -/
def walkEntries (enters : List String → Bool) (way : List String) :
    List (String × FileTree) → List (List String × FileTree)
  | [] => []
  | (name, tree) :: entries =>
    walk enters (way ++ [name]) tree ++ walkEntries enters way entries

end

/-! ### Places in a tree -/

@[simp]
theorem child?_setChild (tree : FileTree) (name : String) (entry : FileTree) :
    (tree.setChild name (some entry)).child? name = some entry := by
  simp [setChild, child?, entries]

/-- The place that was changed holds what was put there. -/
theorem get?_put (tree : FileTree) (names : List String) (new : FileTree) :
    (tree.put names new).get? names = some new := by
  induction names generalizing tree with
  | nil => rfl
  | cons name names ih => simp [put, get?, ih]

/-- In the entries of a directory is met what is met in one of them. -/
theorem mem_walkEntries_iff {enters : List String → Bool} {way : List String}
    {entries : List (String × FileTree)} {met : List String × FileTree} :
    met ∈ walkEntries enters way entries ↔
      ∃ name tree, (name, tree) ∈ entries ∧ met ∈ walk enters (way ++ [name]) tree := by
  induction entries with
  | nil => simp [walkEntries]
  | cons entry entries ih =>
    obtain ⟨name, tree⟩ := entry
    rw [walkEntries, List.mem_append, ih]
    constructor
    · rintro (here | ⟨other, child, mem, inside⟩)
      · exact ⟨name, tree, List.mem_cons_self, here⟩
      · exact ⟨other, child, List.mem_cons_of_mem _ mem, inside⟩
    · rintro ⟨other, child, mem, inside⟩
      rcases List.mem_cons.1 mem with same | later
      · obtain ⟨rfl, rfl⟩ := Prod.mk.inj same
        exact .inl inside
      · exact .inr ⟨other, child, later, inside⟩

end FileTree

end SceneAudit
