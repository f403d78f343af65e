import SceneAudit.Scene.Header

/-!
# Node records

A `node` section of a scene file declares one node: its name, its type, the parent it names and
the script it attaches.

## Main definitions

* `Scene.ParentRef`: the parent that a declaration names.
* `Scene.NodeRecord`: one declared node.
* `Scene.NodeRecord.ofHeader?`: the node that a header declares, unless it has no name.
* `Scene.NodeRecord.header`: the header that declares a node.
-/

namespace SceneAudit.Scene

/-- The parent that a node declaration names. -/
inductive ParentRef where
  /-- The declaration has no `parent` attribute. -/
  | absent
  /-- The root, written as a single dot. -/
  | root
  /-- Any other node, by its path from the root or by its name. -/
  | node (path : String)
  deriving DecidableEq, Repr

/-- How the root is written as a parent. -/
def rootMark : String := "."

namespace ParentRef

/-- The parent named by a `parent` attribute, if there is one. -/
def ofValue? : Option String → ParentRef
  | none => absent
  | some path => if path = rootMark then root else node path

/-- The `parent` attribute that names a parent. -/
def value? : ParentRef → Option String
  | absent => none
  | root => some rootMark
  | node path => some path

end ParentRef

/-- A node as a scene file declares it. -/
structure NodeRecord where
  name : String
  /-- The type of the node; an instance of another scene has none. -/
  kind : Option String
  parent : ParentRef
  /-- The path of the attached script, as written in the file. -/
  script : Option String
  /-- The line of the header, counted from one. -/
  line : Nat
  deriving DecidableEq, Repr

namespace NodeRecord

/-- The node that a header declares on the given line. It needs a name that is not empty. -/
def ofHeader? (header : Header) (line : Nat) : Option NodeRecord :=
  match header.value? "name" with
  | none => none
  | some name =>
    if name = "" then none
    else
      some {
        name
        kind := header.value? "type"
        parent := ParentRef.ofValue? (header.value? "parent")
        script := none
        line }

/-- The header that declares a node: its name, its type and its parent, where it has them. -/
def header (record : NodeRecord) : Header where
  tag := "node"
  attributes :=
    ("name", record.name) ::
      ((record.kind.map fun kind => ("type", kind)).toList ++
        (record.parent.value?.map fun path => ("parent", path)).toList)

/-- A header declares a node if it gives it a name, and it gives it all but a script. -/
theorem ofHeader_eq_some_iff {header : Header} {line : Nat} {record : NodeRecord} :
    ofHeader? header line = some record ↔
      header.value? "name" = some record.name ∧ record.name ≠ "" ∧
        record.kind = header.value? "type" ∧
        record.parent = ParentRef.ofValue? (header.value? "parent") ∧
        record.script = none ∧ record.line = line := by
  obtain ⟨name, kind, parent, script, written⟩ := record
  rw [ofHeader?]
  split
  · rename_i missing
    simp [missing]
  · rename_i value found
    split
    · rename_i empty
      simp only [reduceCtorEq, found, Option.some.injEq, false_iff, not_and]
      exact fun same ne => absurd (same ▸ empty) ne
    · rename_i nonempty
      simp only [Option.some.injEq, mk.injEq, found]
      constructor
      · rintro ⟨rfl, rfl, rfl, rfl, rfl⟩
        exact ⟨rfl, nonempty, rfl, rfl, rfl, rfl⟩
      · rintro ⟨rfl, -, rfl, rfl, rfl, rfl⟩
        exact ⟨rfl, rfl, rfl, rfl, rfl⟩

/-- **The header of a node declares it.** Only the script, which a header does not carry, and the
line, which is where the header stands, are supplied anew. -/
theorem ofHeader_header (record : NodeRecord) (line : Nat) (named : record.name ≠ "")
    (path : ∀ p, record.parent = .node p → p ≠ rootMark) :
    ofHeader? record.header line = some { record with script := none, line } := by
  obtain ⟨name, kind, parent, script, written⟩ := record
  cases kind <;> cases parent <;>
    simp_all [ofHeader?, header, Header.value?, ParentRef.value?, ParentRef.ofValue?]

end NodeRecord

end SceneAudit.Scene
