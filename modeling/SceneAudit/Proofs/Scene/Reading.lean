import SceneAudit.Analysis
import SceneAudit.Proofs.Tree.Draft

/-!
# What reading a scene gives

Every node that is read from a scene has a name, so that the path index of a valid scene is the one
of a well-formed tree without empty names.

## Main results

* `SceneFile.name_ne_empty`: every node that is read has a name.
* `SceneFile.newline_not_mem_name`: no such name has a line feed in it.
* `SceneFile.kind_of_mem_issues`: what can be reported of the declarations in a scene.
* `Analysis.verdict_eq_valid_iff`: a valid scene has a tree.
* `Analysis.kind_of_mem_sceneDiagnostics`: the kinds of the findings about a scene itself.
* `Analysis.isWellFormed_of_ofText`: the tree of a scene is well-formed, and its nodes have names.
* `Analysis.newline_not_mem_canonicalPath`: no canonical path has a line feed in it.
-/

namespace SceneAudit

open Scene

namespace Scene

variable {entries : List (Nat × Entry)} {resources : List (String × String)}

/-- Every entry is the one on some line. -/
theorem exists_ofLine_of_mem_entries {inside : Bool} {n : Nat} {lines : List (List Char)}
    {numbered : Nat × Entry} (h : numbered ∈ Scene.entries inside n lines) :
    ∃ line ∈ lines, Entry.ofLine? line = some numbered.2 := by
  fun_induction Scene.entries inside n lines with
  | case1 => contradiction
  | case2 n line rest ih =>
    obtain ⟨other, mem, found⟩ := ih h
    exact ⟨other, List.mem_cons_of_mem line mem, found⟩
  | case3 n line rest entry ih =>
    rcases List.mem_append.1 h with here | later
    · rw [Option.mem_toList, Option.map_eq_some_iff] at here
      obtain ⟨found, eq, rfl⟩ := here
      exact ⟨line, List.mem_cons_self, eq⟩
    · obtain ⟨other, mem, found⟩ := ih later
      exact ⟨other, List.mem_cons_of_mem line mem, found⟩

/-- Every declared node is the one that the header of some section declares. -/
theorem exists_ofHeader_of_mem_declarations {record : NodeRecord} {resource : Option String}
    (h : Declaration.node record resource ∈ declarations entries) :
    ∃ header line, (line, Entry.opening header) ∈ entries ∧
      NodeRecord.ofHeader? header line = some record := by
  have weaken {entry : Nat × Entry} {rest : List (Nat × Entry)} :
      (∃ header line, (line, Entry.opening header) ∈ rest ∧
        NodeRecord.ofHeader? header line = some record) →
      ∃ header line, (line, Entry.opening header) ∈ entry :: rest ∧
        NodeRecord.ofHeader? header line = some record :=
    fun ⟨header, line, mem, eq⟩ => ⟨header, line, List.mem_cons_of_mem entry mem, eq⟩
  fun_induction declarations entries with
  | case1 => contradiction
  | case2 n header rest _ found eq ih =>
    rcases List.mem_cons.1 h with same | h
    · rw [Declaration.node.injEq] at same
      exact ⟨header, n, List.mem_cons_self, same.1 ▸ eq⟩
    · exact weaken (ih h)
  | case3 n header rest _ eq ih => exact weaken (ih (by simpa using h))
  | case4 n header rest _ ih => exact weaken (ih h)
  | case5 n fault rest ih => exact weaken (ih (by simpa using h))
  | case6 n text rest ih => exact weaken (ih h)

/-- A value in the header on a line is made of characters of the line. -/
theorem Entry.subset_of_ofLine? {line : List Char} {header : Header}
    (h : ofLine? line = some (.opening header)) {key value : String}
    (bound : header.value? key = some value) : value.toList ⊆ line := by
  unfold ofLine? at h
  dsimp only at h
  split at h
  · contradiction
  · split at h
    · rename_i found eq
      obtain rfl := Entry.opening.inj (Option.some.inj h)
      exact List.Subset.trans (Header.subset_of_ofLine eq bound) (Text.trim_subset line)
    · exact absurd (Option.some.inj h) (by simp)
    · exact absurd (Option.some.inj h) (by simp)

end Scene

/-- Every node that is read from a scene is declared by a header on one of its lines. -/
theorem SceneFile.exists_ofHeader_of_mem_records {text : String} {record : NodeRecord}
    (h : record ∈ (SceneFile.read text).records) :
    ∃ line ∈ Text.lines text.toList, ∃ header declared n,
      Entry.ofLine? line = some (.opening header) ∧
      NodeRecord.ofHeader? header n = some declared ∧ declared.name = record.name := by
  obtain ⟨declaration, declared, eq⟩ := List.mem_filterMap.1 h
  cases declaration with
  | node found resource =>
    obtain ⟨header, n, listed, source⟩ := exists_ofHeader_of_mem_declarations declared
    obtain ⟨line, mem, entry⟩ := exists_ofLine_of_mem_entries listed
    rw [Declaration.record?, Option.some.injEq] at eq
    exact ⟨line, mem, header, found, n, entry, source, eq ▸ rfl⟩
  | broken | unnamed => contradiction

/-- Every node that is read from a scene has a name. -/
theorem SceneFile.name_ne_empty {text : String} :
    ∀ record ∈ (SceneFile.read text).records, record.name ≠ "" := by
  intro record mem
  obtain ⟨line, -, header, declared, n, -, source, name⟩ := exists_ofHeader_of_mem_records mem
  exact name ▸ (NodeRecord.ofHeader_eq_some_iff.1 source).2.1

/-- No node that is read from a scene has a line feed in its name. -/
theorem SceneFile.newline_not_mem_name {text : String} :
    ∀ record ∈ (SceneFile.read text).records, '\n' ∉ record.name.toList := by
  intro record mem inside
  obtain ⟨line, listed, header, declared, n, entry, source, name⟩ :=
    exists_ofHeader_of_mem_records mem
  refine Text.newline_not_mem_of_mem_lines listed ?_
  have value := (NodeRecord.ofHeader_eq_some_iff.1 source).1
  exact Entry.subset_of_ofLine? entry (name ▸ value) inside

/-- What is reported of the declarations in a scene is that one is left out or that the script of a
node is not declared. -/
theorem SceneFile.kind_of_mem_issues {text : String} {issue : Issue}
    (h : issue ∈ (SceneFile.read text).issues) :
    issue.kind = .malformedDeclaration ∨ issue.kind = .scriptResourceUnresolved := by
  obtain ⟨declaration, -, eq⟩ := List.mem_filterMap.1 h
  unfold Declaration.issue? at eq
  split at eq
  · split at eq
    · contradiction
    · exact .inr (Option.some.inj eq ▸ rfl)
  · contradiction
  · exact .inl (Option.some.inj eq ▸ rfl)
  · exact .inl (Option.some.inj eq ▸ rfl)

namespace Analysis

variable {analysis : Analysis} {scene text : String} {tree : SceneTree}
  {error : StructuralError}

/-- A valid scene has a tree. -/
theorem verdict_eq_valid_iff :
    analysis.verdict = .valid ↔ ∃ tree, analysis.outcome = .ok tree := by
  rw [verdict]
  split
  · rename_i tree formed
    simp [formed]
  · rename_i error fails
    simp [fails]

/-- A scene that is not valid has an error, which the verdict names. -/
theorem verdict_eq_invalid_iff {violation : Diagnostic.Kind} :
    analysis.verdict = .invalid violation ↔
      ∃ error, analysis.outcome = .error error ∧ error.kind = violation := by
  rw [verdict]
  split
  · rename_i tree formed
    simp [formed]
  · rename_i error fails
    simp [fails]

theorem index?_of_ok (formed : analysis.outcome = .ok tree) :
    analysis.index? = some (PathIndex.ofTree tree) := by
  rw [index?, tree?, formed]
  rfl

theorem index?_of_error (fails : analysis.outcome = .error error) : analysis.index? = none := by
  rw [index?, tree?, fails]
  rfl

theorem error?_of_ok (formed : analysis.outcome = .ok tree) : analysis.error? = none := by
  rw [error?, formed]

theorem error?_of_error (fails : analysis.outcome = .error error) :
    analysis.error? = some error := by
  rw [error?, fails]

theorem canonicalPaths_of_ok (formed : analysis.outcome = .ok tree) :
    analysis.canonicalPaths = (PathIndex.ofTree tree).paths := by
  rw [canonicalPaths, index?_of_ok formed]
  rfl

theorem canonicalPaths_of_error (fails : analysis.outcome = .error error) :
    analysis.canonicalPaths = [] := by
  rw [canonicalPaths, index?_of_error fails]
  rfl

/-- The tree of a scene is well-formed, and its nodes have names. -/
theorem isWellFormed_of_ofText (h : (ofText scene text).outcome = .ok tree) :
    tree.IsWellFormed ∧ tree.IsNamed :=
  ⟨SceneTree.isWellFormed_of_ofRecords h,
    SceneTree.isNamed_of_ofRecords h SceneFile.name_ne_empty⟩

/-- No canonical path has a line feed in it. -/
theorem newline_not_mem_canonicalPath {path : String}
    (h : path ∈ (ofText scene text).canonicalPaths) : '\n' ∉ path.toList := by
  intro inside
  cases outcome : (ofText scene text).outcome with
  | error error =>
    rw [canonicalPaths_of_error outcome] at h
    contradiction
  | ok tree =>
    obtain ⟨shape, named⟩ := isWellFormed_of_ofText outcome
    rw [canonicalPaths_of_ok outcome, PathIndex.paths_ofTree shape named] at h
    obtain ⟨id, -, rfl⟩ := List.mem_map.1 h
    rcases Text.mem_joinSegments inside with slash | ⟨name, onWay, within⟩
    · exact absurd slash (by decide)
    · obtain ⟨node, lt, rfl⟩ := SceneTree.exists_of_mem_way onWay
      obtain ⟨record, mem, eq⟩ := SceneTree.exists_name_of_ofRecords outcome lt
      exact SceneFile.newline_not_mem_name record mem (eq ▸ within)

/-- The findings about a scene itself are about its tree, about its declarations, and about nodes
that name no parent. -/
theorem kind_of_mem_sceneDiagnostics {diagnostic : Diagnostic}
    (h : diagnostic ∈ (ofText scene text).sceneDiagnostics) :
    diagnostic.kind.isStructural = true ∨ diagnostic.kind = .malformedDeclaration ∨
      diagnostic.kind = .scriptResourceUnresolved ∨ diagnostic.kind = .implicitRootChild := by
  rw [sceneDiagnostics, List.mem_append, List.mem_append, List.mem_map, List.mem_map,
    Option.mem_toList, Option.map_eq_some_iff] at h
  rcases h with (⟨issue, mem, rfl⟩ | ⟨record, -, rfl⟩) | ⟨error, -, rfl⟩
  · rcases SceneFile.kind_of_mem_issues mem with eq | eq
    · exact .inr (.inl eq)
    · exact .inr (.inr (.inl eq))
  · exact .inr (.inr (.inr rfl))
  · exact .inl error.isStructural_kind

/-- No finding about a scene itself is one about a reference. -/
theorem kind_ne_unresolvedReference {diagnostic : Diagnostic}
    (h : diagnostic ∈ (ofText scene text).sceneDiagnostics) :
    diagnostic.kind ≠ .unresolvedReference := by
  intro same
  rcases kind_of_mem_sceneDiagnostics h with kind | kind | kind | kind
  · rw [same] at kind
    contradiction
  · exact absurd (same.symm.trans kind) (by decide)
  · exact absurd (same.symm.trans kind) (by decide)
  · exact absurd (same.symm.trans kind) (by decide)

end Analysis

end SceneAudit
