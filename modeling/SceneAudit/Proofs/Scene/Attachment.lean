import SceneAudit.Proofs.Scene.Positions

/-!
# Which script a node has

The script of a node is decided twice over by what stands last: by the last property of its section
that names a resource, and by the last declaration of that resource in the whole file. Both are
searches along the lines, of which the first ends at the next header or fault; so there is one
account of a search for the last, and the two are cases of it.

## Main definitions

* `Scene.FindsLast`: a search for what is found last before the search ends.
* `Scene.EndsSection`, `Scene.InSection`: the lines of a section.
* `Scene.SectionAttaches`: the resource that a section attaches.
* `Scene.DeclaresResource`, `Scene.IsPathOf`: the path that a file declares for a resource.

## Main results

* `Scene.FindsLast.eq_none_iff`, `Scene.FindsLast.eq_some_iff`: what a search finds.
* `Scene.sectionResource?_eq_some_iff`, `Scene.resourcePath?_eq_some_iff`: the two searches.
* `Scene.mem_resources_iff`: the resources of a file are those that its lines declare.
* `SceneFile.script_of_mem_records`: the script of a node from the two searches.
* `SceneFile.pairwise_line_issues`: issues stand on different lines, in the order of the lines.
* `SceneFile.scripts_read`: which script a node has, and which resources are unresolved.
-/

namespace SceneAudit

open Text

namespace Scene

/-! ### Searching for the last -/

section

variable {α : Type} {length : Nat} {stops : Nat → Prop} {found last : Nat → Option α} {i j : Nat}

/-- Position `j` is reached from position `i` if no position on the way ends the search, the two
included. -/
def Reaches (stops : Nat → Prop) (i j : Nat) : Prop :=
  i ≤ j ∧ ∀ k, i ≤ k → k ≤ j → ¬stops k

theorem reaches_iff : Reaches stops i j ↔ ¬stops i ∧ (j = i ∨ Reaches stops (i + 1) j) := by
  constructor
  · rintro ⟨le, free⟩
    refine ⟨free i (Nat.le_refl i) le, ?_⟩
    rcases Nat.eq_or_lt_of_le le with rfl | lt
    · exact .inl rfl
    · exact .inr ⟨lt, fun k below => free k (Nat.le_of_succ_le below)⟩
  · rintro ⟨free, rfl | ⟨lt, later⟩⟩
    · exact ⟨Nat.le_refl _, fun k below above => Nat.le_antisymm above below ▸ free⟩
    · refine ⟨Nat.le_of_succ_le lt, fun k below above => ?_⟩
      rcases Nat.eq_or_lt_of_le below with rfl | more
      · exact free
      · exact later k more above

/-- `last i` is what is found last from position `i` on, before the search ends. -/
structure FindsLast (length : Nat) (stops : Nat → Prop) (found last : Nat → Option α) : Prop where
  behind : ∀ i, length ≤ i → found i = none ∧ last i = none
  ends : ∀ i, stops i → last i = none
  step : ∀ i, ¬stops i → last i = (last (i + 1)).or (found i)

namespace FindsLast

theorem eq_none_iff (finds : FindsLast length stops found last) :
    last i = none ↔ ∀ j, Reaches stops i j → found j = none := by
  induction i using position_induction length with
  | behind i le =>
    exact iff_of_true (finds.behind i le).2 fun j reached =>
      (finds.behind j (Nat.le_trans le reached.1)).1
  | position i lt ih =>
    by_cases stop : stops i
    · exact iff_of_true (finds.ends i stop) fun j reached => absurd stop (reaches_iff.1 reached).1
    · rw [finds.step i stop, Option.or_eq_none_iff, ih]
      constructor
      · rintro ⟨later, here⟩ j reached
        rcases (reaches_iff.1 reached).2 with rfl | more
        · exact here
        · exact later j more
      · intro none
        exact ⟨fun j more => none j (reaches_iff.2 ⟨stop, .inr more⟩),
          none i (reaches_iff.2 ⟨stop, .inl rfl⟩)⟩

theorem eq_some_iff (finds : FindsLast length stops found last) {a : α} :
    last i = some a ↔ ∃ j, Reaches stops i j ∧ found j = some a ∧
      ∀ k, j < k → Reaches stops i k → found k = none := by
  induction i using position_induction length with
  | behind i le =>
    rw [(finds.behind i le).2]
    refine iff_of_false nofun fun ⟨j, reached, here, _⟩ => ?_
    rw [(finds.behind j (Nat.le_trans le reached.1)).1] at here
    contradiction
  | position i lt ih =>
    by_cases stop : stops i
    · rw [finds.ends i stop]
      exact iff_of_false nofun fun ⟨j, reached, _⟩ => (reaches_iff.1 reached).1 stop
    · rw [finds.step i stop, Option.or_eq_some_iff, ih, finds.eq_none_iff]
      constructor
      · rintro (⟨j, reached, here, none⟩ | ⟨none, here⟩)
        · refine ⟨j, reaches_iff.2 ⟨stop, .inr reached⟩, here, fun k lt' more => ?_⟩
          rcases (reaches_iff.1 more).2 with rfl | more
          · exact absurd reached.1 (by omega)
          · exact none k lt' more
        · refine ⟨i, reaches_iff.2 ⟨stop, .inl rfl⟩, here, fun k lt' more => ?_⟩
          rcases (reaches_iff.1 more).2 with rfl | more
          · exact absurd lt' (Nat.lt_irrefl _)
          · exact none k more
      · rintro ⟨j, reached, here, none⟩
        rcases (reaches_iff.1 reached).2 with rfl | more
        · exact .inr ⟨fun k later => none k later.1 (reaches_iff.2 ⟨stop, .inr later⟩), here⟩
        · exact .inl ⟨j, more, here, fun k lt' later =>
            none k lt' (reaches_iff.2 ⟨stop, .inr later⟩)⟩

end FindsLast

end

/-! ### Sections -/

variable {lines : List (List Char)} {i j : Nat} {id path : String}

/-- The line at position `i` ends the section above it: it stands outside of quotations, and it is a
header or should be one. -/
def EndsSection (lines : List (List Char)) (i : Nat) : Prop :=
  (∃ header, ReadsAt lines i (.ok (some header))) ∨ ∃ fault, ReadsAt lines i (.error fault)

/-- The line at position `j` stands in the section that the line at position `i` opens. -/
def InSection (lines : List (List Char)) (i j : Nat) : Prop :=
  i < j ∧ ∀ k, i < k → k ≤ j → ¬EndsSection lines k

theorem endsSection_iff :
    EndsSection lines i ↔ (∃ header, entryAt? lines i = some (.opening header)) ∨
      ∃ fault, entryAt? lines i = some (.broken fault) := by
  simp only [entryAt?_eq_opening_iff, entryAt?_eq_broken_iff, EndsSection]

theorem lt_length_of_endsSection (h : EndsSection lines i) : i < lines.length := by
  refine Nat.lt_of_not_le fun behind => ?_
  rw [endsSection_iff, entryAt?_of_length_le behind] at h
  simp at h

instance (lines : List (List Char)) (i : Nat) : Decidable (EndsSection lines i) :=
  decidable_of_iff
    ((match entryAt? lines i with
      | some (.opening _) | some (.broken _) => true
      | _ => false) = true)
    (by rw [endsSection_iff]; split <;> simp_all)

instance (lines : List (List Char)) (i j : Nat) : Decidable (InSection lines i j) :=
  decidable_of_iff (i < j ∧ ∀ k < j + 1, i < k → ¬EndsSection lines k)
    (and_congr_right fun _ =>
      ⟨fun free k below above => free k (Nat.lt_succ_of_le above) below,
        fun free k above below => free k below (Nat.le_of_lt_succ above)⟩)

/-- The resource that the line at position `i` names as a script, unless it stands in a
quotation. -/
def attachedAt? (lines : List (List Char)) (i : Nat) : Option String :=
  if IsOutside lines i then lines[i]?.bind fun line => attachedResource? (trim line) else none

/-- The last line of a section that names a resource as a script names the given one. -/
def SectionAttaches (lines : List (List Char)) (i : Nat) (id : String) : Prop :=
  ∃ j, InSection lines i j ∧ attachedAt? lines j = some id ∧
    ∀ k, j < k → InSection lines i k → attachedAt? lines k = none

/-- Only a property attaches a resource. -/
private theorem head?_of_attachedResource? {text : List Char}
    (h : attachedResource? text = some id) : text.head? = some 's' := by
  obtain ⟨blanks, rest, value, rfl, -, -⟩ := exists_of_attachedResource? h
  have key : "script".toList = 's' :: "cript".toList := by decide +kernel
  rw [key]
  rfl

private theorem attachedAt?_of_property {text : List Char}
    (tells : entryAt? lines i = some (.property text)) :
    attachedAt? lines i = attachedResource? text := by
  obtain ⟨outside, line, found, tells⟩ := entryAt?_eq_some_iff.1 tells
  rw [attachedAt?, if_pos outside, found, Option.bind_some,
    (Entry.ofLine?_eq_property_iff.1 tells).2.2]

theorem attachedAt?_of_none (silent : entryAt? lines i = none) : attachedAt? lines i = none := by
  refine Option.eq_none_iff_forall_ne_some.2 fun id attached => ?_
  rw [attachedAt?] at attached
  split at attached
  · rename_i outside
    obtain ⟨line, found, named⟩ := Option.bind_eq_some_iff.1 attached
    have head := head?_of_attachedResource? named
    have none : Header.ofLine line = .ok none := by
      refine Header.ofLine_of_head? ?_
      rw [head]
      decide
    have tells : ¬SaysNothing line := by
      rintro (empty | comment)
      · rw [empty] at head
        contradiction
      · rw [comment] at head
        contradiction
    have property := entryAt?_eq_some_iff.2
      ⟨outside, line, found, Entry.ofLine?_eq_property_iff.2 ⟨none, tells, rfl⟩⟩
    rw [silent] at property
    contradiction
  · contradiction

/-- The properties of a section are searched for the last that attaches a resource. -/
theorem findsLast_sectionResource? (lines : List (List Char)) :
    FindsLast lines.length (EndsSection lines) (attachedAt? lines)
      fun i => sectionResource? (entriesFrom lines i) where
  behind i le := by
    rw [entriesFrom_of_length_le le]
    exact ⟨attachedAt?_of_none (entryAt?_of_length_le le), rfl⟩
  ends i stop := by
    rw [entriesFrom_eq]
    rcases endsSection_iff.1 stop with ⟨header, tells⟩ | ⟨fault, tells⟩
    · rw [tells]
      rfl
    · rw [tells]
      rfl
  step i goes := by
    rw [entriesFrom_eq]
    cases tells : entryAt? lines i with
    | none =>
      rw [attachedAt?_of_none tells, Option.or_none]
      rfl
    | some entry =>
      cases entry with
      | opening header => exact absurd (endsSection_iff.2 (.inl ⟨header, tells⟩)) goes
      | broken fault => exact absurd (endsSection_iff.2 (.inr ⟨fault, tells⟩)) goes
      | property text =>
        rw [attachedAt?_of_property tells]
        rfl

private theorem sectionResource?_eq_none_iff :
    sectionResource? (entriesFrom lines (i + 1)) = none ↔
      ∀ j, InSection lines i j → attachedAt? lines j = none :=
  (findsLast_sectionResource? lines).eq_none_iff

theorem sectionResource?_eq_some_iff :
    sectionResource? (entriesFrom lines (i + 1)) = some id ↔ SectionAttaches lines i id :=
  (findsLast_sectionResource? lines).eq_some_iff

/-! ### Resources -/

/-- The line at position `i` declares the path of a resource. -/
def DeclaresResource (lines : List (List Char)) (i : Nat) (id path : String) : Prop :=
  ∃ header, ReadsAt lines i (.ok (some header)) ∧ header.tag = "ext_resource" ∧
    header.value? "id" = some id ∧ header.value? "path" = some path

/-- The last declaration of a resource declares the given path. -/
def IsPathOf (lines : List (List Char)) (id path : String) : Prop :=
  ∃ i, DeclaresResource lines i id path ∧
    ∀ j, i < j → ∀ other, ¬DeclaresResource lines j id other

private theorem Entry.resource?_eq_some_iff {entry : Entry} {resource : String × String} :
    entry.resource? = some resource ↔ ∃ header, entry = .opening header ∧
      header.tag = "ext_resource" ∧ header.value? "id" = some resource.1 ∧
      header.value? "path" = some resource.2 := by
  cases entry with
  | broken fault => simp [resource?]
  | property text => simp [resource?]
  | opening header =>
    rw [resource?]
    split
    · rename_i tag
      split
      · rename_i identifier path eq eq'
        simp [tag, eq, eq', Prod.ext_iff]
      · rename_i missing
        refine iff_of_false (Option.some_ne_none _).symm ?_
        rintro ⟨_, same, -, eq, eq'⟩
        obtain rfl := Entry.opening.inj same
        exact missing _ _ eq eq'
    · rename_i other
      simp [other]

/-- The resource that the line at position `i` declares. -/
def resourceAt? (lines : List (List Char)) (i : Nat) : Option (String × String) :=
  (entryAt? lines i).bind Entry.resource?

theorem resourceAt?_eq_some_iff :
    resourceAt? lines i = some (id, path) ↔ DeclaresResource lines i id path := by
  simp only [resourceAt?, Option.bind_eq_some_iff, DeclaresResource, ← entryAt?_eq_opening_iff]
  constructor
  · rintro ⟨entry, tells, declared⟩
    obtain ⟨header, rfl, bound⟩ := Entry.resource?_eq_some_iff.1 declared
    exact ⟨header, tells, bound⟩
  · rintro ⟨header, tells, bound⟩
    exact ⟨_, tells, Entry.resource?_eq_some_iff.2 ⟨header, rfl, bound⟩⟩

theorem resourceAt?_of_length_le (le : lines.length ≤ i) : resourceAt? lines i = none := by
  rw [resourceAt?, entryAt?_of_length_le le, Option.bind_none]

theorem resources_cons (n : Nat) (entry : Entry) (rest : List (Nat × Entry)) :
    resources ((n, entry) :: rest) = entry.resource?.toList ++ resources rest := by
  cases declared : entry.resource? <;> simp [resources, declared]

theorem resources_entriesFrom (lines : List (List Char)) (i : Nat) :
    resources (entriesFrom lines i) =
      (resourceAt? lines i).toList ++ resources (entriesFrom lines (i + 1)) := by
  rw [entriesFrom_eq, resourceAt?]
  cases entryAt? lines i with
  | none => rfl
  | some entry => exact resources_cons (i + 1) entry _

theorem mem_resources_iff :
    (id, path) ∈ resources (entries false 1 lines) ↔ ∃ i, DeclaresResource lines i id path := by
  rw [collect_eq_filterMap rfl (resources_entriesFrom lines)]
  simp only [mem_filterMap_range_iff fun _ => resourceAt?_of_length_le, resourceAt?_eq_some_iff]

/-- The path that the line at position `i` declares for a resource. -/
def pathAt? (lines : List (List Char)) (id : String) (i : Nat) : Option String :=
  (resourceAt? lines i).bind fun resource => if resource.1 = id then some resource.2 else none

theorem pathAt?_eq_some_iff :
    pathAt? lines id i = some path ↔ DeclaresResource lines i id path := by
  rw [pathAt?, ← resourceAt?_eq_some_iff, Option.bind_eq_some_iff]
  constructor
  · rintro ⟨⟨other, path⟩, declared, found⟩
    split at found
    · rename_i same
      exact same ▸ Option.some.inj found ▸ declared
    · contradiction
  · exact fun declared => ⟨_, declared, if_pos rfl⟩

theorem pathAt?_of_length_le (le : lines.length ≤ i) : pathAt? lines id i = none := by
  rw [pathAt?, resourceAt?_of_length_le le, Option.bind_none]

private theorem resourcePath?_cons (resource : String × String) (rest : List (String × String))
    (id : String) :
    resourcePath? (resource :: rest) id =
      (resourcePath? rest id).or (if resource.1 = id then some resource.2 else none) := by
  rw [resourcePath?, resourcePath?, List.findRev?_eq_find?_reverse,
    List.findRev?_eq_find?_reverse, List.reverse_cons, List.find?_append, Option.map_or]
  congr 1
  by_cases same : resource.1 = id <;> simp [same]

/-- The headers of a file are searched for the last that declares the path of a resource. -/
theorem findsLast_resourcePath? (lines : List (List Char)) (id : String) :
    FindsLast lines.length (fun _ => False) (pathAt? lines id)
      fun i => resourcePath? (resources (entriesFrom lines i)) id where
  behind i le := by
    rw [entriesFrom_of_length_le le, pathAt?_of_length_le le]
    exact ⟨rfl, rfl⟩
  ends i stop := stop.elim
  step i _ := by
    rw [resources_entriesFrom, pathAt?]
    cases resourceAt? lines i with
    | none => rw [Option.bind_none, Option.or_none]; rfl
    | some resource => exact resourcePath?_cons resource _ id

theorem reaches_false : Reaches (fun _ => False) i j ↔ i ≤ j :=
  ⟨And.left, fun le => ⟨le, fun _ _ _ => id⟩⟩

theorem resourcePath?_eq_none_iff :
    resourcePath? (resources (entries false 1 lines)) id = none ↔
      ∀ i path, ¬DeclaresResource lines i id path := by
  have search : resourcePath? (resources (entries false 1 lines)) id = none ↔ _ :=
    (findsLast_resourcePath? lines id).eq_none_iff (i := 0)
  simp only [search, reaches_false, Nat.zero_le, forall_const, Option.eq_none_iff_forall_ne_some,
    ne_eq, pathAt?_eq_some_iff]

theorem resourcePath?_eq_some_iff :
    resourcePath? (resources (entries false 1 lines)) id = some path ↔ IsPathOf lines id path := by
  have search : resourcePath? (resources (entries false 1 lines)) id = some path ↔ _ :=
    (findsLast_resourcePath? lines id).eq_some_iff (i := 0)
  simp only [search, reaches_false, Nat.zero_le, forall_const, true_and,
    Option.eq_none_iff_forall_ne_some, ne_eq, pathAt?_eq_some_iff, IsPathOf]

/-! ### Nodes and their scripts -/

/-- The line at position `i` declares a node with the given name. -/
def DeclaresNode (lines : List (List Char)) (i : Nat) (name : String) : Prop :=
  ∃ header, ReadsAt lines i (.ok (some header)) ∧ header.tag = "node" ∧
    header.value? "name" = some name

private theorem Entry.declaration?_eq_node_iff {entry : Entry} {n : Nat} {record : NodeRecord}
    {attached resource : Option String} :
    entry.declaration? n attached = some (.node record resource) ↔
      ∃ header, entry = .opening header ∧ header.tag = "node" ∧
        NodeRecord.ofHeader? header n = some record ∧ resource = attached := by
  cases entry with
  | property text => simp [declaration?]
  | broken fault => simp [declaration?]
  | opening header =>
    simp only [declaration?, opening.injEq, exists_eq_left']
    split
    · rename_i tag
      split
      · rename_i declared eq
        simp [tag, eq, eq_comm]
      · rename_i eq
        simp [eq]
    · rename_i other
      simp [other]

theorem declarationAt?_eq_node_iff {record : NodeRecord} {resource : Option String} :
    declarationAt? lines i = some (.node record resource) ↔
      ∃ header, ReadsAt lines i (.ok (some header)) ∧ header.tag = "node" ∧
        NodeRecord.ofHeader? header (i + 1) = some record ∧
        resource = sectionResource? (entriesFrom lines (i + 1)) := by
  simp only [declarationAt?, Option.bind_eq_some_iff, Entry.declaration?_eq_node_iff,
    ← entryAt?_eq_opening_iff]
  constructor
  · rintro ⟨entry, tells, header, rfl, declares⟩
    exact ⟨header, tells, declares⟩
  · rintro ⟨header, tells, declares⟩
    exact ⟨_, tells, header, rfl, declares⟩

namespace Declaration

variable {resources : List (String × String)} {declaration : Declaration} {issue : Issue}

/-- An issue stands on the line of the declaration that gives rise to it. -/
theorem line_of_issue? (h : declaration.issue? resources = some issue) :
    issue.line = declaration.line := by
  unfold issue? at h
  split at h
  · split at h
    · contradiction
    · exact Option.some.inj h ▸ rfl
  · contradiction
  · exact Option.some.inj h ▸ rfl
  · exact Option.some.inj h ▸ rfl

/-- Only a node that attaches a resource without a path gives rise to an unresolved resource. -/
theorem issue?_eq_some_iff (kind : issue.kind = .scriptResourceUnresolved) :
    declaration.issue? resources = some issue ↔ ∃ record id, declaration = .node record (some id) ∧
      resourcePath? resources id = none ∧ issue = .unresolvedResource record id := by
  constructor
  · intro h
    unfold issue? at h
    split at h
    · rename_i record id
      split at h
      · contradiction
      · rename_i missing
        exact ⟨record, id, rfl, missing, (Option.some.inj h).symm⟩
    · contradiction
    · rw [← Option.some.inj h] at kind
      contradiction
    · rw [← Option.some.inj h] at kind
      contradiction
  · rintro ⟨record, id, rfl, missing, rfl⟩
    rw [issue?, missing]

end Declaration

end Scene

namespace SceneFile

open Scene

variable {text : String} {i : Nat}

/-- The issues about unresolved resources that stand on line `n`. -/
def unresolvedAt (file : SceneFile) (n : Nat) : List Issue :=
  file.issues.filter fun issue => issue.kind = .scriptResourceUnresolved && issue.line = n

/-- The resources that a text declares. -/
def resourcesOf (text : String) : List (String × String) :=
  resources (entries false 1 (lines text.toList))

/-- The nodes of a text are those that its lines declare, with the paths of their resources. -/
theorem mem_records_iff {record : NodeRecord} :
    record ∈ (read text).records ↔ ∃ i declared resource,
      declarationAt? (lines text.toList) i = some (.node declared resource) ∧
      record = { declared with script := resource.bind (resourcePath? (resourcesOf text)) } := by
  have membership : record ∈ (read text).records ↔ ∃ declaration,
      declaration ∈ declarations (entries false 1 (lines text.toList)) ∧
        declaration.record? (resourcesOf text) = some record :=
    List.mem_filterMap
  simp only [membership, mem_declarations_iff]
  constructor
  · rintro ⟨declaration, ⟨i, declares⟩, eq⟩
    cases declaration with
    | node declared resource => exact ⟨i, declared, resource, declares, (Option.some.inj eq).symm⟩
    | broken | unnamed => contradiction
  · rintro ⟨i, declared, resource, declares, rfl⟩
    exact ⟨_, ⟨i, declares⟩, rfl⟩

/-- Issues stand on different lines, in the order of the lines. -/
theorem pairwise_line_issues (text : String) :
    (read text).issues.Pairwise fun one other => one.line < other.line := by
  refine List.pairwise_filterMap.2 ((pairwise_line_declarations _).imp ?_)
  intro one other lt issue found issue' found'
  rwa [Declaration.line_of_issue? found, Declaration.line_of_issue? found']

/-- The resources that are unresolved are those of nodes whose resource has no path. -/
theorem mem_unresolved_iff {issue : Issue} :
    issue ∈ (read text).issues ∧ issue.kind = .scriptResourceUnresolved ↔
      ∃ i record id, declarationAt? (lines text.toList) i = some (.node record (some id)) ∧
        resourcePath? (resourcesOf text) id = none ∧ issue = .unresolvedResource record id := by
  have membership : issue ∈ (read text).issues ↔ ∃ declaration,
      declaration ∈ declarations (entries false 1 (lines text.toList)) ∧
        declaration.issue? (resourcesOf text) = some issue :=
    List.mem_filterMap
  simp only [membership, mem_declarations_iff]
  constructor
  · rintro ⟨⟨declaration, ⟨i, declares⟩, eq⟩, kind⟩
    obtain ⟨record, id, rfl, missing, rfl⟩ := (Declaration.issue?_eq_some_iff kind).1 eq
    exact ⟨i, record, id, declares, missing, rfl⟩
  · rintro ⟨i, record, id, declares, missing, rfl⟩
    refine ⟨⟨_, ⟨i, declares⟩, ?_⟩, rfl⟩
    exact (Declaration.issue?_eq_some_iff rfl).2 ⟨record, id, rfl, missing, rfl⟩

/-- On the line of a node stands an issue about its own resource or none. -/
theorem unresolvedAt_read {declared : NodeRecord} {resource : Option String}
    (declares : declarationAt? (lines text.toList) i = some (.node declared resource)) :
    (read text).unresolvedAt (i + 1) =
      ((Declaration.node declared resource).issue? (resourcesOf text)).toList := by
  have members (issue : Issue) : issue ∈ (read text).unresolvedAt (i + 1) ↔
      (Declaration.node declared resource).issue? (resourcesOf text) = some issue := by
    rw [unresolvedAt, List.mem_filter, Bool.and_eq_true, decide_eq_true_eq, decide_eq_true_eq,
      ← and_assoc, mem_unresolved_iff]
    constructor
    · rintro ⟨⟨j, record, id, declares', missing, rfl⟩, line⟩
      have line' : record.line = j + 1 := line_of_declarationAt? declares'
      obtain rfl : j = i := Nat.succ.inj (line'.symm.trans line)
      rw [← Option.some.inj (declares'.symm.trans declares)]
      exact (Declaration.issue?_eq_some_iff rfl).2 ⟨record, id, rfl, missing, rfl⟩
    · intro raised
      have line := (Declaration.line_of_issue? raised).trans (line_of_declarationAt? declares)
      refine ⟨?_, line⟩
      cases resource with
      | none => contradiction
      | some id =>
        have kind : issue.kind = .scriptResourceUnresolved := by
          rw [Declaration.issue?] at raised
          split at raised
          · contradiction
          · exact Option.some.inj raised ▸ rfl
        obtain ⟨record, id, same, missing, rfl⟩ := (Declaration.issue?_eq_some_iff kind).1 raised
        exact ⟨i, record, id, same ▸ declares, missing, rfl⟩
  have nodup : ((read text).unresolvedAt (i + 1)).Nodup := by
    refine List.Pairwise.filter _ ((pairwise_line_issues text).imp fun lt same => ?_)
    exact Nat.ne_of_lt lt (congrArg Issue.line same)
  cases raised : (Declaration.node declared resource).issue? (resourcesOf text) with
  | none =>
    refine List.eq_nil_iff_forall_not_mem.2 fun issue mem => ?_
    rw [members, raised] at mem
    contradiction
  | some issue =>
    refine List.perm_singleton.1 (
      (List.perm_ext_iff_of_nodup nodup (List.pairwise_singleton _ _)).2 ?_)
    intro other
    rw [members, raised, Option.some.injEq, List.mem_singleton, eq_comm]

/-- The script of a node is the path of the resource that its section attaches, and what is reported
on its line is that there is no such path. -/
theorem script_of_mem_records {record : NodeRecord} (mem : record ∈ (read text).records)
    (line : record.line = i + 1) :
    let resource := sectionResource? (entriesFrom (lines text.toList) (i + 1))
    record.script = resource.bind (resourcePath? (resourcesOf text)) ∧
      (read text).unresolvedAt record.line =
        ((Declaration.node record resource).issue? (resourcesOf text)).toList := by
  obtain ⟨j, declared, resource, declares, rfl⟩ := mem_records_iff.1 mem
  obtain rfl : j = i := Nat.succ.inj ((line_of_declarationAt? declares).symm.trans line)
  obtain ⟨-, -, -, -, rfl⟩ := declarationAt?_eq_node_iff.1 declares
  refine ⟨rfl, (congrArg _ line).trans ((unresolvedAt_read declares).trans ?_)⟩
  cases sectionResource? (entriesFrom (lines text.toList) (j + 1)) <;> rfl

/-- **Scripts of nodes.** The last line of its section that names a resource decides what script a
node has. If there is none, it has none. If there is one, it has the path of the resource, as the
last declaration in the file has it, before or after the node; and if the resource is not declared,
it has none, and one issue says so on the line of the node. There are no other such issues. -/
theorem scripts_read (text : String) :
    let file := read text
    let lines := lines text.toList
    (∀ record ∈ file.records, ∃ i, record.line = i + 1 ∧ DeclaresNode lines i record.name ∧
      ((∀ j, InSection lines i j → attachedAt? lines j = none) →
        record.script = none ∧ file.unresolvedAt record.line = []) ∧
      ∀ id, SectionAttaches lines i id →
        (∀ path, IsPathOf lines id path →
          record.script = some path ∧ file.unresolvedAt record.line = []) ∧
        ((∀ j path, ¬DeclaresResource lines j id path) → record.script = none ∧
          file.unresolvedAt record.line = [.unresolvedResource record id])) ∧
    ∀ issue ∈ file.issues, issue.kind = .scriptResourceUnresolved →
      ∃ record ∈ file.records, ∃ i id, record.line = i + 1 ∧ SectionAttaches lines i id ∧
        (∀ j path, ¬DeclaresResource lines j id path) ∧
        issue = .unresolvedResource record id := by
  intro file lines
  constructor
  · intro record mem
    obtain ⟨i, declared, resource, declares, eq⟩ := mem_records_iff.1 mem
    have line : record.line = i + 1 := eq ▸ line_of_declarationAt? declares
    obtain ⟨script, issues⟩ := script_of_mem_records mem line
    obtain ⟨header, opens, tag, source, -⟩ := declarationAt?_eq_node_iff.1 declares
    have name : header.value? "name" = some record.name :=
      eq ▸ (NodeRecord.ofHeader_eq_some_iff.1 source).1
    rw [script, issues]
    refine ⟨i, line, ⟨header, opens, tag, name⟩, fun none => ?_, fun id last =>
      ⟨fun path found => ?_, fun missing => ?_⟩⟩
    · rw [sectionResource?_eq_none_iff.2 none]
      exact ⟨rfl, rfl⟩
    · rw [sectionResource?_eq_some_iff.2 last, Option.bind_some, Declaration.issue?, resourcesOf,
        resourcePath?_eq_some_iff.2 found]
      exact ⟨rfl, rfl⟩
    · rw [sectionResource?_eq_some_iff.2 last, Option.bind_some, Declaration.issue?, resourcesOf,
        resourcePath?_eq_none_iff.2 missing]
      exact ⟨rfl, rfl⟩
  · intro issue mem kind
    obtain ⟨i, declared, id, declares, missing, rfl⟩ := mem_unresolved_iff.1 ⟨mem, kind⟩
    obtain ⟨header, opens, tag, source, attached⟩ := declarationAt?_eq_node_iff.1 declares
    exact ⟨_, mem_records_iff.2 ⟨i, declared, some id, declares, rfl⟩, i, id,
      line_of_declarationAt? declares, sectionResource?_eq_some_iff.1 attached.symm,
      resourcePath?_eq_none_iff.1 missing, rfl⟩

/-- Of two resources that are named outside of quotations the last counts, and of two declarations
of it the last, though it stands below the node. Another node names a resource that is not
declared. -/
theorem scripts_read_menu :
    let source := ["[node name=Menu]\n", "script = ExtResource(2)\n", "script = ExtResource(3)\n",
      "text = \"\n", "script = ExtResource(4)\"\n", "[sub_resource]\n",
      "script = ExtResource(5)\n", "[node name=Lost parent=.]\n", "script = ExtResource(\"9\")\n",
      "[ext_resource id=3 path=a.gd]\n", "[ext_resource id=3 path=b.gd]\n"].flatMap String.toList
    let file := read (String.ofList source)
    let lines := lines source
    let menu : NodeRecord := ⟨"Menu", none, .absent, some "b.gd", 1⟩
    let lost : NodeRecord := ⟨"Lost", none, .root, none, 8⟩
    (menu ∈ file.records ∧ SectionAttaches lines 0 "3" ∧ IsPathOf lines "3" "b.gd" ∧
        menu.script = some "b.gd" ∧ file.unresolvedAt 1 = []) ∧
      (lost ∈ file.records ∧ SectionAttaches lines 7 "9" ∧
        (∀ j path, ¬DeclaresResource lines j "9" path) ∧
        file.unresolvedAt 8 = [.unresolvedResource lost "9"]) := by
  intro source file lines menu lost
  have declared : menu ∈ file.records ∧ lost ∈ file.records := by
    dsimp only [file]
    rw [read, String.toList_ofList]
    decide +kernel
  have third : SectionAttaches lines 0 "3" := sectionResource?_eq_some_iff.1 (by decide +kernel)
  have ninth : SectionAttaches lines 7 "9" := sectionResource?_eq_some_iff.1 (by decide +kernel)
  have path : IsPathOf lines "3" "b.gd" := resourcePath?_eq_some_iff.1 (by decide +kernel)
  have missing : ∀ j path, ¬DeclaresResource lines j "9" path :=
    resourcePath?_eq_none_iff.1 (by decide +kernel)
  obtain ⟨reads, -⟩ := scripts_read (String.ofList source)
  rw [String.toList_ofList] at reads
  obtain ⟨i, line, -, -, attached⟩ := reads menu declared.1
  obtain rfl : 0 = i := Nat.succ.inj line
  obtain ⟨j, line', -, -, unattached⟩ := reads lost declared.2
  obtain rfl : 7 = j := Nat.succ.inj line'
  exact ⟨⟨declared.1, third, path, (attached "3" third).1 "b.gd" path⟩,
    declared.2, ninth, missing, ((unattached "9" ninth).2 missing).2⟩

end SceneFile

end SceneAudit
