import SceneAudit.Scene.File

/-!
# Written scenes

A header whose tag and keys are made of key characters can be written as a line with every value
quoted, and reading the line gives the header back: blanks separate the attributes, no key character
is a blank or a bracket, and a quoted value ends at its own closing quotation mark. The line has no
line feed unless one of the values has.

A scene that is written with one such line for each node is therefore read back node by node, and
there is nothing to report of it.

## Main definitions

* `Scene.IsKey`, `Scene.Header.IsWritable`: a text that can be written as a key, and a header that
  can be written.
* `Scene.NodeRecord.IsWritable`: a node that can be declared on one line.
* `Scene.NodeRecord.text`: the scene that declares each of the given nodes on a line of its own.

## Main results

* `Scene.takeAttribute_render`, `Scene.readAttributes_render`: attributes are read back.
* `Scene.Header.ofLine_render`: a written header is read back.
* `Scene.Header.newline_not_mem_render`: a header is written on one line.
* `SceneFile.read_text`: a written scene is read back.
-/

namespace SceneAudit.Scene

open Text

/-! ### Keys -/

/-- A key: one key character or more. -/
def IsKey (key : String) : Prop :=
  key.toList ≠ [] ∧ key.toList.all isKeyChar = true

/-- A header can be written: its tag is a key that starts with a letter, and its keys are keys. -/
structure Header.IsWritable (header : Header) : Prop where
  letter : ∃ c rest, header.tag.toList = c :: rest ∧ c.isAlpha = true
  tag : IsKey header.tag
  keys : ∀ binding ∈ header.attributes, IsKey binding.1

instance (key : String) : Decidable (IsKey key) :=
  inferInstanceAs (Decidable (_ ∧ _))

theorem IsKey.char {key : String} (h : IsKey key) : ∀ c ∈ key.toList, isKeyChar c = true :=
  List.all_eq_true.1 h.2

/-- No key character is blank. -/
theorem isBlank_of_isKeyChar {c : Char} (h : isKeyChar c = true) : isBlank c = false := by
  have upper : c.isUpper = true ↔ 65 ≤ c.toNat ∧ c.toNat ≤ 90 := decide_eq_true_iff
  have lower : c.isLower = true ↔ 97 ≤ c.toNat ∧ c.toNat ≤ 122 :=
    Bool.and_eq_true_iff.trans (and_congr decide_eq_true_iff decide_eq_true_iff)
  have code : ((65 ≤ c.toNat ∧ c.toNat ≤ 90 ∨ 97 ≤ c.toNat ∧ c.toNat ≤ 122) ∨
      48 ≤ c.toNat ∧ c.toNat ≤ 57) ∨ c.toNat = 95 := by
    change (((c.isUpper || c.isLower) || c.isDigit) || c == '_') = true at h
    rw [Bool.or_eq_true, Bool.or_eq_true, Bool.or_eq_true, upper, lower, Char.isDigit_iff_toNat,
      beq_iff_eq] at h
    exact h.imp_right fun (eq : c = '_') => eq ▸ rfl
  simp only [isBlank, inRanges, blankRanges, List.any_cons, List.any_nil, Bool.or_false,
    Bool.or_eq_false_iff, Bool.and_eq_false_iff, decide_eq_false_iff_not]
  omega

/-! ### Attributes -/

/-- A written attribute is read back, whatever follows it. -/
theorem takeAttribute_render {tag key value : String} {rest : List Char} (written : IsKey key) :
    takeAttribute tag (key.toList ++ '=' :: '"' :: (Quoted.encode value.toList ++ '"' :: rest)) =
      .ok ((key, value), rest) := by
  have chars := written.char
  obtain ⟨c, others, eq⟩ := List.exists_cons_of_ne_nil written.1
  have first : isKeyChar c = true := chars c (by simp [eq])
  have more : ∀ d ∈ others, isKeyChar d = true := fun d mem => chars d (by simp [eq, mem])
  have name : String.ofList (c :: others) = key := by rw [← eq, String.ofList_toList]
  have sign (s : List Char) : skipBlanks ('=' :: s) = '=' :: s :=
    skipBlanks_cons_of_not_blank rfl
  have mark (s : List Char) : skipBlanks ('"' :: s) = '"' :: s :=
    skipBlanks_cons_of_not_blank rfl
  have stop (s : List Char) : ∀ d ∈ ('=' :: s).head?, isKeyChar d = false := by
    simp [isKeyChar]
  rw [eq, List.cons_append, takeAttribute, ite_cond_eq_true _ _ (eq_true first),
    takeWhile_append_of_stop more (stop _), dropWhile_append_of_stop more (stop _), sign, name]
  simp only [mark, takeValue_quoted, String.ofList_toList]

/-- An attribute is followed by the other ones. -/
theorem readAttributes_of_takeAttribute {tag : String} {s t rest : List Char} {c : Char}
    {binding : String × String} (front : skipBlanks s = c :: t) (more : c ≠ ']')
    (found : takeAttribute tag (c :: t) = .ok (binding, rest)) :
    readAttributes tag s = (readAttributes tag rest).map (binding :: ·) := by
  rw [readAttributes, front]
  split
  · rename_i close
    rw [List.cons.injEq] at close
    exact absurd close.1 more
  · split
    · rename_i same
      rw [found, Except.ok.injEq, Prod.mk.injEq] at same
      rw [same.1, same.2]
    · rename_i fails
      rw [found] at fails
      contradiction

/-- Written attributes are read back up to the closing bracket. -/
theorem readAttributes_render {tag : String} {attributes : List (String × String)}
    (keys : ∀ binding ∈ attributes, IsKey binding.1) :
    readAttributes tag
        (attributes.flatMap (fun binding => renderAttribute binding.1 binding.2) ++ [']']) =
      .ok attributes := by
  induction attributes with
  | nil =>
    have close : skipBlanks [']'] = [']'] := rfl
    rw [List.flatMap_nil, List.nil_append, readAttributes, close]
    rfl
  | cons binding others ih =>
    have written : IsKey binding.1 := keys binding List.mem_cons_self
    obtain ⟨c, name, eq⟩ := List.exists_cons_of_ne_nil written.1
    have first : isKeyChar c = true := written.char c (by simp [eq])
    have bracket : c ≠ ']' := by
      rintro rfl
      contradiction
    have front (s : List Char) : skipBlanks (' ' :: (c :: s)) = c :: s :=
      (skipBlanks_cons_of_blank rfl).trans
        (skipBlanks_cons_of_not_blank (isBlank_of_isKeyChar first))
    have found (rest : List Char) :
        takeAttribute tag
            (c :: (name ++ '=' :: '"' :: (Quoted.encode binding.2.toList ++ '"' :: rest))) =
          .ok (binding, rest) := by
      rw [← List.cons_append, ← eq]
      exact takeAttribute_render written
    rw [List.flatMap_cons, renderAttribute, eq]
    simp only [List.cons_append, List.append_assoc, List.nil_append]
    rw [readAttributes_of_takeAttribute (front _) bracket (found _),
      ih fun other mem => keys other (List.mem_cons_of_mem _ mem)]
    rfl

/-! ### Headers -/

namespace Header

variable {header : Header}

theorem trim_render (header : Header) : trim header.render = header.render := by
  refine trim_eq_self (fun c first => ?_) fun c last => ?_
  · simp only [render, List.cons_append, List.head?_cons, Option.mem_some_iff] at first
    exact first ▸ rfl
  · rw [render, List.getLast?_append] at last
    simp only [List.getLast?_singleton, Option.some_or, Option.mem_some_iff] at last
    exact last ▸ rfl

/-- A header that is written is read back. -/
theorem ofLine_render (writable : header.IsWritable) :
    ofLine header.render = .ok (some header) := by
  obtain ⟨c, rest, eq, letter⟩ := writable.letter
  have chars : ∀ d ∈ rest, isKeyChar d = true := fun d mem =>
    writable.tag.char d (by simp [eq, mem])
  have name : String.ofList (c :: rest) = header.tag := by rw [← eq, String.ofList_toList]
  have stop : ∀ d ∈ (header.attributes.flatMap
      (fun binding => renderAttribute binding.1 binding.2) ++ [']']).head?,
        isKeyChar d = false := by
    intro d first
    cases shown : header.attributes with
    | nil =>
      rw [shown, List.flatMap_nil, List.nil_append, List.head?_cons, Option.mem_some_iff] at first
      exact first ▸ rfl
    | cons binding others =>
      rw [shown, List.flatMap_cons, renderAttribute] at first
      simp only [List.cons_append, List.head?_cons, Option.mem_some_iff] at first
      exact first ▸ rfl
  rw [ofLine, trim_render, render, eq]
  simp only [List.cons_append, List.append_assoc, letter, ↓reduceIte]
  rw [takeWhile_append_of_stop chars stop, dropWhile_append_of_stop chars stop,
    readAttributes_render writable.keys, name]
  rfl

private theorem newline_not_mem_key {key : String} (h : IsKey key) : '\n' ∉ key.toList := by
  intro mem
  have char : isKeyChar '\n' = true := h.char _ mem
  contradiction

/-- A header is written on one line, if its values have no line feeds. -/
theorem newline_not_mem_render (writable : header.IsWritable)
    (values : ∀ binding ∈ header.attributes, '\n' ∉ binding.2.toList) :
    '\n' ∉ header.render := by
  have attributes : '\n' ∉ header.attributes.flatMap
      fun binding => renderAttribute binding.1 binding.2 := by
    intro mem
    obtain ⟨binding, listed, inside⟩ := List.mem_flatMap.1 mem
    have key := newline_not_mem_key (writable.keys binding listed)
    have value : '\n' ∉ Quoted.encode binding.2.toList := by
      rw [Quoted.mem_encode (by decide)]
      exact values binding listed
    simp [renderAttribute, key, value] at inside
  simp [render, newline_not_mem_key writable.tag, attributes]

end Header

/-! ### Nodes -/

namespace NodeRecord

variable {record : NodeRecord}

/-- A node can be declared on one line: it has a name, a path is not the mark of the root, and there
are no line feeds. -/
structure IsWritable (record : NodeRecord) : Prop where
  named : record.name ≠ ""
  name : '\n' ∉ record.name.toList
  kind : ∀ kind, record.kind = some kind → '\n' ∉ kind.toList
  parent : ∀ path, record.parent = .node path → path ≠ rootMark ∧ '\n' ∉ path.toList

/-- The node as its header declares it on line `n`, which does not tell its script. -/
def declaredAt (record : NodeRecord) (n : Nat) : NodeRecord :=
  { record with script := none, line := n }

/-- The scene that declares each of the given nodes on a line of its own. -/
def text (records : List NodeRecord) : List Char :=
  records.flatMap fun record => record.header.render ++ ['\n']

private theorem declaredAt_eq_self {n : Nat} (line : record.line = n)
    (script : record.script = none) : record.declaredAt n = record := by
  rw [declaredAt, ← line, ← script]

theorem mem_attributes {binding : String × String} (h : binding ∈ record.header.attributes) :
    binding = ("name", record.name) ∨ (∃ kind, record.kind = some kind ∧ binding = ("type", kind)) ∨
      ∃ path, record.parent.value? = some path ∧ binding = ("parent", path) := by
  rw [header, List.mem_cons, List.mem_append, Option.mem_toList, Option.mem_toList,
    Option.map_eq_some_iff, Option.map_eq_some_iff] at h
  rcases h with eq | ⟨kind, found, eq⟩ | ⟨path, found, eq⟩
  · exact .inl eq
  · exact .inr (.inl ⟨kind, found, eq.symm⟩)
  · exact .inr (.inr ⟨path, found, eq.symm⟩)

theorem isWritable_header (record : NodeRecord) : record.header.IsWritable where
  letter := by
    have letters : "node".toList = ['n', 'o', 'd', 'e'] := by decide +kernel
    exact ⟨'n', ['o', 'd', 'e'], letters, rfl⟩
  tag := by
    change IsKey "node"
    decide +kernel
  keys binding mem := by
    rcases mem_attributes mem with rfl | ⟨kind, -, rfl⟩ | ⟨path, -, rfl⟩
    · change IsKey "name"
      decide +kernel
    · change IsKey "type"
      decide +kernel
    · change IsKey "parent"
      decide +kernel

private theorem newline_not_mem_header (writable : record.IsWritable) :
    '\n' ∉ record.header.render := by
  refine Header.newline_not_mem_render record.isWritable_header fun binding mem => ?_
  rcases mem_attributes mem with rfl | ⟨kind, found, rfl⟩ | ⟨path, found, rfl⟩
  · exact writable.name
  · exact writable.kind kind found
  · cases declared : record.parent with
    | absent =>
      rw [declared] at found
      contradiction
    | root =>
      rw [declared, ParentRef.value?, Option.some.injEq] at found
      exact found ▸ by decide
    | node other =>
      rw [declared, ParentRef.value?, Option.some.injEq] at found
      exact found ▸ (writable.parent other declared).2

/-- The lines of a written scene are the headers of its nodes. -/
theorem lines_text {records : List NodeRecord} (writable : ∀ record ∈ records, record.IsWritable) :
    lines (text records) = records.map fun record => record.header.render := by
  induction records with
  | nil => rfl
  | cons record rest ih =>
    have carriage : record.header.render.getLast? ≠ some '\r' := by
      rw [Header.render, List.getLast?_append]
      simp
    rw [text, List.flatMap_cons, List.append_assoc, List.singleton_append, ← text,
      lines_append_newline (newline_not_mem_header (writable record List.mem_cons_self)) carriage,
      ih fun other mem => writable other (List.mem_cons_of_mem _ mem), List.map_cons]

/-- The entries of a written scene are the headers of its nodes. -/
theorem entries_map_render (n : Nat) (records : List NodeRecord) :
    entries false n (records.map fun record => record.header.render) =
      (records.zipIdx n).map fun numbered => (numbered.2, .opening numbered.1.header) := by
  induction records generalizing n with
  | nil => rfl
  | cons record rest ih =>
    have opens : Entry.ofLine? record.header.render = some (.opening record.header) := by
      rw [Entry.ofLine?, Header.trim_render, Header.ofLine_render record.isWritable_header]
      rfl
    have closed : Entry.leavesOpen (some (.opening record.header)) = false := rfl
    rw [List.map_cons, entries, opens, closed, ih, List.zipIdx_cons, List.map_cons]
    rfl

/-- The declarations of a written scene are those of its nodes. -/
theorem declarations_map_opening {n : Nat} {records : List NodeRecord}
    (writable : ∀ record ∈ records, record.IsWritable) :
    declarations ((records.zipIdx n).map fun numbered =>
        (numbered.2, .opening numbered.1.header)) =
      (records.zipIdx n).map fun numbered =>
        .node (numbered.1.declaredAt numbered.2) none := by
  induction records generalizing n with
  | nil => rfl
  | cons record rest ih =>
    have here : record.IsWritable := writable record List.mem_cons_self
    have found : ofHeader? record.header n = some (record.declaredAt n) :=
      ofHeader_header record n here.named fun path eq => (here.parent path eq).1
    have tag : record.header.tag = "node" := rfl
    rw [List.zipIdx_cons, List.map_cons, List.map_cons, declarations,
      ite_cond_eq_true _ _ (eq_true tag), found]
    have bare : sectionResource? ((rest.zipIdx (n + 1)).map fun numbered =>
        (numbered.2, .opening numbered.1.header)) = none := by
      cases rest with
      | nil => rfl
      | cons next others => rfl
    dsimp only
    rw [bare, ih fun other mem => writable other (List.mem_cons_of_mem _ mem)]

end NodeRecord

end SceneAudit.Scene

namespace SceneAudit

open Scene

/-- **A written scene is read back.** If each node carries the number of its line and no script,
the nodes that are read are those that were written, and there is nothing to report. -/
theorem SceneFile.read_text {records : List NodeRecord}
    (writable : ∀ record ∈ records, record.IsWritable)
    (placed : ∀ i (h : i < records.length), records[i].line = i + 1 ∧ records[i].script = none) :
    SceneFile.read (String.ofList (NodeRecord.text records)) = { records, issues := [] } := by
  have same : (records.zipIdx 1).map (fun numbered => numbered.1.declaredAt numbered.2) =
      records := by
    refine List.ext_getElem (by simp) fun i _ bound => ?_
    obtain ⟨line, script⟩ := placed i bound
    rw [List.getElem_map, List.getElem_zipIdx]
    exact NodeRecord.declaredAt_eq_self (line.trans (Nat.add_comm i 1)) script
  have nodes (resources : List (String × String)) :
      (Declaration.record? resources ∘ fun numbered : NodeRecord × Nat =>
        Declaration.node (numbered.1.declaredAt numbered.2) none) =
          some ∘ fun numbered => numbered.1.declaredAt numbered.2 := rfl
  rw [read, String.toList_ofList, NodeRecord.lines_text writable, NodeRecord.entries_map_render,
    ofEntries, NodeRecord.declarations_map_opening writable, SceneFile.mk.injEq,
    List.filterMap_map, List.filterMap_map, nodes, List.filterMap_eq_map]
  refine ⟨same, List.filterMap_eq_nil_iff.2 fun numbered _ => ?_⟩
  rfl

end SceneAudit
