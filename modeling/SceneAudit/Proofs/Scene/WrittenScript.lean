import Mathlib.Data.List.TakeWhile
import SceneAudit.Proofs.Scene.Attachment
import SceneAudit.Proofs.Scene.Writing

/-!
# Scripts with a quoted identifier

The identifier of a script is written twice, in the header that declares its path and in the
property that attaches it, and the two are read in different ways. In a header a quoted text may
have any characters in it, and its escapes are resolved. In a property the quotation marks are
merely passed over: the identifier ends at the first blank, parenthesis or quotation mark, and a
backslash is a character like any other. So the two agree on the identifiers that can do without
quotation marks, and on no others.

## Main definitions

* `Scene.scriptResource`, `Scene.scriptProperty`: the header and the property, with the identifier
  quoted.
* `Scene.IsPlainIdentifier`: an identifier that can do without quotation marks.
* `Scene.WritesScript`: a text in which the script of a node is written so.

## Main results

* `Scene.attachedResource?_scriptProperty_iff`: which identifiers are read back from a property.
* `Scene.WritesScript.sectionAttaches_iff`: what such a section attaches.
* `SceneFile.script_written`: whether the node has the script.
-/

namespace SceneAudit

open Text

namespace Scene

/-- The header that declares the path of a script. -/
def scriptResource (id path : String) : Header where
  tag := "ext_resource"
  attributes := [("type", "Script"), ("path", path), ("id", id)]

/-- The start of a property that attaches a script, up to its quoted identifier. -/
def scriptStart : List Char :=
  "script = ExtResource(\"".toList

/-- The property that attaches a script, its identifier quoted. -/
def scriptProperty (id : String) : List Char :=
  scriptStart ++ (Quoted.encode id.toList ++ ['"', ')'])

/-- An identifier that can do without quotation marks: no blank, quotation mark or parenthesis ends
it, and no backslash would have to be escaped. -/
def IsPlainIdentifier (id : String) : Prop :=
  ∀ c ∈ id.toList, isIdentifierChar c = true ∧ c ≠ '\\'

instance (id : String) : Decidable (IsPlainIdentifier id) :=
  List.decidableBAll (fun c => isIdentifierChar c = true ∧ c ≠ '\\') id.toList

variable {id path : String}

/-- An identifier behind a quotation mark is read as one without, up to the first character that
cannot stand in it. -/
theorem attachedResource?_scriptStart_append (s : List Char) :
    attachedResource? (scriptStart ++ s) =
      (after? [')'] (skipBlanks (skipQuote (s.dropWhile isIdentifierChar)))).bind fun _ =>
        if s.takeWhile isIdentifierChar = [] then none
        else some (String.ofList (s.takeWhile isIdentifierChar)) := by
  have blank (c : Char) (s : List Char) (plain : isBlank c = false) :
      skipBlanks (' ' :: c :: s) = c :: s :=
    (skipBlanks_cons_of_blank rfl).trans (skipBlanks_cons_of_not_blank plain)
  have constructor : "ExtResource(".toList = 'E' :: "xtResource(".toList := by decide +kernel
  have pieces : scriptStart =
      "script".toList ++ (' ' :: '=' :: ' ' :: ("ExtResource(".toList ++ ['"'])) := by
    decide +kernel
  have key : after? "script".toList (scriptStart ++ s) =
      some (' ' :: '=' :: ' ' :: ("ExtResource(".toList ++ '"' :: s)) :=
    after?_eq_some_iff.2 (by
      simp only [pieces, List.append_assoc, List.cons_append, List.nil_append])
  have sign : after? ['='] ('=' :: ' ' :: ("ExtResource(".toList ++ '"' :: s)) =
      some (' ' :: ("ExtResource(".toList ++ '"' :: s)) :=
    after?_eq_some_iff.2 rfl
  have start : after? "ExtResource(".toList ("ExtResource(".toList ++ '"' :: s) =
      some ('"' :: s) :=
    after?_eq_some_iff.2 rfl
  have front : skipBlanks (' ' :: ("ExtResource(".toList ++ '"' :: s)) =
      "ExtResource(".toList ++ '"' :: s := by
    rw [constructor]
    exact blank 'E' _ rfl
  have mark : skipQuote (skipBlanks ('"' :: s)) = s := by
    rw [skipBlanks_cons_of_not_blank rfl, skipQuote]
  simp only [attachedResource?, Option.bind_eq_bind]
  rw [key, Option.bind_some, blank '=' _ rfl, sign, Option.bind_some, front, start,
    Option.bind_some, mark]

theorem takeWhile_isIdentifierChar (s : List Char) :
    (s ++ ['"', ')']).takeWhile isIdentifierChar = s.takeWhile isIdentifierChar :=
  takeWhile_append_cons rfl s [')']

private theorem encode_of_isPlainIdentifier (plain : IsPlainIdentifier id) :
    Quoted.encode id.toList = id.toList := by
  refine Quoted.encode_eq_self_iff.2 fun c mem => ⟨?_, (plain c mem).2⟩
  rintro rfl
  exact absurd (plain _ mem).1 (by decide)

/-- A plain identifier is read back. -/
theorem attachedResource?_scriptProperty (plain : IsPlainIdentifier id) (nonempty : id ≠ "") :
    attachedResource? (scriptProperty id) = some id := by
  have chars : ∀ c ∈ id.toList, isIdentifierChar c = true := fun c mem => (plain c mem).1
  have word : id.toList.takeWhile isIdentifierChar = id.toList :=
    List.takeWhile_eq_self_iff.2 chars
  have rest : (id.toList ++ ['"', ')']).dropWhile isIdentifierChar = ['"', ')'] := by
    rw [List.dropWhile_append_of_pos chars]
    rfl
  have filled : id.toList ≠ [] := fun empty => nonempty (String.toList_eq_nil_iff.1 empty)
  rw [scriptProperty, encode_of_isPlainIdentifier plain, attachedResource?_scriptStart_append,
    takeWhile_isIdentifierChar, word, rest, if_neg filled, String.ofList_toList]
  rfl

/-- Only a plain identifier is read back. -/
theorem isPlainIdentifier_of_attachedResource?
    (h : attachedResource? (scriptProperty id) = some id) : IsPlainIdentifier id := by
  rw [scriptProperty, attachedResource?_scriptStart_append, takeWhile_isIdentifierChar,
    Option.bind_eq_some_iff] at h
  obtain ⟨-, -, found⟩ := h
  split at found
  · contradiction
  · have word : (Quoted.encode id.toList).takeWhile isIdentifierChar = id.toList := by
      rw [← String.toList_ofList (l := List.takeWhile _ _), Option.some.inj found]
    have chars : ∀ c ∈ id.toList, isIdentifierChar c = true := by
      rw [← word]
      exact List.all_eq_true.1 List.all_takeWhile
    -- Escaping adds backslashes only, so nothing ends the identifier early.
    have whole : (Quoted.encode id.toList).takeWhile isIdentifierChar =
        Quoted.encode id.toList := by
      refine List.takeWhile_eq_self_iff.2 fun c mem => ?_
      by_cases slash : c = '\\'
      · rw [slash]
        decide
      · exact chars c ((Quoted.mem_encode slash).1 mem)
    have same := Quoted.encode_eq_self_iff.1 (whole.symm.trans word)
    exact fun c mem => ⟨chars c mem, (same c mem).2⟩

/-- **The identifiers that are read back** from a property are the plain ones. -/
theorem attachedResource?_scriptProperty_iff (nonempty : id ≠ "") :
    attachedResource? (scriptProperty id) = some id ↔ IsPlainIdentifier id :=
  ⟨isPlainIdentifier_of_attachedResource?, fun plain =>
    attachedResource?_scriptProperty plain nonempty⟩

/-! ### Scripts that are written so -/

/-- The line at position `k` declares the path of a script, and the line at position `j` attaches
the script to the section that opens at position `i`. No other line does either. -/
structure WritesScript (lines : List (List Char)) (i j k : Nat) (id path : String) : Prop where
  resource : lines[k]? = some (scriptResource id path).render
  resourceOutside : IsOutside lines k
  declaredOnce : ∀ l other, DeclaresResource lines l id other → l = k
  property : lines[j]? = some (scriptProperty id)
  propertyOutside : IsOutside lines j
  inSection : InSection lines i j
  attachedOnce : ∀ l, InSection lines i l → attachedAt? lines l ≠ none → l = j

private theorem writesScript_iff {lines : List (List Char)} {i j k : Nat} :
    WritesScript lines i j k id path ↔
      (lines[k]? = some (scriptResource id path).render ∧ IsOutside lines k ∧
        ∀ l < lines.length, pathAt? lines id l ≠ none → l = k) ∧
      lines[j]? = some (scriptProperty id) ∧ IsOutside lines j ∧ InSection lines i j ∧
        ∀ l < lines.length, InSection lines i l → attachedAt? lines l ≠ none → l = j := by
  constructor
  · intro written
    refine ⟨⟨written.resource, written.resourceOutside, fun l _ found => ?_⟩, written.property,
      written.propertyOutside, written.inSection, fun l _ => written.attachedOnce l⟩
    obtain ⟨other, found⟩ := Option.ne_none_iff_exists'.1 found
    exact written.declaredOnce l other (pathAt?_eq_some_iff.1 found)
  · rintro ⟨⟨resource, outside, once⟩, property, outside', inside, once'⟩
    refine ⟨resource, outside, fun l other declares => ?_, property, outside', inside,
      fun l inside attached => ?_⟩
    · have found := Option.ne_none_iff_exists'.2 ⟨other, pathAt?_eq_some_iff.2 declares⟩
      exact once l (Nat.lt_of_not_le fun behind => found (pathAt?_of_length_le behind)) found
    · refine once' l (Nat.lt_of_not_le fun behind => attached ?_) inside attached
      exact attachedAt?_of_none (entryAt?_of_length_le behind)

instance (lines : List (List Char)) (i j k : Nat) (id path : String) :
    Decidable (WritesScript lines i j k id path) :=
  decidable_of_iff' _ writesScript_iff

private theorem isWritable_scriptResource (id path : String) :
    (scriptResource id path).IsWritable := by
  have tag : "ext_resource".toList = 'e' :: "xt_resource".toList := by decide +kernel
  have keys : ∀ key ∈ ["type", "path", "id"], IsKey key := by decide +kernel
  have named : IsKey "ext_resource" := by decide +kernel
  exact ⟨⟨'e', _, tag, rfl⟩, named, fun binding mem => keys binding.1 (List.mem_map_of_mem mem)⟩

private theorem trim_scriptProperty (id : String) :
    trim (scriptProperty id) = scriptProperty id := by
  have start : scriptStart.head? = some 's' := by decide +kernel
  refine trim_eq_self (fun c first => ?_) fun c last => ?_
  · rw [scriptProperty, List.head?_append, start] at first
    exact Option.mem_some_iff.1 first ▸ rfl
  · rw [scriptProperty, List.getLast?_append, List.getLast?_append] at last
    exact Option.mem_some_iff.1 last ▸ rfl

namespace WritesScript

variable {lines : List (List Char)} {i j k : Nat}

theorem declares (written : WritesScript lines i j k id path) :
    DeclaresResource lines k id path :=
  ⟨scriptResource id path, ⟨written.resourceOutside, _, written.resource,
    Header.ofLine_render (isWritable_scriptResource id path)⟩, rfl, rfl, rfl⟩

private theorem isPathOf (written : WritesScript lines i j k id path) : IsPathOf lines id path :=
  ⟨k, written.declares, fun l lt other declares =>
    absurd (written.declaredOnce l other declares) (Nat.ne_of_gt lt)⟩

private theorem attachedAt?_eq (written : WritesScript lines i j k id path) :
    attachedAt? lines j = attachedResource? (scriptProperty id) := by
  rw [attachedAt?, if_pos written.propertyOutside, written.property, Option.bind_some,
    trim_scriptProperty]

/-- A section attaches what its only property says. -/
theorem sectionAttaches_iff (written : WritesScript lines i j k id path) {other : String} :
    SectionAttaches lines i other ↔ attachedResource? (scriptProperty id) = some other := by
  rw [← written.attachedAt?_eq]
  constructor
  · rintro ⟨l, inside, attached, -⟩
    have same := written.attachedOnce l inside (by simp [attached])
    exact same ▸ attached
  · intro attached
    refine ⟨j, written.inSection, attached, fun l lt inside => ?_⟩
    by_contra found
    exact absurd (written.attachedOnce l inside found) (Nat.ne_of_gt lt)

end WritesScript

end Scene

namespace SceneFile

open Scene

variable {text : String} {record : NodeRecord} {i j k : Nat} {id path : String}

/-- **Scripts that are written with a quoted identifier.** A node has the script that a header and a
property of its section name with the same identifier, both times quoted and escaped, if no
character of the identifier is one that ends an unquoted one or has to be escaped. If there is such
a character, the node has no script. -/
theorem script_written (mem : record ∈ (read text).records) (line : record.line = i + 1)
    (written : WritesScript (lines text.toList) i j k id path) (nonempty : id ≠ "") :
    (IsPlainIdentifier id →
      record.script = some path ∧ (read text).unresolvedAt record.line = []) ∧
    (¬IsPlainIdentifier id →
      (∀ l other path, DeclaresResource (lines text.toList) l other path → other = id) →
      record.script = none) := by
  obtain ⟨script, issues⟩ := script_of_mem_records mem line
  rw [script, issues]
  constructor
  · intro plain
    have attached := sectionResource?_eq_some_iff.2
      (written.sectionAttaches_iff.2 ((attachedResource?_scriptProperty_iff nonempty).2 plain))
    have found : resourcePath? (resourcesOf text) id = some path :=
      resourcePath?_eq_some_iff.2 written.isPathOf
    rw [attached, Option.bind_some, Declaration.issue?, found]
    exact ⟨rfl, rfl⟩
  · intro special only
    refine Option.bind_eq_none_iff.2 fun other attached => resourcePath?_eq_none_iff.2 ?_
    intro l path declares
    have read := written.sectionAttaches_iff.1 (sectionResource?_eq_some_iff.1 attached)
    rw [only l other path declares] at read
    exact special ((attachedResource?_scriptProperty_iff nonempty).1 read)

/-- A plain identifier, of a path with quotation marks and parentheses in it, and an identifier with
a blank in it. -/
theorem script_written_blank :
    let path := "(\"a\").gd"
    let nodes := "\n[node name=A]\n".toList
    let plain := (scriptResource "1_a" path).render ++ nodes ++ scriptProperty "1_a"
    let blank := (scriptResource "a b" path).render ++ nodes ++ scriptProperty "a b"
    let attached : NodeRecord := ⟨"A", none, .absent, some path, 2⟩
    let dropped : NodeRecord := ⟨"A", none, .absent, none, 2⟩
    (attached ∈ (read (String.ofList plain)).records ∧
        WritesScript (lines plain) 1 2 0 "1_a" path ∧ IsPlainIdentifier "1_a" ∧
        attached.script = some path ∧ (read (String.ofList plain)).unresolvedAt 2 = []) ∧
      dropped ∈ (read (String.ofList blank)).records ∧
        WritesScript (lines blank) 1 2 0 "a b" path ∧ ¬IsPlainIdentifier "a b" ∧
        (∀ l other path, DeclaresResource (lines blank) l other path → other = "a b") ∧
        dropped.script = none := by
  intro path nodes plain blank attached dropped
  have read : attached ∈ (read (String.ofList plain)).records ∧
      dropped ∈ (SceneFile.read (String.ofList blank)).records := by
    rw [SceneFile.read, SceneFile.read, String.toList_ofList, String.toList_ofList]
    decide +kernel
  have written : WritesScript (lines plain) 1 2 0 "1_a" path ∧
      WritesScript (lines blank) 1 2 0 "a b" path := by
    decide +kernel
  have identifiers : IsPlainIdentifier "1_a" ∧ ¬IsPlainIdentifier "a b" := by decide +kernel
  have ids : ∀ resource ∈ resources (entries false 1 (lines blank)), resource.1 = "a b" := by
    decide +kernel
  clear_value plain blank
  have only : ∀ l other path, DeclaresResource (lines blank) l other path → other = "a b" :=
    fun l other path declares => ids (other, path) (mem_resources_iff.2 ⟨l, declares⟩)
  have writes (s : List Char) : lines (String.ofList s).toList = lines s := by
    rw [String.toList_ofList]
  obtain ⟨found, -⟩ := script_written read.1 rfl (writes plain ▸ written.1) (by decide)
  obtain ⟨-, lost⟩ := script_written read.2 rfl (writes blank ▸ written.2) (by decide)
  rw [writes] at lost
  exact ⟨⟨read.1, written.1, identifiers.1, found identifiers.1⟩,
    read.2, written.2, identifiers.2, only, lost identifiers.2 only⟩

/-- A script whose identifier has a blank in it is declared and attached, and the node is left
without it, with no issue that says so. -/
theorem not_script_written_blank :
    let source := (scriptResource "a b" "res://a.gd").render ++ "\n[node name=\"A\"]\n".toList ++
      scriptProperty "a b"
    let file := read (String.ofList source)
    WritesScript (lines source) 1 2 0 "a b" "res://a.gd" ∧
      (∃ record ∈ file.records, record.line = 2 ∧ record.script ≠ some "res://a.gd") ∧
      file.issues = [] := by
  intro source file
  have reads : file = { records := [⟨"A", none, .absent, none, 2⟩], issues := [] } := by
    dsimp only [file]
    rw [read, String.toList_ofList]
    decide +kernel
  refine ⟨by decide +kernel, ?_⟩
  rw [reads]
  exact ⟨⟨_, List.mem_cons_self, rfl, (Option.some_ne_none _).symm⟩, rfl⟩

end SceneFile

end SceneAudit
