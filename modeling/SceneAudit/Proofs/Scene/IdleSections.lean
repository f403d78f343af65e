import SceneAudit.Proofs.Scene.Attachment

/-!
# Sections that declare nothing

A header that cannot be read, a node without a name and a section of any other kind than those of
nodes and resources say nothing about the nodes of a scene, and neither do the properties behind
them. Such a section is idle. It can be inserted wherever another section starts, or at the end:
what stands above it is not continued by it, because the section above ends at its header, and what
stands below it starts with a header of its own. All that is seen of it is that what stands below
moves down, and that a header that should have declared something is reported on its line.

## Main definitions

* `Scene.StartsSection`, `Scene.AreProperties`: entries with a header in front, and entries without.
* `Scene.IsIdle`, `Scene.IsIdleSection`: idle headers, and the sections that they open.
* `SceneFile.report`, `SceneFile.reportMalformed`: one more issue, in its place by line.

## Main results

* `Scene.declarations_append`: sections declare what they declare by themselves.
* `Scene.IsIdleSection.entries_eq`: the entries of an idle section.
* `SceneFile.ofEntries_insertIdle`: the entries of an idle section are of no consequence.
* `SceneFile.read_insertIdle`: an idle section only moves what is below it, and may be reported.
-/

namespace SceneAudit

open Text

namespace Scene

/-! ### Sections one after another -/

section

variable {front properties back : List (Nat × Entry)} {n : Nat} {entry : Entry}

/-- The first entry, if there is one, is no property. -/
def StartsSection (numbered : List (Nat × Entry)) : Prop :=
  ∀ n text, numbered.head? ≠ some (n, .property text)

theorem startsSection_nil : StartsSection [] :=
  fun _ _ => (Option.some_ne_none _).symm

/-- All entries are properties. -/
def AreProperties (numbered : List (Nat × Entry)) : Prop :=
  ∀ entry ∈ numbered, ∃ text, entry.2 = .property text

/-- What a section attaches does not depend on the sections behind it. -/
theorem sectionResource?_append (starts : StartsSection back) :
    sectionResource? (front ++ back) = sectionResource? front := by
  induction front with
  | nil =>
    cases back with
    | nil => rfl
    | cons head rest =>
      obtain ⟨n, entry⟩ := head
      cases entry with
      | property text => exact absurd rfl (starts n text)
      | opening header => rfl
      | broken fault => rfl
  | cons head rest ih =>
    obtain ⟨n, entry⟩ := head
    cases entry with
    | property text => simp only [List.cons_append, sectionResource?, ih]
    | opening header => rfl
    | broken fault => rfl

theorem declarations_append (starts : StartsSection back) :
    declarations (front ++ back) = declarations front ++ declarations back := by
  induction front with
  | nil => rfl
  | cons head rest ih =>
    obtain ⟨n, entry⟩ := head
    rw [List.cons_append, declarations_cons, declarations_cons, sectionResource?_append starts, ih,
      List.append_assoc]

private theorem resources_append (front back : List (Nat × Entry)) :
    resources (front ++ back) = resources front ++ resources back :=
  List.filterMap_append

private theorem AreProperties.declarations_eq_nil (only : AreProperties properties) :
    declarations properties = [] := by
  induction properties with
  | nil => rfl
  | cons head rest ih =>
    obtain ⟨⟨text, same⟩, later⟩ := List.forall_mem_cons.1 only
    obtain ⟨n, entry⟩ := head
    obtain rfl : entry = .property text := same
    exact ih later

private theorem AreProperties.resources_eq_nil (only : AreProperties properties) :
    resources properties = [] := by
  refine List.filterMap_eq_nil_iff.2 fun numbered mem => ?_
  obtain ⟨text, same⟩ := only numbered mem
  rw [same]
  rfl

/-- An issue stands on the line of an entry. -/
theorem exists_entry_of_mem_issues {numbered : List (Nat × Entry)}
    {resources : List (String × String)} {issue : Issue}
    (h : issue ∈ (declarations numbered).filterMap (Declaration.issue? resources)) :
    ∃ entry, (issue.line, entry) ∈ numbered := by
  induction numbered with
  | nil => contradiction
  | cons head rest ih =>
    obtain ⟨n, entry⟩ := head
    rw [declarations_cons, List.filterMap_append, List.mem_append] at h
    rcases h with here | later
    · obtain ⟨declaration, declared, raised⟩ := List.mem_filterMap.1 here
      have line := Entry.line_of_declaration? (Option.mem_toList.1 declared)
      exact ⟨entry, (Declaration.line_of_issue? raised).trans line ▸ List.mem_cons_self⟩
    · obtain ⟨other, mem⟩ := ih later
      exact ⟨other, List.mem_cons_of_mem _ mem⟩

end

/-! ### Idle sections -/

/-- An outcome of reading a line as a header with which nothing is declared, and the reason that is
reported for it, if something should have been declared. -/
inductive IsIdle : Except HeaderFault (Option Header) → Option String → Prop
  | broken (fault : HeaderFault) : IsIdle (.error fault) (some fault.message)
  | unnamed {header : Header} (tag : header.tag = "node")
      (name : ∀ name, header.value? "name" = some name → name = "") :
      IsIdle (.ok (some header)) (some "node declaration has no name")
  | unused {header : Header} (node : header.tag ≠ "node") (resource : header.tag ≠ "ext_resource") :
      IsIdle (.ok (some header)) none

/-- Lines that are one section with an idle header and leave no quotation open. -/
structure IsIdleSection (lines : List (List Char)) (reason : Option String) : Prop where
  header : ∃ line ∈ lines.head?, IsIdle (Header.ofLine line) reason
  goesOn : ∀ i, ¬EndsSection lines.tail i
  closed : openAfterLines false lines.tail = false

/-- An entry that opens a section and declares nothing, except for an issue if there is a reason. -/
structure Entry.IsIdle (entry : Entry) (reason : Option String) : Prop where
  notProperty : ∀ text, entry ≠ .property text
  resource : entry.resource? = none
  record : ∀ n attached resources,
    (entry.declaration? n attached).bind (Declaration.record? resources) = none
  issue : ∀ n attached resources,
    (entry.declaration? n attached).bind (Declaration.issue? resources) =
      reason.map (Issue.malformed n)

private theorem IsIdle.exists_entry {line : List Char} {reason : Option String}
    (idle : IsIdle (Header.ofLine line) reason) :
    ∃ entry, Entry.ofLine? line = some entry ∧ entry.IsIdle reason := by
  generalize outcome : Header.ofLine line = found at idle
  cases idle with
  | broken fault =>
    exact ⟨.broken fault, Entry.ofLine?_eq_broken_iff.2 outcome, nofun, rfl, fun _ _ _ => rfl,
      fun _ _ _ => rfl⟩
  | unnamed tag name =>
    rename_i header
    have unnamed (n : Nat) : NodeRecord.ofHeader? header n = none :=
      Option.eq_none_iff_forall_ne_some.2 fun record declared =>
        have ⟨bound, nonempty, _⟩ := NodeRecord.ofHeader_eq_some_iff.1 declared
        nonempty (name _ bound)
    refine ⟨.opening header, Entry.ofLine?_eq_opening_iff.2 outcome, nofun, ?_, fun n _ _ => ?_,
      fun n _ _ => ?_⟩
    · simp [Entry.resource?, tag]
    · simp [Entry.declaration?, tag, unnamed, Declaration.record?]
    · simp [Entry.declaration?, tag, unnamed, Declaration.issue?]
  | unused node resource =>
    rename_i header
    refine ⟨.opening header, Entry.ofLine?_eq_opening_iff.2 outcome, nofun, ?_, fun n _ _ => ?_,
      fun n _ _ => ?_⟩
    · simp [Entry.resource?, resource]
    · simp [Entry.declaration?, node]
    · simp [Entry.declaration?, node]

theorem Entry.IsIdle.leavesOpen {entry : Entry} {reason : Option String}
    (idle : entry.IsIdle reason) : Entry.leavesOpen (some entry) = false := by
  cases entry with
  | property text => exact absurd rfl (idle.notProperty text)
  | opening header => rfl
  | broken fault => rfl

variable {lines : List (List Char)} {reason : Option String}

/-- Lines of which none ends a section are properties, as far as they say anything. -/
theorem areProperties_entries (goesOn : ∀ i, ¬EndsSection lines i) (n : Nat) :
    AreProperties (entries false (1 + n) lines) := by
  have said : (entries false 1 lines).map Prod.snd =
      (List.range lines.length).filterMap (entryAt? lines) := by
    refine collect_eq_filterMap rfl fun i => ?_
    rw [entriesFrom_eq]
    cases entryAt? lines i <;> rfl
  intro numbered mem
  rw [entries_add, List.mem_map] at mem
  obtain ⟨original, mem, rfl⟩ := mem
  have mem := List.mem_map_of_mem (f := Prod.snd) mem
  rw [said, mem_filterMap_range_iff fun _ => entryAt?_of_length_le] at mem
  obtain ⟨i, tells⟩ := mem
  have goes := goesOn i
  rw [endsSection_iff, tells] at goes
  cases eq : original.2 with
  | property text => exact ⟨text, eq⟩
  | opening header => exact absurd (.inl ⟨header, congrArg some eq⟩) goes
  | broken fault => exact absurd (.inr ⟨fault, congrArg some eq⟩) goes

/-- The entries of an idle section. -/
theorem IsIdleSection.entries_eq (idle : IsIdleSection lines reason) :
    openAfterLines false lines = false ∧ ∃ entry, entry.IsIdle reason ∧
      ∀ n, ∃ properties, AreProperties properties ∧
        entries false (1 + n) lines = (1 + n, entry) :: properties := by
  obtain ⟨line, head, outcome⟩ := idle.header
  obtain ⟨others, rfl⟩ := List.head?_eq_some_iff.1 head
  obtain ⟨entry, tells, nothing⟩ := outcome.exists_entry
  refine ⟨?_, entry, nothing, fun n =>
    ⟨_, areProperties_entries idle.goesOn (n + 1), ?_⟩⟩
  · rw [openAfterLines, tells, nothing.leavesOpen]
    exact idle.closed
  · rw [entries, tells, nothing.leavesOpen]
    rfl

/-- Where the first line ends the section above it, a section starts. -/
theorem startsSection_entries (ends : EndsSection lines 0) (n : Nat) :
    StartsSection (entries false n lines) := by
  cases lines with
  | nil => exact startsSection_nil
  | cons line rest =>
    intro m text head
    have tells : entryAt? (line :: rest) 0 = Entry.ofLine? line := rfl
    rw [entries] at head
    rcases endsSection_iff.1 ends with ⟨header, opens⟩ | ⟨fault, fails⟩
    · rw [← tells, opens] at head
      simp at head
    · rw [← tells, fails] at head
      simp at head

end Scene

namespace SceneFile

open Scene

/-- The file with one more issue, in its place by line. -/
def report (file : SceneFile) (issue : Issue) : SceneFile where
  records := file.records
  issues := file.issues.filter (·.line < issue.line) ++
    issue :: file.issues.filter (issue.line < ·.line)

/-- The file with the issue that a declaration on line `n` is left out, if there is a reason. -/
def reportMalformed (file : SceneFile) (n : Nat) (reason : Option String) : SceneFile :=
  reason.elim file fun reason => file.report (.malformed n reason)

variable {front properties back : List (Nat × Entry)} {n : Nat} {entry : Entry}
  {reason : Option String}

private theorem report_append {records : List NodeRecord} {above below : List Issue} {issue : Issue}
    (lt : ∀ other ∈ above, other.line < issue.line)
    (gt : ∀ other ∈ below, issue.line < other.line) :
    report ⟨records, above ++ below⟩ issue = ⟨records, above ++ issue :: below⟩ := by
  have front : (above ++ below).filter (·.line < issue.line) = above := by
    rw [List.filter_append, List.filter_eq_self.2 (by simpa using lt),
      List.filter_eq_nil_iff.2 (by simpa using fun other mem => Nat.le_of_lt (gt other mem)),
      List.append_nil]
  have back : (above ++ below).filter (issue.line < ·.line) = below := by
    rw [List.filter_append,
      List.filter_eq_nil_iff.2 (by simpa using fun other mem => Nat.le_of_lt (lt other mem)),
      List.nil_append, List.filter_eq_self.2 (by simpa using gt)]
  rw [report, front, back]

/-- An idle section between two sections is of no consequence, but for what is reported of it. -/
theorem ofEntries_insertIdle (idle : entry.IsIdle reason) (only : AreProperties properties)
    (starts : StartsSection back) (above : ∀ numbered ∈ front, numbered.1 < n)
    (below : ∀ numbered ∈ back, n < numbered.1) :
    ofEntries (front ++ ((n, entry) :: properties ++ back)) =
      (ofEntries (front ++ back)).reportMalformed n reason := by
  have opens : StartsSection ((n, entry) :: properties ++ back) := by
    intro m text head
    exact idle.notProperty text (congrArg Prod.snd (Option.some.inj head))
  have shared : resources (front ++ ((n, entry) :: properties ++ back)) =
      resources (front ++ back) := by
    rw [resources_append, resources_append, resources_append, resources_cons, idle.resource,
      only.resources_eq_nil]
    rfl
  have declared : declarations (front ++ ((n, entry) :: properties ++ back)) =
      declarations front ++ ((entry.declaration? n (sectionResource? properties)).toList ++
        declarations back) := by
    rw [declarations_append opens, declarations_append starts, declarations_cons,
      only.declarations_eq_nil, List.append_nil]
  have collected {α : Type} (collect : Declaration → Option α) (declaration : Option Declaration) :
      declaration.toList.filterMap collect = (declaration.bind collect).toList := by
    cases declaration with
    | none => rfl
    | some declaration => cases found : collect declaration <;> simp [found]
  rw [ofEntries, ofEntries, shared, declared, declarations_append starts]
  simp only [List.filterMap_append, collected, idle.record, idle.issue]
  cases reason with
  | none => rfl
  | some reason =>
    refine (report_append (fun other mem => ?_) fun other mem => ?_).symm
    · obtain ⟨entry, mem⟩ := exists_entry_of_mem_issues mem
      exact above _ mem
    · obtain ⟨entry, mem⟩ := exists_entry_of_mem_issues mem
      exact below _ mem

/-- **An idle section is of no consequence.** It is inserted between two lines of a text, the second
of which starts a section, or behind the last line, at a place where no quotation is open. Then the
same nodes with the same scripts are read, and the same issues, as without it, those behind the
place as many lines further down as the section takes; and if its header should have declared
something, there is one issue more, on the line of the header and in its place among the others. -/
theorem read_insertIdle {front block back : List Char}
    (place : back = [] ∨ EndsLine front ∧ EndsLine block ∧ EndsSection (lines back) 0)
    (closed : openAfterLines false (lines front) = false)
    (idle : IsIdleSection (lines block) reason) :
    read (String.ofList (closeLine front ++ block ++ back)) =
      ((read (String.ofList (front ++ back))).renumber
        (shiftLine (lines front).length (lines block).length)).reportMalformed
          ((lines front).length + 1) reason := by
  have join {s : List Char} (ends : back = [] ∨ EndsLine s) :
      lines (s ++ back) = lines s ++ lines back := by
    rcases ends with rfl | ends
    · rw [List.append_nil, lines, List.append_nil]
    · exact ends.lines_append back
  have starts (n : Nat) : StartsSection (entries false n (lines back)) := by
    rcases place with rfl | ⟨-, -, ends⟩
    · exact startsSection_nil
    · exact startsSection_entries ends n
  have front' := map_dropTrailingBlanks_closeLine front
  have length : (lines (closeLine front)).length = (lines front).length := by
    simpa only [List.length_map] using congrArg List.length front'
  have filled : 0 < (lines block).length := by
    obtain ⟨line, head, -⟩ := idle.header
    exact List.length_pos_of_mem (List.mem_of_mem_head? head)
  obtain ⟨closed', entry, nothing, tells⟩ := idle.entries_eq
  obtain ⟨properties, only, block'⟩ := tells (lines front).length
  rw [read, read, String.toList_ofList, String.toList_ofList, join (place.imp_right And.left),
    ← ofEntries_map, map_shiftLine_entries _ closed, List.append_assoc,
    (endsLine_closeLine front).lines_append, join (place.imp_right fun ends => ends.2.1),
    entries_append, openAfterLines_congr front', closed, entries_congr front', length,
    entries_append, closed', block', Nat.add_comm _ 1]
  refine ofEntries_insertIdle nothing only (starts _) (fun numbered mem => ?_)
    fun numbered mem => ?_
  · have bounds := bounds_of_mem_entries mem
    omega
  · have bounds := bounds_of_mem_entries mem
    omega

/-- Between a node with a script that is not declared and a node without a name, another node
without a name, with a script and with a text in which a line looks like a node. -/
theorem read_insertIdle_label :
    let front := "[node name=A]\nscript = ExtResource(9)\n".toList
    let block := "[node type=Label]\nscript = ExtResource(1)\ntext = \"\n[node name=B]\"\n".toList
    let back := "[node]\n[ext_resource id=1 path=a.gd]\n[node name=C]\n".toList
    let a : NodeRecord := ⟨"A", none, .absent, none, 1⟩
    let reason := "node declaration has no name"
    (EndsLine front ∧ EndsLine block ∧ EndsSection (lines back) 0) ∧
      openAfterLines false (lines front) = false ∧ IsIdleSection (lines block) (some reason) ∧
      read (String.ofList (closeLine front ++ block ++ back)) =
        { records := [a, ⟨"C", none, .absent, none, 9⟩]
          issues := [.unresolvedResource a "9", .malformed 3 reason, .malformed 7 reason] } := by
  intro front block back a reason
  have place : EndsLine front ∧ EndsLine block ∧ EndsSection (lines back) 0 := by decide +kernel
  have closed : openAfterLines false (lines front) = false := by decide +kernel
  have label : IsIdle (Header.ofLine "[node type=Label]".toList) (some reason) := by
    have opens : Entry.ofLine? "[node type=Label]".toList =
        some (.opening ⟨"node", [("type", "Label")]⟩) := by decide +kernel
    rw [Entry.ofLine?_eq_opening_iff.1 opens]
    exact .unnamed rfl nofun
  have ends : ∀ i < (lines block).tail.length, ¬EndsSection (lines block).tail i := by
    decide +kernel
  have idle : IsIdleSection (lines block) (some reason) :=
    ⟨⟨_, by decide +kernel, label⟩, fun i stop => ends i (lt_length_of_endsSection stop) stop,
      by decide +kernel⟩
  refine ⟨place, closed, idle, ?_⟩
  rw [read_insertIdle (.inr place) closed idle]
  decide +kernel

end SceneFile

end SceneAudit
