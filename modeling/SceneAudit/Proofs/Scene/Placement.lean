import SceneAudit.Proofs.Scene.Attachment
import SceneAudit.Proofs.Scene.Reading
import SceneAudit.Proofs.StableSort

/-!
# Where nodes and issues stand

The declarations of a scene stand on different lines, and what a declaration gives rise to carries
its line. So the nodes and the issues on a line are those of the one declaration on it: a node, an
issue that a header is left out, or a node together with the issue that its resource is not
declared.

An issue of the last kind is known only when the whole file has been read. The issues can thus be
found in two passes, in which they come in two runs, each in the order of the lines; since no two
issues share a line, sorting puts the runs together in only one way.

## Main definitions

* `SceneFile.recordsAt`, `SceneFile.malformedAt`: the nodes on a line, and the issues about headers
  on it that are left out.
* `Scene.issuesByPass`: the issues as two passes find them.
* `SceneFile.StandsOn`: the nodes and the issues of a file are where its lines are.

## Main results

* `Scene.filter_filterMap_declarations`: what carries a line is made of the declaration on it.
* `SceneFile.pairwise_line_records`: nodes stand on different lines, in the order of the lines.
* `SceneFile.issues_eq_mergeSort`: the issues are those of the two passes, sorted by line.
* `SceneFile.read_standsOn`: where the nodes and the issues of a scene are.
-/

namespace SceneAudit

open Text

namespace Scene

variable {lines : List (List Char)} {resources : List (String × String)}

/-! ### What carries a line -/

section

variable {α : Type} {at? : Nat → Option α} {collect : Declaration → Option α} {line : α → Nat}

/-- If what is found at a position carries its line, all that carries a line is found there. -/
theorem filter_filterMap_range (carries : ∀ i a, at? i = some a → line a = i + 1)
    (length i : Nat) :
    ((List.range length).filterMap at?).filter (fun a => line a = i + 1) =
      if i < length then (at? i).toList else [] := by
  induction length with
  | zero => rfl
  | succ length ih =>
    have last : ((at? length).toList.filter fun a => line a = i + 1) =
        if i = length then (at? i).toList else [] := by
      cases found : at? length with
      | none =>
        split
        · rename_i same
          rw [same, found]
          rfl
        · rfl
      | some a =>
        have own := carries length a found
        split
        · rename_i same
          simp [same, found, own]
        · rename_i other
          simp [own, Ne.symm other]
    have single : [length].filterMap at? = (at? length).toList := by
      cases found : at? length <;> simp [found]
    rw [List.range_succ, List.filterMap_append, List.filter_append, ih, single, last]
    rcases Nat.lt_trichotomy i length with lt | rfl | gt
    · rw [if_pos lt, if_neg (Nat.ne_of_lt lt), if_pos (Nat.lt_succ_of_lt lt), List.append_nil]
    · rw [if_neg (Nat.lt_irrefl i), if_pos rfl, if_pos (Nat.lt_succ_self i), List.nil_append]
    · rw [if_neg (Nat.lt_asymm gt), if_neg (Nat.ne_of_gt gt), if_neg (Nat.not_lt.2 gt),
        List.append_nil]

/-- What is collected from the declarations of a scene and carries a line is made of the declaration
on this line. -/
theorem filter_filterMap_declarations
    (carries : ∀ declaration a, collect declaration = some a → line a = declaration.line)
    (lines : List (List Char)) (i : Nat) :
    ((declarations (entries false 1 lines)).filterMap collect).filter
        (fun a => line a = i + 1) =
      ((declarationAt? lines i).bind collect).toList := by
  rw [declarations_eq_filterMap, List.filterMap_filterMap, filter_filterMap_range]
  · split
    · rfl
    · rename_i behind
      rw [declarationAt?_of_length_le (Nat.le_of_not_lt behind)]
      rfl
  · intro j a found
    obtain ⟨declaration, declares, made⟩ := Option.bind_eq_some_iff.1 found
    rw [carries declaration a made, line_of_declarationAt? declares]

end

/-! ### Declarations -/

namespace Declaration

/-- A node stands on the line of its declaration. -/
theorem line_of_record? {declaration : Declaration} {record : NodeRecord}
    (h : declaration.record? resources = some record) : record.line = declaration.line := by
  cases declaration with
  | node declared resource => exact Option.some.inj h ▸ rfl
  | broken | unnamed => contradiction

/-- The only issue that a node gives rise to is that its resource is unresolved. -/
private theorem kind_of_issue?_node {record : NodeRecord} {resource : Option String} {issue : Issue}
    (h : (node record resource).issue? resources = some issue) :
    issue.kind = .scriptResourceUnresolved := by
  cases resource with
  | none => contradiction
  | some id =>
    rw [issue?] at h
    split at h
    · contradiction
    · exact Option.some.inj h ▸ rfl

/-- Whether a node is declared. -/
def isNode : Declaration → Bool
  | node .. => true
  | broken .. | unnamed _ => false

end Declaration

/-- A declaration stands on one of the lines. -/
theorem bounds_of_mem_declarations {declaration : Declaration}
    (h : declaration ∈ declarations (entries false 1 lines)) :
    1 ≤ declaration.line ∧ declaration.line ≤ lines.length := by
  obtain ⟨i, declares⟩ := mem_declarations_iff.1 h
  rw [line_of_declarationAt? declares]
  refine ⟨Nat.succ_pos i, Nat.lt_of_not_le fun behind => ?_⟩
  rw [declarationAt?_of_length_le behind] at declares
  contradiction

/-- The header of a node declares a node or that its name is missing. -/
private theorem declarationAt?_of_node {i : Nat} {header : Header}
    (opens : ReadsAt lines i (.ok (some header))) (tag : header.tag = "node") :
    (∃ record resource, declarationAt? lines i = some (.node record resource)) ∨
      declarationAt? lines i = some (.unnamed (i + 1)) := by
  rw [declarationAt?, entryAt?_eq_opening_iff.2 opens, Option.bind_some, Entry.declaration?]
  rw [if_pos tag]
  cases NodeRecord.ofHeader? header (i + 1) with
  | none => exact .inr rfl
  | some record => exact .inl ⟨record, _, rfl⟩

/-! ### Two passes -/

/-- The issues as two passes find them: first the headers that are left out, and then, when all
resources are known, the nodes whose resource is not declared. -/
def issuesByPass (resources : List (String × String)) (declarations : List Declaration) :
    List Issue :=
  (declarations.filter fun declaration => !declaration.isNode).filterMap
      (Declaration.issue? resources) ++
    (declarations.filter Declaration.isNode).filterMap (Declaration.issue? resources)

/-- The first pass finds the header on line 3, the second one the resource of the node on line 1. -/
example :
    let scene := ["[node name=A]\n", "script = ExtResource(9)\n", "[node]\n"].flatMap String.toList
    (issuesByPass [] (declarations (entries false 1 (Text.lines scene)))).map Issue.line =
      [3, 1] := by
  decide +kernel

private theorem issuesByPass_perm (declarations : List Declaration) :
    (issuesByPass resources declarations).Perm
      (declarations.filterMap (Declaration.issue? resources)) := by
  rw [issuesByPass, ← List.filterMap_append]
  refine List.Perm.filterMap _ (List.perm_append_comm.trans ?_)
  exact List.filter_append_perm Declaration.isNode declarations

end Scene

namespace SceneFile

open Scene

variable {text : String} {i : Nat}

/-- The nodes on line `n`. -/
def recordsAt (file : SceneFile) (n : Nat) : List NodeRecord :=
  file.records.filter fun record => record.line = n

/-- The issues on line `n` that a header is left out. -/
def malformedAt (file : SceneFile) (n : Nat) : List Issue :=
  file.issues.filter fun issue => issue.kind = .malformedDeclaration && issue.line = n

/-- The nodes and the issues of a file are where its lines are. -/
structure StandsOn (file : SceneFile) (lines : List (List Char)) : Prop where
  /-- Nodes stand on different lines, in the order of the lines. -/
  records_increase : file.records.Pairwise fun one other => one.line < other.line
  /-- Issues stand on different lines, in the order of the lines. -/
  issues_increase : file.issues.Pairwise fun one other => one.line < other.line
  record_within : ∀ record ∈ file.records, 1 ≤ record.line ∧ record.line ≤ lines.length
  issue_within : ∀ issue ∈ file.issues, 1 ≤ issue.line ∧ issue.line ≤ lines.length
  record_named : ∀ record ∈ file.records, record.name ≠ ""
  /-- No node stands where a header is left out. -/
  malformed_apart : ∀ issue ∈ file.issues, issue.kind = .malformedDeclaration →
    ∀ record ∈ file.records, record.line ≠ issue.line
  /-- A resource is unresolved where a node stands, which has no script. -/
  unresolved_at_node : ∀ issue ∈ file.issues, issue.kind = .scriptResourceUnresolved →
    ∃ record ∈ file.records, record.line = issue.line ∧ record.script = none
  /-- The header of a node outside of quotations is either a node or left out, and not twice. -/
  node_once : ∀ i header, ReadsAt lines i (.ok (some header)) → header.tag = "node" →
    (file.recordsAt (i + 1)).length + (file.malformedAt (i + 1)).length = 1

/-- The node on a line is the one that the line declares. -/
private theorem recordsAt_read (text : String) (i : Nat) :
    (read text).recordsAt (i + 1) =
      ((declarationAt? (lines text.toList) i).bind
        (Declaration.record? (resourcesOf text))).toList :=
  filter_filterMap_declarations (fun _ _ => Declaration.line_of_record?) _ i

/-- The issue on a line is the one that its declaration gives rise to. -/
theorem issuesAt_read (text : String) (i : Nat) :
    (read text).issues.filter (fun issue => issue.line = i + 1) =
      ((declarationAt? (lines text.toList) i).bind
        (Declaration.issue? (resourcesOf text))).toList :=
  filter_filterMap_declarations (fun _ _ => Declaration.line_of_issue?) _ i

private theorem malformedAt_read (text : String) (i : Nat) :
    (read text).malformedAt (i + 1) =
      (((declarationAt? (lines text.toList) i).bind
        (Declaration.issue? (resourcesOf text))).toList).filter fun issue =>
          issue.kind = .malformedDeclaration := by
  rw [← issuesAt_read, malformedAt, List.filter_filter]

/-- Nodes stand on different lines, in the order of the lines. -/
theorem pairwise_line_records (text : String) :
    (read text).records.Pairwise fun one other => one.line < other.line := by
  refine List.pairwise_filterMap.2 ((pairwise_line_declarations _).imp ?_)
  intro one other lt record found record' found'
  rwa [Declaration.line_of_record? found, Declaration.line_of_record? found']

private theorem bounds_of_mem_records {record : NodeRecord} (h : record ∈ (read text).records) :
    1 ≤ record.line ∧ record.line ≤ (lines text.toList).length := by
  obtain ⟨declaration, declared, found⟩ := List.mem_filterMap.1 h
  rw [Declaration.line_of_record? found]
  exact bounds_of_mem_declarations declared

theorem bounds_of_mem_issues {issue : Issue} (h : issue ∈ (read text).issues) :
    1 ≤ issue.line ∧ issue.line ≤ (lines text.toList).length := by
  obtain ⟨declaration, declared, found⟩ := List.mem_filterMap.1 h
  rw [Declaration.line_of_issue? found]
  exact bounds_of_mem_declarations declared

/-- An issue is the one that the declaration on its line gives rise to. -/
theorem exists_of_mem_issues {issue : Issue} (h : issue ∈ (read text).issues) :
    ∃ i, issue.line = i + 1 ∧ (declarationAt? (lines text.toList) i).bind
      (Declaration.issue? (resourcesOf text)) = some issue := by
  obtain ⟨i, line⟩ := Nat.exists_eq_add_of_le' (bounds_of_mem_issues h).1
  refine ⟨i, line, ?_⟩
  rw [← Option.mem_toList, ← issuesAt_read, List.mem_filter, decide_eq_true_eq]
  exact ⟨h, line⟩

/-- The issues are those of the two passes, sorted by line. -/
theorem issues_eq_mergeSort (text : String) :
    (read text).issues =
      (issuesByPass (resourcesOf text)
        (declarations (entries false 1 (lines text.toList)))).mergeSort
          fun one other => one.line ≤ other.line := by
  have trans : ∀ a b c : Issue, decide (a.line ≤ b.line) = true →
      decide (b.line ≤ c.line) = true → decide (a.line ≤ c.line) = true := by
    intro a b c hab hbc
    rw [decide_eq_true_eq] at *
    exact Nat.le_trans hab hbc
  have total : ∀ a b : Issue, (decide (a.line ≤ b.line) || decide (b.line ≤ a.line)) = true := by
    intro a b
    rw [Bool.or_eq_true, decide_eq_true_eq, decide_eq_true_eq]
    exact Nat.le_total a.line b.line
  have ordered : (read text).issues.Pairwise fun one other =>
      decide (one.line ≤ other.line) = true :=
    (pairwise_line_issues text).imp fun lt => decide_eq_true (Nat.le_of_lt lt)
  -- Two issues that tie share their line, on which there is one declaration.
  have discerned : ∀ a ∈ (read text).issues, ∀ b ∈ (read text).issues,
      StableSort.ties (fun one other => one.line ≤ other.line) a b = true → a = b := by
    intro a mem b mem' tie
    obtain ⟨i, line, made⟩ := exists_of_mem_issues mem
    obtain ⟨j, line', made'⟩ := exists_of_mem_issues mem'
    rw [StableSort.ties_iff, decide_eq_true_eq, decide_eq_true_eq, line, line'] at tie
    obtain rfl : i = j := by omega
    exact Option.some.inj (made.symm.trans made')
  calc
    (read text).issues = (read text).issues.mergeSort fun one other => one.line ≤ other.line :=
      (List.mergeSort_of_pairwise ordered).symm
    _ = _ := StableSort.mergeSort_eq_mergeSort_of_perm trans total (issuesByPass_perm _).symm
      discerned

/-- **Where the nodes and the issues of a scene are.** Nodes stand on different lines of the scene,
and so do issues, both in the order of the lines. Every node has a name. No node stands on the line
of a header that is left out; a resource is unresolved on the line of a node, which has no script;
and the header of a node that stands outside of quotations is either a node or left out, and this
once. The issues are those that two passes find, sorted by line. -/
theorem read_standsOn (text : String) :
    (read text).StandsOn (lines text.toList) ∧
      (read text).issues =
        (issuesByPass (resourcesOf text)
          (declarations (entries false 1 (lines text.toList)))).mergeSort
            fun one other => one.line ≤ other.line := by
  refine ⟨?_, issues_eq_mergeSort text⟩
  constructor
  case records_increase => exact pairwise_line_records text
  case issues_increase => exact pairwise_line_issues text
  case record_within => exact fun record => bounds_of_mem_records
  case issue_within => exact fun issue => bounds_of_mem_issues
  case record_named => exact name_ne_empty
  case malformed_apart =>
    intro issue mem kind record mem' same
    obtain ⟨i, line, made⟩ := exists_of_mem_issues mem
    obtain ⟨j, declared, resource, declares, rfl⟩ := mem_records_iff.1 mem'
    have line' : declared.line = j + 1 := line_of_declarationAt? declares
    obtain rfl : j = i := Nat.succ.inj (line'.symm.trans (same.trans line))
    rw [declares, Option.bind_some] at made
    rw [Declaration.kind_of_issue?_node made] at kind
    contradiction
  case unresolved_at_node =>
    intro issue mem kind
    obtain ⟨i, record, id, declares, missing, rfl⟩ := mem_unresolved_iff.1 ⟨mem, kind⟩
    exact ⟨_, mem_records_iff.2 ⟨i, record, some id, declares, rfl⟩, rfl, missing⟩
  case node_once =>
    intro i header opens tag
    rw [recordsAt_read, malformedAt_read]
    rcases declarationAt?_of_node opens tag with ⟨record, resource, declares⟩ | declares
    · have none : (((Declaration.node record resource).issue? (resourcesOf text)).toList.filter
          fun issue => issue.kind = .malformedDeclaration) = [] := by
        refine List.filter_eq_nil_iff.2 fun issue mem => ?_
        rw [Declaration.kind_of_issue?_node (Option.mem_toList.1 mem)]
        decide
      rw [declares, Option.bind_some, Option.bind_some, none]
      rfl
    · rw [declares]
      rfl

end SceneFile

end SceneAudit
