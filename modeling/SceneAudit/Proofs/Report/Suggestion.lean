import SceneAudit.Proofs.Report.Dangling
import SceneAudit.Proofs.Script.Replacement

/-!
# Following a suggestion

A finding about an unresolved reference may carry a canonical path of the scene to be written in its
place. Canonical paths are made of the names in the scene, in which almost every character can
stand, while a path in a script goes no further than word characters and single slashes do. So what
a script says after a suggestion was followed need not be the suggested path, but only the node path
at its front. The finding is gone unless this node path is one that dangles again, and it is gone
for sure if the suggestion is a node path as a whole.

## Main results

* `unresolved_replaceIn`: the findings about unresolved references after one path is replaced.
* `exists_unresolved_replaceIn_iff`: whether there is a finding on the line again.
* `unresolved_replaceIn_suggestion`: what is found after a suggestion was followed.
-/

namespace SceneAudit

open Scene Script

section Replacement

variable {scene text script code new : String} {index : PathIndex} {reference : Reference}

/-- No two references of a script stand on one line. -/
theorem Script.line_ne_of_mem {front back : List Reference}
    (eq : references code = front ++ reference :: back) {other : Reference}
    (mem : other ∈ front ++ back) : other.line ≠ reference.line := by
  have ordered := pairwise_line_references code
  rw [eq, List.pairwise_append, List.pairwise_cons] at ordered
  rcases List.mem_append.1 mem with earlier | later
  · exact Nat.ne_of_lt (ordered.2.2 other earlier reference List.mem_cons_self)
  · exact Nat.ne_of_gt (ordered.2.1.1 other later)

theorem Script.eq_of_line_eq {other : Reference} (mem : reference ∈ references code)
    (listed : other ∈ references code) (same : other.line = reference.line) :
    other = reference := by
  obtain ⟨front, back, eq⟩ := List.append_of_mem mem
  rw [eq, List.mem_append, List.mem_cons] at listed
  rcases listed with earlier | rfl | later
  · exact absurd same (line_ne_of_mem eq (List.mem_append_left back earlier))
  · rfl
  · exact absurd same (line_ne_of_mem eq (List.mem_append_right front later))

private theorem PathIndex.validate_append (index : PathIndex) (front back : List Reference)
    (scene script : String) :
    index.validate (front ++ back) scene script =
      index.validate front scene script ++ index.validate back scene script :=
  List.filterMap_append

/-- A finding about references is one about one of them, which dangles. -/
theorem PathIndex.mem_validate {references : List Reference} {finding : Diagnostic} :
    finding ∈ index.validate references scene script ↔
      ∃ reference ∈ references, reference.IsDangling index.paths ∧
        reference.unresolved (index.suggest? reference.path) scene script = finding := by
  simp only [PathIndex.validate_eq, List.mem_map, List.mem_filter, decide_eq_true_eq, and_assoc]

/-- The findings about unresolved references after the path of one of them is replaced: those on
other lines stay as they are, and the one on its line is found for what is read from the new
text. -/
theorem unresolved_replaceIn (found : (Analysis.ofText scene text).index? = some index)
    (feed : '\n' ∉ new.toList) (mem : reference ∈ references code) :
    ∃ front back : List Diagnostic,
      (checkTexts scene text (some (script, code))).unresolved =
        front ++ (index.validate [reference] scene script ++ back) ∧
      (checkTexts scene text (some (script, reference.replaceIn new code))).unresolved =
        front ++ (index.validate ((nodePath? new.toList).map reference.withPath).toList scene
          script ++ back) ∧
      ∀ other ∈ front ++ back, other.location ≠ .ofLine script reference.line := by
  obtain ⟨front, back, before, after⟩ := exists_references_replaceIn feed mem
  refine ⟨index.validate front scene script, index.validate back scene script, ?_, ?_, ?_⟩
  · rw [unresolved_checkTexts found, before, ← List.singleton_append, PathIndex.validate_append,
      PathIndex.validate_append]
  · rw [unresolved_checkTexts found, after, PathIndex.validate_append, PathIndex.validate_append]
  · intro other listed same
    rw [← PathIndex.validate_append, PathIndex.mem_validate] at listed
    obtain ⟨source, around, -, rfl⟩ := listed
    exact line_ne_of_mem before around (Option.some.inj (congrArg Location.line same))

/-- After the replacement there is a finding on the line if what is read there dangles. -/
theorem exists_unresolved_replaceIn_iff (script : String)
    (found : (Analysis.ofText scene text).index? = some index) (feed : '\n' ∉ new.toList)
    (mem : reference ∈ references code) :
    (∃ other ∈ (checkTexts scene text (some (script, reference.replaceIn new code))).unresolved,
        other.location = .ofLine script reference.line) ↔
      ∃ path, nodePath? new.toList = some path ∧
        (reference.withPath path).IsDangling index.paths := by
  obtain ⟨front, back, -, after, elsewhere⟩ := unresolved_replaceIn found feed mem
  rw [after]
  constructor
  · rintro ⟨other, listed, same⟩
    rcases List.mem_append.1 listed with earlier | listed
    · exact absurd same (elsewhere other (List.mem_append_left back earlier))
    · rcases List.mem_append.1 listed with here | later
      · obtain ⟨changed, read, dangling, -⟩ := PathIndex.mem_validate.1 here
        rw [Option.mem_toList, Option.map_eq_some_iff] at read
        obtain ⟨path, node, rfl⟩ := read
        exact ⟨path, node, dangling⟩
      · exact absurd same (elsewhere other (List.mem_append_right front later))
  · rintro ⟨path, node, dangling⟩
    have changed : (reference.withPath path).unresolved (index.suggest? (String.ofList path))
        scene script ∈ index.validate [reference.withPath path] scene script :=
      PathIndex.mem_validate.2 ⟨_, List.mem_singleton_self _, dangling, rfl⟩
    rw [node]
    exact ⟨_, List.mem_append_right front (List.mem_append_left back changed), rfl⟩

end Replacement

/-- **A suggestion is a fix if a script can spell it.** Let a finding about an unresolved reference
of a valid scene's script carry a suggestion, which is then written in place of the path of the
reference. Another finding stands on this line exactly if the node path that is read from the
suggestion dangles, and none does if the suggestion is a node path as a whole. -/
theorem unresolved_replaceIn_suggestion (scene text script code : String)
    (valid : (Analysis.ofText scene text).verdict = .valid) {finding : Diagnostic}
    (mem : finding ∈ (checkTexts scene text (some (script, code))).unresolved)
    {suggestion : String} (suggested : finding.suggestion = some suggestion) :
    ∃ reference ∈ references code, finding.location = .ofLine script reference.line ∧
      (∀ other ∈ references code, other.line = reference.line → other = reference) ∧
      let again := checkTexts scene text (some (script, reference.replaceIn suggestion code))
      ((∃ other ∈ again.unresolved, other.location = finding.location) ↔
        ∃ path, nodePath? suggestion.toList = some path ∧
          (reference.withPath path).IsDangling (Analysis.ofText scene text).canonicalPaths) ∧
      (IsNodePath suggestion →
        ∀ other ∈ again.unresolved, other.location ≠ finding.location) := by
  obtain ⟨tree, formed⟩ := Analysis.verdict_eq_valid_iff.1 valid
  have found := Analysis.index?_of_ok formed
  have paths := Analysis.canonicalPaths_of_ok formed
  rw [unresolved_checkTexts found, PathIndex.mem_validate] at mem
  obtain ⟨reference, listed, dangling, rfl⟩ := mem
  have canonical : suggestion ∈ (Analysis.ofText scene text).canonicalPaths :=
    paths ▸ PathIndex.suggest?_mem suggested
  have feed := Analysis.newline_not_mem_canonicalPath canonical
  have own := exists_unresolved_replaceIn_iff script found feed listed
  refine ⟨reference, listed, rfl, fun other => eq_of_line_eq listed, paths ▸ own, ?_⟩
  intro node other again same
  obtain ⟨path, read, missing, -⟩ := own.1 ⟨other, again, same⟩
  rw [nodePath?_of_isNodePath node, Option.some.injEq] at read
  subst read
  exact missing (by rwa [Reference.withPath, String.ofList_toList, ← paths])

/-- A scene with a node two levels below its root. -/
def topScene : String :=
  "[node name=\"Hud\"]\n[node name=\"Top\" parent=\".\"]\n[node name=\"Score\" parent=\"Top\"]\n"

theorem unresolved_replaceIn_suggestion_score :
    (Analysis.ofText "hud.tscn" topScene).verdict = .valid ∧
      ∃ finding ∈ (checkTexts "hud.tscn" topScene
          (some ("hud.gd", "var score = $Top/Scor\n"))).unresolved,
        finding.suggestion = some "Top/Score" ∧
          ∀ other ∈ (checkTexts "hud.tscn" topScene
              (some ("hud.gd", "var score = $Top/Score\n"))).unresolved,
            other.location ≠ finding.location := by
  have valid : (Analysis.ofText "hud.tscn" topScene).verdict = .valid := by decide +kernel
  have mem : (⟨1, "score", "Top/Scor", false⟩ : Reference).unresolved (some "Top/Score") "hud.tscn"
      "hud.gd" ∈ (checkTexts "hud.tscn" topScene
        (some ("hud.gd", "var score = $Top/Scor\n"))).unresolved := by
    decide +kernel
  obtain ⟨reference, listed, -, -, -, fixed⟩ :=
    unresolved_replaceIn_suggestion "hud.tscn" topScene "hud.gd" _ valid mem rfl
  have only : references "var score = $Top/Scor\n" = [⟨1, "score", "Top/Scor", false⟩] := by
    decide +kernel
  obtain rfl := List.mem_singleton.1 (only ▸ listed)
  have edited : (⟨1, "score", "Top/Scor", false⟩ : Reference).replaceIn "Top/Score"
      "var score = $Top/Scor\n" = "var score = $Top/Score\n" := by
    decide +kernel
  rw [edited] at fixed
  exact ⟨valid, _, mem, rfl, fixed (by decide +kernel)⟩

/-- A scene with a node whose name has a blank in it. -/
def labelScene : String :=
  "[node name=\"Hud\"]\n[node name=\"Score Label\" parent=\".\"]\n"

/-- Where a name has a blank in it, the suggestion is not a fix: the script refers to the part in
front of the blank as before. -/
theorem unresolved_replaceIn_label :
    (Analysis.ofText "hud.tscn" labelScene).verdict = .valid ∧
      ∃ finding ∈ (checkTexts "hud.tscn" labelScene
          (some ("hud.gd", "var label = $Score\n"))).unresolved,
        ∃ reference ∈ references "var label = $Score\n",
          finding.location = .ofLine "hud.gd" reference.line ∧
          finding.suggestion = some "Score Label" ∧
          reference.replaceIn "Score Label" "var label = $Score\n" =
            "var label = $Score Label\n" ∧
          ∃ other ∈ (checkTexts "hud.tscn" labelScene
              (some ("hud.gd", "var label = $Score Label\n"))).unresolved,
            other.location = finding.location := by
  have before : (⟨1, "label", "Score", false⟩ : Reference).unresolved (some "Score Label")
      "hud.tscn" "hud.gd" ∈ (checkTexts "hud.tscn" labelScene
        (some ("hud.gd", "var label = $Score\n"))).unresolved := by
    decide +kernel
  have after : (⟨1, "label", "Score", false⟩ : Reference).unresolved (some "Score Label")
      "hud.tscn" "hud.gd" ∈ (checkTexts "hud.tscn" labelScene
        (some ("hud.gd", "var label = $Score Label\n"))).unresolved := by
    decide +kernel
  refine ⟨by decide +kernel, _, before, ⟨1, "label", "Score", false⟩, by decide +kernel, rfl, rfl,
    by decide +kernel, _, after, rfl⟩

end SceneAudit
