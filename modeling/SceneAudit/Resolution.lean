import SceneAudit.PathIndex

/-!
# Resolving node references

A reference in a script is resolved against the canonical paths of a scene. It names a node if it
is the node's canonical path; a reference without slashes also resolves to every node whose path
ends with it. For an unresolved reference a path is suggested that ends with the same segment or,
failing that, whose last segment contains or is contained in the reference's last segment, the
letters of ASCII being compared without regard to case.

## Main definitions

* `Resolution`, `PathIndex.resolve`: what a reference stands for.
* `PathIndex.suggest?`: the path suggested for a reference.
* `PathIndex.exactCandidates`, `PathIndex.looseCandidates`: the two groups of paths that are
  considered, the second only if the first is empty.
* `shortestPath?`: the path with the fewest segments, the earliest if there are several.

## Main results

* `isInfix_iff`: the test for one text inside another is right.
* `shortestPath?_eq_none_iff`, `shortestPath?_mem`: a shortest path exists unless there is no path.
* `shortestPath?_eq_some_iff`: it is shorter than every path before it, and no path is shorter.
* `PathIndex.suggest?_mem`: a suggestion is a canonical path.
-/

namespace SceneAudit

/-- What a reference stands for. -/
inductive Resolution where
  /-- The node with that canonical path. -/
  | exact (id : Nat)
  /-- The nodes whose path ends with the reference, in depth-first order. -/
  | bareName (ids : List Nat)
  /-- No node; possibly a path that may have been meant. -/
  | unresolved (suggestion : Option String)
  deriving DecidableEq, Repr

/-- Whether a reference stands for some node. -/
def Resolution.isResolved : Resolution → Bool
  | exact _ | bareName _ => true
  | unresolved _ => false

/-! ### Candidates -/

/-- Whether `piece` occurs in the text. -/
def isInfix (piece : List Char) : List Char → Bool
  | [] => piece.isEmpty
  | c :: rest => piece.isPrefixOf (c :: rest) || isInfix piece rest

theorem isInfix_iff {piece s : List Char} : isInfix piece s = true ↔ piece <:+: s := by
  induction s with
  | nil => simp [isInfix]
  | cons c s ih =>
    rw [isInfix, Bool.or_eq_true, List.isPrefixOf_iff_prefix, ih, List.infix_cons_iff]

/-- The path with the fewest segments, the earliest of the list if there are several. -/
def shortestPath? : List String → Option String
  | [] => none
  | path :: rest =>
    match shortestPath? rest with
    | none => some path
    | some other =>
      if Text.segmentCount path ≤ Text.segmentCount other then some path else some other

theorem shortestPath?_eq_none_iff {paths : List String} :
    shortestPath? paths = none ↔ paths = [] := by
  cases paths with
  | nil => simp [shortestPath?]
  | cons path rest =>
    simp only [shortestPath?, reduceCtorEq, iff_false]
    split
    · simp
    · split <;> simp

theorem shortestPath?_mem {paths : List String} {path : String}
    (h : shortestPath? paths = some path) : path ∈ paths := by
  induction paths generalizing path with
  | nil => simp [shortestPath?] at h
  | cons first rest ih =>
    rw [shortestPath?] at h
    split at h
    · simp only [Option.some.injEq] at h
      simp [h]
    · rename_i other found
      split at h <;> simp only [Option.some.injEq] at h
      · simp [h]
      · exact List.mem_cons_of_mem _ (h ▸ ih found)

/-- The shortest path of a list is shorter than every path before it and not longer than any path
behind it. -/
theorem shortestPath?_eq_some_iff {paths : List String} {path : String} :
    shortestPath? paths = some path ↔
      ∃ front back, paths = front ++ path :: back ∧
        (∀ other ∈ front, Text.segmentCount path < Text.segmentCount other) ∧
        ∀ other ∈ back, Text.segmentCount path ≤ Text.segmentCount other := by
  induction paths generalizing path with
  | nil => simp [shortestPath?]
  | cons first rest ih =>
    constructor
    · intro h
      rw [shortestPath?] at h
      split at h
      · rename_i empty
        obtain rfl := Option.some.inj h
        obtain rfl := shortestPath?_eq_none_iff.1 empty
        exact ⟨[], [], rfl, List.forall_mem_nil _, List.forall_mem_nil _⟩
      · rename_i other found
        obtain ⟨front, back, rfl, before, after⟩ := ih.1 found
        split at h
        · rename_i le
          obtain rfl := Option.some.inj h
          refine ⟨[], front ++ other :: back, rfl, List.forall_mem_nil _, fun next mem => ?_⟩
          rcases List.mem_append.1 mem with earlier | later
          · exact Nat.le_trans le (Nat.le_of_lt (before next earlier))
          · rcases List.mem_cons.1 later with rfl | later
            · exact le
            · exact Nat.le_trans le (after next later)
        · rename_i longer
          obtain rfl := Option.some.inj h
          exact ⟨first :: front, back, rfl,
            List.forall_mem_cons.2 ⟨Nat.lt_of_not_le longer, before⟩, after⟩
    · rintro ⟨front, back, eq, before, after⟩
      cases front with
      | nil =>
        obtain ⟨rfl, rfl⟩ := List.cons.inj eq
        rw [shortestPath?]
        cases found : shortestPath? rest with
        | none => rfl
        | some other => exact if_pos (after other (shortestPath?_mem found))
      | cons _ front =>
        obtain ⟨rfl, rfl⟩ := List.cons.inj eq
        obtain ⟨longer, others⟩ := List.forall_mem_cons.1 before
        rw [shortestPath?, ih.2 ⟨front, back, rfl, others, after⟩]
        exact if_neg (Nat.not_le_of_lt longer)

namespace PathIndex

/-- The canonical paths with the given last segment. -/
def exactCandidates (index : PathIndex) (target : String) : List String :=
  (index.withFinalSegment target).map Prod.fst

/-- Whether one of two segments contains the other, ASCII letters taken in lower case. -/
def overlaps (segment target : String) : Bool :=
  let segment := segment.toList.map Char.toLower
  let target := target.toList.map Char.toLower
  isInfix target segment || isInfix segment target

/-- The canonical paths whose last segment contains `target` or is contained in it. -/
def looseCandidates (index : PathIndex) (target : String) : List String :=
  index.paths.filter fun path => overlaps (Text.finalSegment path) target

/-- The path suggested for a reference, which needs a last segment that is not empty. -/
def suggest? (index : PathIndex) (reference : String) : Option String :=
  let target := Text.finalSegment reference
  if target = "" then none
  else
    (shortestPath? (index.exactCandidates target)).or
      (shortestPath? (index.looseCandidates target))

/-- What a reference stands for. -/
def resolve (index : PathIndex) (reference : String) : Resolution :=
  match index.get? reference with
  | some id => .exact id
  | none =>
    let named := (index.withFinalSegment reference).map Prod.snd
    if '/' ∉ reference.toList ∧ named ≠ [] then .bareName named
    else .unresolved (index.suggest? reference)

private theorem mem_paths_of_mem_exactCandidates {index : PathIndex} {target path : String}
    (h : path ∈ index.exactCandidates target) : path ∈ index.paths := by
  obtain ⟨entry, mem, rfl⟩ := List.mem_map.1 h
  exact List.mem_map.2 ⟨entry, (List.mem_filter.1 mem).1, rfl⟩

/-- A suggestion is a canonical path of the scene. -/
theorem suggest?_mem {index : PathIndex} {reference path : String}
    (h : index.suggest? reference = some path) : path ∈ index.paths := by
  simp only [suggest?] at h
  split at h
  · simp at h
  · rcases Option.or_eq_some_iff.1 h with h | ⟨-, h⟩
    · exact mem_paths_of_mem_exactCandidates (shortestPath?_mem h)
    · exact (List.mem_filter.1 (shortestPath?_mem h)).1

end PathIndex

end SceneAudit
