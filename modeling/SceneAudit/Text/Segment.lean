/-!
# Segments between slashes

Node paths and file paths are sequences of segments separated by single slashes. Every text has
at least one segment, which may be empty.

## Main definitions

* `Text.segments`, `Text.joinSegments`: a text cut at its slashes, and segments joined by slashes.
* `Text.finalSegment`, `Text.IsFinalSegment`: the last segment.
* `Text.segmentCount`: how many segments there are.

## Main results

* `Text.joinSegments_segments`: joining the segments of a text gives the text back.
* `Text.segments_joinSegments`: joined segments are taken apart again.
* `Text.joinSegments_append`: joining in two goes puts a slash in between.
* `Text.segments_append_slash`: cutting at a slash splits the segments.
* `Text.finalSegment_eq_iff`: the last segment stands behind the last slash.
-/

namespace SceneAudit.Text

/-- The pieces of a text between its slashes, in order. -/
def pieces : List Char → List (List Char)
  | [] => [[]]
  | c :: rest =>
    if c = '/' then [] :: pieces rest
    else
      match pieces rest with
      | [] => [[c]]
      | piece :: more => (c :: piece) :: more

/-- Pieces with a slash between any two neighbours. -/
def joinPieces : List (List Char) → List Char
  | [] => []
  | [piece] => piece
  | piece :: more => piece ++ '/' :: joinPieces more

/-- The segments of a path, in order. -/
def segments (path : String) : List String :=
  (pieces path.toList).map String.ofList

/-- The path with the given segments. -/
def joinSegments (parts : List String) : String :=
  String.ofList (joinPieces (parts.map String.toList))

/-- The last segment of a path, which is the path itself if it has no slash. -/
def finalSegment (path : String) : String :=
  (segments path).getLastD path

/-- A path ends with the given segment: with a text that has no slash in it and is the whole path or
stands behind a slash. -/
def IsFinalSegment (segment path : String) : Prop :=
  '/' ∉ segment.toList ∧ (path = segment ∨ ∃ front, path = front ++ "/" ++ segment)

/-- The number of segments of a path. -/
def segmentCount (path : String) : Nat :=
  (segments path).length

/-! ### Cutting and joining -/

theorem pieces_ne_nil (s : List Char) : pieces s ≠ [] := by
  cases s with
  | nil => simp [pieces]
  | cons c s =>
    rw [pieces]
    split
    · simp
    · split <;> simp

theorem joinPieces_cons_cons (piece next : List Char) (more : List (List Char)) :
    joinPieces (piece :: next :: more) = piece ++ '/' :: joinPieces (next :: more) := rfl

private theorem joinPieces_append {front back : List (List Char)} (hf : front ≠ [])
    (hb : back ≠ []) : joinPieces (front ++ back) = joinPieces front ++ '/' :: joinPieces back := by
  induction front with
  | nil => contradiction
  | cons piece more ih =>
    cases more with
    | nil =>
      obtain ⟨next, others, rfl⟩ := List.exists_cons_of_ne_nil hb
      rfl
    | cons next more =>
      rw [List.cons_append, List.cons_append, joinPieces_cons_cons, joinPieces_cons_cons,
        ← List.cons_append, ih (by simp), List.append_assoc, List.cons_append]

/-- Joining brings in slashes and nothing else. -/
theorem mem_joinPieces {parts : List (List Char)} {c : Char} (h : c ∈ joinPieces parts) :
    c = '/' ∨ ∃ piece ∈ parts, c ∈ piece := by
  induction parts with
  | nil => contradiction
  | cons piece more ih =>
    cases more with
    | nil => exact .inr ⟨piece, List.mem_cons_self, h⟩
    | cons next more =>
      rw [joinPieces_cons_cons, List.mem_append, List.mem_cons] at h
      rcases h with here | slash | later
      · exact .inr ⟨piece, List.mem_cons_self, here⟩
      · exact .inl slash
      · exact (ih later).imp_right fun ⟨other, mem, inside⟩ =>
          ⟨other, List.mem_cons_of_mem _ mem, inside⟩

theorem subset_joinPieces {parts : List (List Char)} {piece : List Char} (h : piece ∈ parts) :
    piece ⊆ joinPieces parts := by
  induction parts with
  | nil => contradiction
  | cons first more ih =>
    cases more with
    | nil =>
      obtain rfl := List.mem_singleton.1 h
      exact List.Subset.refl _
    | cons next more =>
      rw [joinPieces_cons_cons]
      rcases List.mem_cons.1 h with rfl | later
      · exact List.subset_append_left _ _
      · exact List.subset_append_of_subset_right _ (List.subset_cons_of_subset _ (ih later))

theorem joinPieces_pieces (s : List Char) : joinPieces (pieces s) = s := by
  induction s with
  | nil => rfl
  | cons c s ih =>
    cases h : pieces s with
    | nil => exact absurd h (pieces_ne_nil s)
    | cons piece more =>
      rw [h] at ih
      rw [pieces, h]
      split
      · rename_i hc
        rw [joinPieces_cons_cons, ih, List.nil_append, hc]
      · cases more with
        | nil =>
          simp only [joinPieces] at ih ⊢
          rw [ih]
        | cons next more =>
          rw [joinPieces_cons_cons] at ih
          rw [joinPieces_cons_cons, List.cons_append, ih]

theorem pieces_append_slash (s t : List Char) : pieces (s ++ '/' :: t) = pieces s ++ pieces t := by
  induction s with
  | nil => simp [pieces]
  | cons c s ih =>
    rw [List.cons_append, pieces, pieces, ih]
    split
    · rfl
    · cases h : pieces s with
      | nil => exact absurd h (pieces_ne_nil s)
      | cons piece more => rfl

/-- No piece has a slash in it. -/
theorem slash_not_mem_of_mem_pieces {s piece : List Char} (h : piece ∈ pieces s) : '/' ∉ piece := by
  induction s generalizing piece with
  | nil =>
    obtain rfl := List.mem_singleton.1 h
    exact List.not_mem_nil
  | cons c s ih =>
    rw [pieces] at h
    split at h
    · rcases List.mem_cons.1 h with rfl | later
      · exact List.not_mem_nil
      · exact ih later
    · rename_i other
      split at h
      · rename_i none
        exact absurd none (pieces_ne_nil s)
      · rename_i first more cut
        rcases List.mem_cons.1 h with rfl | later
        · rw [List.mem_cons, not_or]
          exact ⟨Ne.symm other, ih (cut ▸ List.mem_cons_self)⟩
        · exact ih (cut ▸ List.mem_cons_of_mem first later)

theorem pieces_of_no_slash {s : List Char} (h : '/' ∉ s) : pieces s = [s] := by
  induction s with
  | nil => rfl
  | cons c s ih =>
    simp only [List.mem_cons, not_or] at h
    simp [pieces, ih h.2, Ne.symm h.1]

/-- Cutting takes apart what was joined, if it was cut before. -/
theorem pieces_joinPieces {parts : List (List Char)} (nonempty : parts ≠ [])
    (cut : ∀ piece ∈ parts, '/' ∉ piece) : pieces (joinPieces parts) = parts := by
  induction parts with
  | nil => contradiction
  | cons piece more ih =>
    obtain ⟨first, others⟩ := List.forall_mem_cons.1 cut
    cases more with
    | nil => exact pieces_of_no_slash first
    | cons next more =>
      rw [joinPieces_cons_cons, pieces_append_slash, pieces_of_no_slash first,
        ih (List.cons_ne_nil next more) others, List.singleton_append]

theorem head?_joinPieces (c : Char) (piece : List Char) (more : List (List Char)) :
    (joinPieces ((c :: piece) :: more)).head? = some c := by
  cases more with
  | nil => rfl
  | cons next more => rfl

theorem segments_ne_nil (path : String) : segments path ≠ [] := by
  simp [segments, pieces_ne_nil]

theorem slash_not_mem_of_mem_segments {path part : String} (h : part ∈ segments path) :
    '/' ∉ part.toList := by
  obtain ⟨piece, mem, rfl⟩ := List.mem_map.1 h
  rw [String.toList_ofList]
  exact slash_not_mem_of_mem_pieces mem

/-- A segment is made of characters of the path. -/
theorem subset_of_mem_segments {path part : String} (h : part ∈ segments path) :
    part.toList ⊆ path.toList := by
  obtain ⟨piece, mem, rfl⟩ := List.mem_map.1 h
  have inside := subset_joinPieces mem
  rwa [joinPieces_pieces, ← @String.toList_ofList piece] at inside

/-- Joining segments brings in slashes and nothing else. -/
theorem mem_joinSegments {parts : List String} {c : Char} (h : c ∈ (joinSegments parts).toList) :
    c = '/' ∨ ∃ part ∈ parts, c ∈ part.toList := by
  rw [joinSegments, String.toList_ofList] at h
  rcases mem_joinPieces h with slash | ⟨piece, mem, inside⟩
  · exact .inl slash
  · obtain ⟨part, listed, rfl⟩ := List.mem_map.1 mem
    exact .inr ⟨part, listed, inside⟩

@[simp] theorem joinSegments_singleton (part : String) : joinSegments [part] = part := by
  simp [joinSegments, joinPieces]

/-- Joining segments in two goes puts a slash in between. -/
theorem joinSegments_append {front back : List String} (hf : front ≠ []) (hb : back ≠ []) :
    joinSegments (front ++ back) = joinSegments front ++ "/" ++ joinSegments back := by
  have slash : "/" = String.ofList ['/'] := rfl
  rw [joinSegments, List.map_append, joinPieces_append (by simpa using hf) (by simpa using hb),
    joinSegments, joinSegments, slash, ← String.ofList_append, ← String.ofList_append,
    List.append_assoc, List.singleton_append]

theorem joinSegments_map_ofList (parts : List (List Char)) :
    joinSegments (parts.map String.ofList) = String.ofList (joinPieces parts) := by
  have unwrap : String.toList ∘ String.ofList = id := funext fun _ => String.toList_ofList
  rw [joinSegments, List.map_map, unwrap, List.map_id]

/-- Joining the segments of a path gives the path back. -/
theorem joinSegments_segments (path : String) : joinSegments (segments path) = path := by
  rw [segments, joinSegments_map_ofList, joinPieces_pieces, String.ofList_toList]

/-- Joining segments and cutting them again gives the segments back. -/
theorem segments_joinSegments {parts : List String} (nonempty : parts ≠ [])
    (cut : ∀ part ∈ parts, '/' ∉ part.toList) : segments (joinSegments parts) = parts := by
  have wrap : String.ofList ∘ String.toList = id := funext fun _ => String.ofList_toList
  rw [segments, joinSegments, String.toList_ofList, pieces_joinPieces, List.map_map, wrap,
    List.map_id]
  · simpa using nonempty
  · intro piece mem
    obtain ⟨part, listed, rfl⟩ := List.mem_map.1 mem
    exact cut part listed

/-- Cutting at a slash splits the segments. -/
theorem segments_append_slash (s t : String) :
    segments (s ++ "/" ++ t) = segments s ++ segments t := by
  have slash : "/".toList = ['/'] := rfl
  simp only [segments, String.toList_append, slash, List.append_assoc, List.singleton_append,
    pieces_append_slash, List.map_append]

theorem segments_of_no_slash {s : String} (h : '/' ∉ s.toList) : segments s = [s] := by
  simp [segments, pieces_of_no_slash h]

/-- The last segment of a path is the one that the path ends with. -/
theorem finalSegment_eq_iff {segment path : String} :
    finalSegment path = segment ↔ IsFinalSegment segment path := by
  constructor
  · rintro rfl
    obtain ⟨front, last, cut⟩ := (List.eq_nil_or_concat (segments path)).resolve_left
      (segments_ne_nil path)
    rw [List.concat_eq_append] at cut
    have same : finalSegment path = last := by rw [finalSegment, cut, List.getLastD_concat]
    have listed : last ∈ segments path := cut ▸ List.mem_append_right front List.mem_cons_self
    refine ⟨same ▸ slash_not_mem_of_mem_segments listed, ?_⟩
    have joined := joinSegments_segments path
    rw [same, ← joined, cut]
    by_cases top : front = []
    · left
      rw [top, List.nil_append, joinSegments_singleton]
    · right
      exact ⟨joinSegments front, by
        rw [joinSegments_append top (List.cons_ne_nil _ _), joinSegments_singleton]⟩
  · rintro ⟨slash, rfl | ⟨front, rfl⟩⟩
    · rw [finalSegment, segments_of_no_slash slash]
      rfl
    · rw [finalSegment, segments_append_slash, segments_of_no_slash slash, List.getLastD_concat]

end SceneAudit.Text
