import SceneAudit.Proofs.Disk.LegalTree

/-!
# Following paths

A path that is joined to another one is followed from the place where the other one leads. From a
place in the tree every step goes where the part says, provided something is there; and proper names
lead to whatever is at the end of their way, unless a directory on it is barred.

## Main definitions

* `DiskPath.staysInside`: whether a path never leads above its start on the way.
* `Disk.origin`: where a path starts.
* `Disk.barrier?`: the first directory along some names that is barred.
* `Disk.refusalBelow?`: why what is found under some names below a path is not opened.

## Main results

* `DiskPath.exists_segments_join`: the segments of a path that is joined to another one.
* `Disk.follow_eq_ok_iff`: when a path leads somewhere.
* `Disk.follow_join_iff`: a joined path is followed from the place of the other one.
* `Disk.foldlM_step_eq_ok`: where the parts of a path lead.
* `Disk.foldlM_step_names`: names lead to what is at the end of their way, or to a barred directory.
* `Disk.foldlM_step_of_lost`: no path inside leads out of a removed directory.
* `Disk.find_eq_ok_iff`: what is found at the end of a path.
* `Disk.read_join_names`: what is read under names below a place.
-/

namespace SceneAudit

open Text

namespace DiskPath

variable {base path : String}

/-- Whether none of the double dots leads above the start, which is `depth` levels up. -/
def staysInside : Nat → List String → Bool
  | _, [] => true
  | depth, part :: parts =>
    if part = "" ∨ part = "." then staysInside depth parts
    else if part = ".." then 0 < depth && staysInside (depth - 1) parts
    else staysInside (depth + 1) parts

private theorem exists_of_ends_with_slash (nonempty : base ≠ "")
    (ends : base.toList.getLast?.any (· ≠ '/') = false) : ∃ front, base = front ++ "/" := by
  cases last : base.toList.getLast? with
  | none =>
    rw [List.getLast?_eq_none_iff, String.toList_eq_nil_iff] at last
    exact absurd last nonempty
  | some c =>
    obtain ⟨front, eq⟩ := List.getLast?_eq_some_iff.1 last
    have slash : c = '/' := by simpa [last] using ends
    refine ⟨String.ofList front, String.toList_inj.1 ?_⟩
    rw [String.toList_append, String.toList_ofList, eq, slash]
    rfl

/-- The segments of a relative path that is joined to another one follow those of the other, except
for the empty segment after a slash at its end. -/
theorem exists_segments_join (nonempty : base ≠ "") (relative : isAbsolute path = false) :
    ∃ front, front ≠ [] ∧ segments (join base path) = front ++ segments path ∧
      (segments base = front ∨ segments base = front ++ [""]) := by
  rw [join, relative]
  split
  · contradiction
  · split
    · exact ⟨segments base, segments_ne_nil base, segments_append_slash base path, .inl rfl⟩
    · rename_i ends
      obtain ⟨front, rfl⟩ := exists_of_ends_with_slash nonempty (Bool.eq_false_iff.2 ends)
      refine ⟨segments front, segments_ne_nil front, segments_append_slash front path, .inr ?_⟩
      have cut := segments_append_slash front ""
      rwa [String.append_empty] at cut

theorem exists_join (base : String) (relative : isAbsolute path = false) :
    ∃ rest, join base path = base ++ rest := by
  rw [join, relative]
  split
  · contradiction
  · split
    · exact ⟨"/" ++ path, String.append_assoc⟩
    · exact ⟨path, rfl⟩

theorem join_ne_empty (nonempty : base ≠ "") (relative : isAbsolute path = false) :
    join base path ≠ "" := by
  obtain ⟨rest, eq⟩ := exists_join base relative
  rw [eq, Ne, String.append_eq_empty_iff]
  exact fun empty => nonempty empty.1

theorem isAbsolute_join (nonempty : base ≠ "") (relative : isAbsolute path = false) :
    isAbsolute (join base path) = isAbsolute base := by
  obtain ⟨rest, eq⟩ := exists_join base relative
  obtain ⟨c, tail, start⟩ := List.exists_cons_of_ne_nil
    (fun empty => nonempty (String.toList_eq_nil_iff.1 empty))
  rw [eq, isAbsolute, isAbsolute, String.toList_append, start, List.cons_append, List.head?_cons,
    List.head?_cons]

/-- A joined path has the characters of its parts, and a slash. -/
theorem mem_join_iff (relative : isAbsolute path = false) {c : Char} (other : c ≠ '/') :
    c ∈ (join base path).toList ↔ c ∈ base.toList ∨ c ∈ path.toList := by
  have slash : "/".toList = ['/'] := rfl
  rw [join, relative]
  split
  · contradiction
  · split
    · simp [String.toList_append, slash, other]
    · simp [String.toList_append]

/-- Names that are joined do not make an absolute path. -/
theorem isAbsolute_joinSegments {names : List String}
    (proper : ∀ name ∈ names, name ≠ "" ∧ '/' ∉ name.toList) :
    isAbsolute (joinSegments names) = false := by
  cases names with
  | nil => rfl
  | cons first more =>
    obtain ⟨⟨nonempty, noSlash⟩, -⟩ := List.forall_mem_cons.1 proper
    obtain ⟨c, rest, eq⟩ := List.exists_cons_of_ne_nil
      (fun empty => nonempty (String.toList_eq_nil_iff.1 empty))
    refine decide_eq_false fun start => noSlash ?_
    rw [joinSegments, String.toList_ofList, List.map_cons, eq, head?_joinPieces,
      Option.some.injEq] at start
    rw [eq, start]
    exact List.mem_cons_self

private theorem nul_not_mem_joinSegments {names : List String}
    (proper : ∀ name ∈ names, FileTree.IsEntryName name) :
    '\x00' ∉ (joinSegments names).toList := by
  intro mem
  rcases mem_joinSegments mem with slash | ⟨name, listed, within⟩
  · exact absurd slash (by decide)
  · exact (proper name listed).noNul within

end DiskPath

namespace Disk

variable {disk : Disk} {base path part : String} {place next : Place} {way : List String}
  {tree : FileTree}

/-- Where a path starts: at the root of the disk or at the working directory. -/
def origin (disk : Disk) (path : String) : Place :=
  if DiskPath.isAbsolute path then ⟨[], 0⟩ else disk.here

theorem follow_eq_ok_iff : disk.follow path = .ok place ↔
    '\x00' ∉ path.toList ∧ path.utf8ByteSize ≤ pathBytes ∧ path ≠ "" ∧
      (segments path).foldlM disk.step (disk.origin path) = .ok place := by
  rw [follow, ← origin]
  split
  · rename_i nul
    simp [nul]
  · split
    · rename_i long
      simp [Nat.not_le.2 long]
    · split
      · rename_i empty
        simp [empty]
      · simp_all

/-- A path that is too long leads nowhere. -/
private theorem follow_of_long (nul : '\x00' ∉ path.toList) (long : pathBytes < path.utf8ByteSize) :
    disk.follow path = .error .nameTooLong := by
  rw [follow, if_neg nul, if_pos long]

/-- An empty segment is of no consequence in front of another one. -/
theorem step_empty_bind (place : Place) :
    (disk.step place "" >>= fun place => disk.step place part) = disk.step place part := by
  cases found : disk.treeAt place with
  | none =>
    rw [step, step, found]
    rfl
  | some tree =>
    cases tree with
    | file content =>
      rw [step, step, found]
      rfl
    | directory entries =>
      have stays : disk.step place "" = .ok place := by
        rw [step, found]
        rfl
      rw [stays]
      rfl

/-- A joined path is followed from the place of the other one. -/
theorem foldlM_segments_join (nonempty : base ≠ "") (relative : DiskPath.isAbsolute path = false)
    (place : Place) :
    (segments (DiskPath.join base path)).foldlM disk.step place =
      (segments base).foldlM disk.step place >>= (segments path).foldlM disk.step := by
  obtain ⟨front, -, joined, eq | eq⟩ := DiskPath.exists_segments_join nonempty relative
  · rw [joined, eq, List.foldlM_append]
  · obtain ⟨part, parts, cut⟩ := List.exists_cons_of_ne_nil (segments_ne_nil path)
    have skip (place : Place) : (disk.step place "" >>= fun place =>
        (part :: parts).foldlM disk.step place) = (part :: parts).foldlM disk.step place := by
      simp only [List.foldlM_cons]
      rw [← bind_assoc, step_empty_bind]
    rw [joined, eq, List.foldlM_append, List.foldlM_append, cut, bind_assoc]
    refine bind_congr fun middle => ?_
    have last : [""].foldlM disk.step middle = disk.step middle "" := bind_pure _
    rw [last, skip]

theorem foldlM_origin_join (based : disk.follow base = .ok place)
    (relative : DiskPath.isAbsolute path = false) :
    (segments (DiskPath.join base path)).foldlM disk.step (disk.origin (DiskPath.join base path)) =
      (segments path).foldlM disk.step place := by
  obtain ⟨-, -, nonempty, walked⟩ := follow_eq_ok_iff.1 based
  have start : disk.origin (DiskPath.join base path) = disk.origin base := by
    rw [origin, origin, DiskPath.isAbsolute_join nonempty relative]
  rw [start, foldlM_segments_join nonempty relative, walked]
  rfl

theorem follow_join_iff (based : disk.follow base = .ok place)
    (relative : DiskPath.isAbsolute path = false) :
    disk.follow (DiskPath.join base path) = .ok next ↔
      '\x00' ∉ path.toList ∧ (DiskPath.join base path).utf8ByteSize ≤ pathBytes ∧
        (segments path).foldlM disk.step place = .ok next := by
  obtain ⟨noNul, -, nonempty, walked⟩ := follow_eq_ok_iff.1 based
  have joined := DiskPath.join_ne_empty nonempty relative
  rw [follow_eq_ok_iff, foldlM_origin_join based relative,
    DiskPath.mem_join_iff relative (by decide), not_or]
  exact ⟨fun ⟨nul, short, _, found⟩ => ⟨nul.2, short, found⟩,
    fun ⟨nul, short, found⟩ => ⟨⟨noNul, nul⟩, short, joined, found⟩⟩

/-- A joined path that can be followed leads where its segments lead from the place of the other
one. -/
private theorem follow_join (based : disk.follow base = .ok place)
    (relative : DiskPath.isAbsolute path = false) (noNul : '\x00' ∉ path.toList)
    (short : (DiskPath.join base path).utf8ByteSize ≤ pathBytes) :
    disk.follow (DiskPath.join base path) = (segments path).foldlM disk.step place := by
  obtain ⟨clean, -, nonempty, -⟩ := follow_eq_ok_iff.1 based
  have plain : '\x00' ∉ (DiskPath.join base path).toList := by
    rw [DiskPath.mem_join_iff relative (by decide), not_or]
    exact ⟨clean, noNul⟩
  rw [follow, if_neg plain, if_neg (Nat.not_lt.2 short),
    if_neg (DiskPath.join_ne_empty nonempty relative), ← origin, foldlM_origin_join based relative]

/-- A step stays where it is, goes up by a double dot, or goes down by a name in the tree. -/
theorem step_cases (h : disk.step place part = .ok next) :
    (part = "" ∨ part = ".") ∧ next = place ∨ part = ".." ∧ next = place.above ∨
      place.lost = 0 ∧ ¬(part = "" ∨ part = ".") ∧ part ≠ ".." ∧
        next = ⟨place.way ++ [part], 0⟩ := by
  unfold step at h
  split at h
  · contradiction
  · contradiction
  · split at h
    · rename_i empty
      exact .inl ⟨.inl empty, (Except.ok.inj h).symm⟩
    · rename_i nonempty
      split at h
      · contradiction
      · split at h
        · rename_i dot
          exact .inl ⟨.inr dot, (Except.ok.inj h).symm⟩
        · rename_i notDot
          split at h
          · rename_i dots
            exact .inr (.inl ⟨dots, (Except.ok.inj h).symm⟩)
          · rename_i notDots
            split at h
            · contradiction
            · rename_i kept
              split at h
              · contradiction
              · split at h
                · exact .inr (.inr ⟨Decidable.not_not.1 kept, not_or.2 ⟨nonempty, notDot⟩, notDots,
                    (Except.ok.inj h).symm⟩)
                · contradiction

/-- In the tree of a disk every step goes where the part says. -/
private theorem step_eq_ok (h : disk.step ⟨way, 0⟩ part = .ok next) :
    next = ⟨advance way part, 0⟩ := by
  rcases step_cases h with ⟨stays, rfl⟩ | ⟨rfl, rfl⟩ | ⟨-, moves, down, rfl⟩
  · rw [advance, if_pos stays]
  · rfl
  · rw [advance, if_neg moves, if_neg down]

theorem foldlM_step_eq_ok {parts : List String} (h : parts.foldlM disk.step ⟨way, 0⟩ = .ok next) :
    next = ⟨parts.foldl advance way, 0⟩ := by
  induction parts generalizing way with
  | nil => exact (Except.ok.inj h).symm
  | cons part parts ih =>
    rw [List.foldlM_cons] at h
    cases first : disk.step ⟨way, 0⟩ part with
    | error fault =>
      rw [first] at h
      contradiction
    | ok middle =>
      rw [first, step_eq_ok first] at h
      exact ih h

/-- Why no path leads from the end of a way along some names: the first directory that is barred. -/
def barrier? (disk : Disk) (way : List String) : List String → Option String
  | [] => none
  | name :: names => (disk.barred? way).or (disk.barrier? (way ++ [name]) names)

theorem foldlM_step_names {names : List String} {found : FileTree}
    (proper : ∀ name ∈ names, FileTree.IsEntryName name)
    (reached : disk.tree.get? (way ++ names) = some found) :
    names.foldlM disk.step ⟨way, 0⟩ =
      match disk.barrier? way names with
      | some reason => .error (.refused reason)
      | none => .ok ⟨way ++ names, 0⟩ := by
  induction names generalizing way with
  | nil => rw [List.append_nil]; rfl
  | cons name names ih =>
    obtain ⟨entries, here, listed⟩ := FileTree.exists_directory_of_get? reached
    obtain ⟨own, others⟩ := List.forall_mem_cons.1 proper
    have found : disk.treeAt ⟨way, 0⟩ = some (.directory entries) := here
    have step : disk.step ⟨way, 0⟩ name =
        match disk.barred? way with
        | some reason => .error (.refused reason)
        | none => .ok ⟨way ++ [name], 0⟩ := by
      rw [Disk.step, found]
      dsimp only
      rw [if_neg own.nonempty, Place.refusal?, if_pos rfl]
      cases disk.barred? way with
      | some reason => rfl
      | none =>
        rw [Option.map_none, if_neg own.notDot, if_neg own.notDots, if_neg (fun lost => lost rfl),
          if_neg (Nat.not_lt.2 own.short), if_pos listed]
    rw [List.append_cons] at reached
    rw [List.append_cons way name names, List.foldlM_cons, step, barrier?]
    cases disk.barred? way with
    | some reason => rfl
    | none => exact ih others reached

/-- In a removed directory nothing is found, and it is left by no path that stays inside. -/
theorem foldlM_step_of_lost {place next : Place} {parts : List String} (lost : place.lost ≠ 0)
    (inside : DiskPath.staysInside 0 parts = true)
    (h : parts.foldlM disk.step place = .ok next) : next = place := by
  induction parts with
  | nil => exact (Except.ok.inj h).symm
  | cons part parts ih =>
    rw [List.foldlM_cons] at h
    cases first : disk.step place part with
    | error fault =>
      rw [first] at h
      contradiction
    | ok middle =>
      rw [first] at h
      rw [DiskPath.staysInside] at inside
      rcases step_cases first with ⟨stays, rfl⟩ | ⟨rfl, -⟩ | ⟨kept, -⟩
      · rw [if_pos stays] at inside
        exact ih inside h
      · contradiction
      · exact absurd kept lost

/-! ### What is found -/

theorem find_eq_ok_iff : disk.find path = .ok tree ↔
    ∃ place, disk.follow path = .ok place ∧ disk.treeAt place = some tree := by
  rw [find]
  cases disk.follow path with
  | error fault => simp
  | ok place => cases found : disk.treeAt place <;> simp [found]

private theorem read_of_find {content : ByteArray} (opens : disk.openFault? path = none)
    (found : disk.find path = .ok (.file content)) :
    disk.read path =
      match String.fromUTF8? content with
      | none => .unreadable Fault.notText.reason
      | some text => .loaded text := by
  rw [read, text, opens, found]
  dsimp only
  cases String.fromUTF8? content with
  | none => rfl
  | some text => rfl

/-- Why what is found under some names below the place that a path leads to is not opened: a
directory on the way there is barred, or it is itself closed. -/
def refusalBelow? (disk : Disk) (base : String) (names : List String) : Option String :=
  match disk.follow base with
  | .ok ⟨way, 0⟩ => (disk.barrier? way names).or (disk.closed? (way ++ names))
  | _ => none

/-- On a disk on which nothing is refused everything is opened. -/
theorem refusalBelow?_of_open (closed : ∀ way, disk.closed? way = none)
    (barred : ∀ way, disk.barred? way = none) (base : String) (names : List String) :
    disk.refusalBelow? base names = none := by
  have passes (way : List String) : disk.barrier? way names = none := by
    induction names generalizing way with
    | nil => rfl
    | cons name names ih => rw [barrier?, barred, ih, Option.or_none]
  rw [refusalBelow?]
  split
  · rw [passes, closed, Option.or_none]
  · rfl

section Names

variable {names : List String}

/-- Proper names below a place in the tree are followed to the end of their way, if the path is not
too long and no directory on the way is barred. -/
theorem follow_join_names (based : disk.follow base = .ok ⟨way, 0⟩) (some : names ≠ [])
    (proper : ∀ name ∈ names, FileTree.IsEntryName name)
    (reached : disk.tree.get? (way ++ names) = .some tree) :
    disk.follow (DiskPath.join base (joinSegments names)) =
      if pathBytes < (DiskPath.join base (joinSegments names)).utf8ByteSize then
        .error .nameTooLong
      else
        match disk.barrier? way names with
        | .some reason => .error (.refused reason)
        | none => .ok ⟨way ++ names, 0⟩ := by
  have relative : DiskPath.isAbsolute (joinSegments names) = false :=
    DiskPath.isAbsolute_joinSegments fun name mem =>
      ⟨(proper name mem).nonempty, (proper name mem).noSlash⟩
  have noNul := DiskPath.nul_not_mem_joinSegments proper
  split
  · rename_i long
    refine follow_of_long ?_ long
    rw [DiskPath.mem_join_iff relative (by decide), not_or]
    exact ⟨(follow_eq_ok_iff.1 based).1, noNul⟩
  · rename_i short
    rw [follow_join based relative noNul (Nat.not_lt.1 short),
      segments_joinSegments some fun name mem => (proper name mem).noSlash]
    exact foldlM_step_names proper reached

/-- What is read under proper names below a place in the tree. -/
theorem read_join_names {content : ByteArray} (based : disk.follow base = .ok ⟨way, 0⟩)
    (some : names ≠ []) (proper : ∀ name ∈ names, FileTree.IsEntryName name)
    (reached : disk.tree.get? (way ++ names) = .some (.file content)) :
    disk.read (DiskPath.join base (joinSegments names)) =
      if pathBytes < (DiskPath.join base (joinSegments names)).utf8ByteSize then
        .unreadable Fault.nameTooLong.reason
      else
        match disk.refusalBelow? base names with
        | .some reason => .unreadable reason
        | none =>
          match String.fromUTF8? content with
          | none => .unreadable Fault.notText.reason
          | .some text => .loaded text := by
  have followed := follow_join_names based some proper reached
  have refusal : disk.refusalBelow? base names =
      (disk.barrier? way names).or (disk.closed? (way ++ names)) := by
    rw [refusalBelow?, based]
    rfl
  rw [refusal]
  split
  · rename_i long
    rw [if_pos long] at followed
    simp only [read, text, openFault?, followed]
  · rename_i short
    rw [if_neg short] at followed
    cases barrier : disk.barrier? way names with
    | some reason =>
      rw [barrier] at followed
      simp only [read, text, openFault?, followed, Option.some_or, Fault.reason]
    | none =>
      rw [barrier] at followed
      have opened : disk.openFault? (DiskPath.join base (joinSegments names)) =
          (disk.closed? (way ++ names)).map .refused := by
        simp only [openFault?, followed, Place.refusal?, ↓reduceIte]
      cases closed : disk.closed? (way ++ names) with
      | some reason =>
        rw [closed] at opened
        simp only [read, text, opened, Option.map_some, Option.none_or, Fault.reason]
      | none =>
        rw [closed] at opened
        exact read_of_find opened (find_eq_ok_iff.2 ⟨_, followed, reached⟩)

end Names

/-- What is found on a legal disk is legal. -/
theorem isLegal_of_find (legal : disk.tree.IsLegal)
    (found : disk.find path = .ok tree) : tree.IsLegal := by
  obtain ⟨place, -, there⟩ := find_eq_ok_iff.1 found
  rw [treeAt] at there
  split at there
  · exact (legal.of_get? there).1
  · obtain rfl := Option.some.inj there
    exact .directory (by simp) .nil (by simp)

end Disk

end SceneAudit
