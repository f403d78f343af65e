/-!
# Diagnostics

A diagnostic is one finding about a scene or a script: what kind of finding it is, how severe,
where it was made, a sentence about it, and possibly a suggestion. The severity of a finding of
this library is fixed by its kind; a diagnostic that was read from a file carries the severity
written there.

## Main definitions

* `Severity`, `Diagnostic.Kind`: errors and warnings, and the kinds of findings with their codes.
* `Location`: a file and possibly a line in it, ordered by file and then by line.
* `Diagnostic`, `Diagnostic.of`: a finding, and the finding with the severity of its kind.

## Main results

* `Diagnostic.Kind.ofCode_code`: a code determines the kind.
* `Location.le_trans`, `Location.le_total`: locations are ordered.
-/

namespace SceneAudit

/-- How much a finding weighs: only errors make a check fail. -/
inductive Severity where
  | error
  | warning
  deriving DecidableEq, Repr

/-- The name of a severity in reports. -/
def Severity.label : Severity → String
  | error => "error"
  | warning => "warning"

namespace Diagnostic

/-- The kinds of findings. -/
inductive Kind where
  /-- A scene declares no node. -/
  | rootMissing
  /-- The first node of a scene names a parent. -/
  | rootHasParent
  /-- A node names a parent that the scene does not declare. -/
  | parentUnresolved
  /-- A node names a parent that is declared after it. -/
  | parentForwardReference
  /-- A node names itself as its parent. -/
  | parentCycle
  /-- Two children of one node have the same name. -/
  | duplicateSibling
  /-- A script refers to a node path that the scene does not have. -/
  | unresolvedReference
  /-- A section header cannot be read, or a node has no name. -/
  | malformedDeclaration
  /-- A node other than the first names no parent. -/
  | implicitRootChild
  /-- A node attaches a script that no external resource declares. -/
  | scriptResourceUnresolved
  /-- The attached script does not exist. -/
  | scriptMissing
  /-- The attached script exists but cannot be read. -/
  | scriptUnreadable
  /-- The attached script was not checked, since the scene is not a tree. -/
  | scriptUnchecked
  /-- The scene itself cannot be read. -/
  | sceneUnreadable
  deriving DecidableEq, Repr

namespace Kind

/-- All kinds of findings. -/
def all : List Kind :=
  [rootMissing, rootHasParent, parentUnresolved, parentForwardReference, parentCycle,
    duplicateSibling, unresolvedReference, malformedDeclaration, implicitRootChild,
    scriptResourceUnresolved, scriptMissing, scriptUnreadable, scriptUnchecked, sceneUnreadable]

/-- The code of a kind in reports. -/
def code : Kind → String
  | rootMissing => "ROOT_MISSING"
  | rootHasParent => "ROOT_HAS_PARENT"
  | parentUnresolved => "PARENT_UNRESOLVED"
  | parentForwardReference => "PARENT_FORWARD_REFERENCE"
  | parentCycle => "PARENT_CYCLE"
  | duplicateSibling => "DUPLICATE_SIBLING"
  | unresolvedReference => "UNRESOLVED_REFERENCE"
  | malformedDeclaration => "MALFORMED_DECLARATION"
  | implicitRootChild => "IMPLICIT_ROOT_CHILD"
  | scriptResourceUnresolved => "SCRIPT_RESOURCE_UNRESOLVED"
  | scriptMissing => "SCRIPT_MISSING"
  | scriptUnreadable => "SCRIPT_UNREADABLE"
  | scriptUnchecked => "SCRIPT_UNCHECKED"
  | sceneUnreadable => "SCENE_UNREADABLE"

/-- The kind with the given code. -/
def ofCode? (code : String) : Option Kind :=
  all.find? fun kind => kind.code == code

/-- Whether the finding says that the nodes of a scene do not form a tree. -/
def isStructural : Kind → Bool
  | rootMissing | rootHasParent | parentUnresolved | parentForwardReference | parentCycle
  | duplicateSibling => true
  | _ => false

/-- Structural findings and unresolved references are errors, all else is a warning. -/
def severity (kind : Kind) : Severity :=
  if kind.isStructural || kind = unresolvedReference then .error else .warning

/-- A code determines its kind. -/
theorem ofCode_code (kind : Kind) : ofCode? kind.code = some kind := by
  cases kind <;> decide +kernel

theorem code_injective {kind other : Kind} (h : kind.code = other.code) : kind = other := by
  have found := ofCode_code kind
  rw [h, ofCode_code] at found
  exact (Option.some.inj found).symm

end Kind

end Diagnostic

/-- A place in the project: a file, given by its path from the project's root, and possibly a line
of it, counted from one. -/
structure Location where
  file : String
  line : Option Nat
  deriving DecidableEq, Repr

namespace Location

/-- A whole file. -/
def ofFile (file : String) : Location := ⟨file, none⟩

/-- A line of a file. -/
def ofLine (file : String) (line : Nat) : Location := ⟨file, some line⟩

/-- The order of lines: a location without a line comes before those with one. -/
def lineLe : Option Nat → Option Nat → Bool
  | none, _ => true
  | some _, none => false
  | some m, some n => m ≤ n

/-- The order of reports: by file, then by line. -/
def le (left right : Location) : Bool :=
  left.file < right.file || (left.file == right.file && lineLe left.line right.line)

/-- The file, followed by a colon and the line if there is one. -/
def render (location : Location) : String :=
  match location.line with
  | some line => location.file ++ ":" ++ toString line
  | none => location.file

private theorem lineLe_trans {a b c : Option Nat} (hab : lineLe a b = true)
    (hbc : lineLe b c = true) : lineLe a c = true := by
  cases a <;> cases b <;> cases c <;> simp_all [lineLe]
  omega

private theorem lineLe_total (a b : Option Nat) : (lineLe a b || lineLe b a) = true := by
  cases a <;> cases b <;> simp [lineLe]
  omega

private theorem lineLe_antisymm {a b : Option Nat} (hab : lineLe a b = true)
    (hba : lineLe b a = true) : a = b := by
  cases a <;> cases b <;> simp_all [lineLe]
  omega

theorem le_iff {left right : Location} :
    left.le right = true ↔
      left.file < right.file ∨ left.file = right.file ∧ lineLe left.line right.line = true := by
  simp [le]

theorem le_trans {a b c : Location} (hab : a.le b = true) (hbc : b.le c = true) :
    a.le c = true := by
  rw [le_iff] at *
  rcases hab with hab | ⟨eab, lab⟩ <;> rcases hbc with hbc | ⟨ebc, lbc⟩
  · exact .inl (String.lt_trans hab hbc)
  · exact .inl (ebc ▸ hab)
  · exact .inl (eab ▸ hbc)
  · exact .inr ⟨eab.trans ebc, lineLe_trans lab lbc⟩

theorem le_total (a b : Location) : (a.le b || b.le a) = true := by
  rw [Bool.or_eq_true, le_iff, le_iff]
  by_cases lt : a.file < b.file
  · exact .inl (.inl lt)
  · by_cases gt : b.file < a.file
    · exact .inr (.inl gt)
    · have eq : a.file = b.file := String.le_antisymm gt lt
      have total := lineLe_total a.line b.line
      rw [Bool.or_eq_true] at total
      exact total.imp (fun h => .inr ⟨eq, h⟩) fun h => .inr ⟨eq.symm, h⟩

theorem le_antisymm {a b : Location} (hab : a.le b = true) (hba : b.le a = true) : a = b := by
  rw [le_iff] at *
  rcases hab with hab | ⟨eab, lab⟩ <;> rcases hba with hba | ⟨eba, lba⟩
  · exact absurd (String.lt_trans hab hba) (String.lt_irrefl a.file)
  · exact absurd (eba ▸ hab) (String.lt_irrefl a.file)
  · exact absurd (eab ▸ hba) (String.lt_irrefl a.file)
  · have elines := lineLe_antisymm lab lba
    cases a
    cases b
    simp_all

end Location

/-- A finding about a scene or a script. -/
structure Diagnostic where
  severity : Severity
  kind : Diagnostic.Kind
  location : Location
  message : String
  /-- A node path that may have been meant. -/
  suggestion : Option String
  deriving DecidableEq, Repr

namespace Diagnostic

/-- The finding with the severity of its kind and no suggestion. -/
def of (kind : Kind) (location : Location) (message : String) : Diagnostic :=
  { severity := kind.severity, kind, location, message, suggestion := none }

/-- Whether the finding makes a check fail. -/
def isError (diagnostic : Diagnostic) : Bool :=
  diagnostic.severity = .error

/-- The order of reports, which looks at the location alone. -/
def le (left right : Diagnostic) : Bool :=
  left.location.le right.location

theorem le_trans (a b c : Diagnostic) (hab : a.le b = true) (hbc : b.le c = true) :
    a.le c = true :=
  Location.le_trans hab hbc

theorem le_total (a b : Diagnostic) : (a.le b || b.le a) = true :=
  Location.le_total a.location b.location

/-- Diagnostics in the order of their locations, those at one location in their given order. -/
def sort (diagnostics : List Diagnostic) : List Diagnostic :=
  diagnostics.mergeSort le

theorem sort_perm (diagnostics : List Diagnostic) : (sort diagnostics).Perm diagnostics :=
  List.mergeSort_perm diagnostics le

theorem pairwise_sort (diagnostics : List Diagnostic) :
    (sort diagnostics).Pairwise fun left right => left.le right = true :=
  List.pairwise_mergeSort le_trans le_total diagnostics

theorem sort_sort (diagnostics : List Diagnostic) : sort (sort diagnostics) = sort diagnostics :=
  List.mergeSort_of_pairwise (pairwise_sort diagnostics)

end Diagnostic

end SceneAudit
