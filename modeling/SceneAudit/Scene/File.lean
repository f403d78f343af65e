import SceneAudit.Diagnostic
import SceneAudit.Text.Line
import SceneAudit.Text.Scan
import SceneAudit.Scene.Record

/-!
# Scene files

A scene file is read line by line. Blank lines and comments, which start with a semicolon, say
nothing; every other line is a header, a header that cannot be read, or a property of the section
it stands in. A property whose value is a quoted text may span several lines, and none of the
lines up to the closing quotation mark is looked at.

The declarations of the file are its `node` sections. A node attaches a script through the last
`script = ExtResource(…)` property of its section, which names the identifier of an external
resource; the `ext_resource` headers of the whole file, before and after the node, say which path
an identifier stands for.

## Main definitions

* `Scene.Entry`, `Scene.entries`: the lines of a file that say something, with their numbers.
* `Scene.attachedResource?`: the resource that a `script` property names.
* `Scene.Declaration`, `Scene.declarations`: the nodes of a file and the headers that fail.
* `Scene.resources`: the paths of the external resources.
* `Scene.Issue`: a finding made while reading.
* `SceneFile`, `SceneFile.read`: the nodes of a file with their scripts, and the issues.

## Main results

* `Scene.entries_append`: reading a text after another starts where the first one leaves off.
-/

namespace SceneAudit

namespace Scene

open Text

/-! ### Entries -/

/-- A line of a scene file that says something. -/
inductive Entry where
  /-- The line opens a section. -/
  | opening (header : Header)
  /-- The line should open a section but cannot be read. -/
  | broken (fault : HeaderFault)
  /-- The line belongs to the section it stands in. -/
  | property (text : List Char)
  deriving DecidableEq, Repr

/-- The entry on a line, blanks at its ends removed, or none if it is blank or a comment. -/
def Entry.ofLine? (line : List Char) : Option Entry :=
  let text := trim line
  if text = [] || text.head? = some ';' then none
  else
    match Header.ofLine text with
    | .ok (some header) => some (.opening header)
    | .ok none => some (.property text)
    | .error fault => some (.broken fault)

/-- Whether a quotation is open after a line that starts outside of quotations. Only a property
can leave one open. -/
def Entry.leavesOpen : Option Entry → Bool
  | some (.property text) => Quoted.openAfter false text
  | _ => false

/-- Whether a quotation is open after the given lines, given whether one is open before. -/
def openAfterLines : Bool → List (List Char) → Bool
  | inside, [] => inside
  | true, line :: rest => openAfterLines (Quoted.openAfter true line) rest
  | false, line :: rest => openAfterLines (Entry.leavesOpen (Entry.ofLine? line)) rest

/-- The entries of the given lines with their numbers, the first line having number `n`. `inside`
says whether the first line starts within a quotation. -/
def entries : Bool → Nat → List (List Char) → List (Nat × Entry)
  | _, _, [] => []
  | true, n, line :: rest => entries (Quoted.openAfter true line) (n + 1) rest
  | false, n, line :: rest =>
    let entry := Entry.ofLine? line
    (entry.map (n, ·)).toList ++ entries (Entry.leavesOpen entry) (n + 1) rest

/-- **Reading goes on where it left off.** The entries of two pieces of a file are those of the
first piece, and those of the second read with the quotation that the first leaves open. -/
theorem entries_append (inside : Bool) (n : Nat) (front back : List (List Char)) :
    entries inside n (front ++ back) =
      entries inside n front ++
        entries (openAfterLines inside front) (n + front.length) back := by
  fun_induction entries inside n front with
  | case1 => simp [openAfterLines]
  | case2 n line rest ih =>
    simp only [List.cons_append, entries, openAfterLines, ih, List.length_cons]
    rw [Nat.add_assoc, Nat.add_comm 1]
  | case3 n line rest entry ih =>
    simp only [List.cons_append, entries, openAfterLines, List.length_cons, List.append_assoc]
    rw [ih, Nat.add_assoc, Nat.add_comm 1]

/-! ### Attached scripts -/

/-- The characters of a resource identifier in a `script` property. -/
def isIdentifierChar (c : Char) : Bool :=
  !(c == '"' || c == ')' || isBlank c)

/-- The text without one quotation mark at its front. -/
def skipQuote : List Char → List Char
  | '"' :: rest => rest
  | s => s

/-- The identifier in `script = ExtResource(…)`, quoted or not. What follows the closing
parenthesis is ignored. -/
def attachedResource? (property : List Char) : Option String := do
  let s ← after? "script".toList property
  let s ← after? ['='] (skipBlanks s)
  let s ← after? "ExtResource(".toList (skipBlanks s)
  let s := skipQuote (skipBlanks s)
  let identifier := s.takeWhile isIdentifierChar
  let _ ← after? [')'] (skipBlanks (skipQuote (s.dropWhile isIdentifierChar)))
  if identifier = [] then none else some (String.ofList identifier)

/-- The resource attached by the properties at the front of the given entries, which are those of
one section. The last `script` property counts. -/
def sectionResource? : List (Nat × Entry) → Option String
  | (_, .property text) :: rest => (sectionResource? rest).or (attachedResource? text)
  | _ => none

/-! ### Declarations -/

/-- What a section header declares about the nodes of a scene. -/
inductive Declaration where
  /-- A node, and the identifier of the resource that it attaches as its script. -/
  | node (record : NodeRecord) (resource : Option String)
  /-- A header that cannot be read. -/
  | broken (line : Nat) (fault : HeaderFault)
  /-- A node without a name. -/
  | unnamed (line : Nat)
  deriving DecidableEq, Repr

/-- The declarations of a file, in the order of its lines. -/
def declarations : List (Nat × Entry) → List Declaration
  | [] => []
  | (n, .opening header) :: rest =>
    if header.tag = "node" then
      match NodeRecord.ofHeader? header n with
      | some record => .node record (sectionResource? rest) :: declarations rest
      | none => .unnamed n :: declarations rest
    else declarations rest
  | (n, .broken fault) :: rest => .broken n fault :: declarations rest
  | (_, .property _) :: rest => declarations rest

/-- The external resource that a header declares: its identifier and its path. -/
def Entry.resource? : Entry → Option (String × String)
  | .opening header =>
    if header.tag = "ext_resource" then
      match header.value? "id", header.value? "path" with
      | some identifier, some path => some (identifier, path)
      | _, _ => none
    else none
  | _ => none

/-- The external resources of a file, in the order of its lines. -/
def resources (entries : List (Nat × Entry)) : List (String × String) :=
  entries.filterMap fun numbered => numbered.2.resource?

/-- The path of a resource. The last declaration of an identifier counts. -/
def resourcePath? (resources : List (String × String)) (identifier : String) : Option String :=
  (resources.findRev? fun resource => resource.1 == identifier).map Prod.snd

/-! ### Issues -/

/-- A finding made while reading a scene file. -/
structure Issue where
  kind : Diagnostic.Kind
  line : Nat
  message : String
  deriving DecidableEq, Repr

/-- A declaration that is left out, and why. -/
def Issue.malformed (line : Nat) (reason : String) : Issue :=
  ⟨.malformedDeclaration, line, "Skipped malformed declaration: " ++ reason ++ "."⟩

/-- A node whose script resource is not declared. -/
def Issue.unresolvedResource (record : NodeRecord) (identifier : String) : Issue :=
  ⟨.scriptResourceUnresolved, record.line,
    "Node \"" ++ record.name ++ "\" attaches script resource \"" ++ identifier ++
      "\" but no ext_resource declares that id."⟩

namespace Declaration

/-- The declared node with its script, if the declaration is one of a node. -/
def record? (resources : List (String × String)) : Declaration → Option NodeRecord
  | node record resource => some { record with script := resource.bind (resourcePath? resources) }
  | broken .. | unnamed _ => none

/-- The issue that a declaration gives rise to. -/
def issue? (resources : List (String × String)) : Declaration → Option Issue
  | node record (some identifier) =>
    match resourcePath? resources identifier with
    | some _ => none
    | none => some (.unresolvedResource record identifier)
  | node _ none => none
  | broken line fault => some (.malformed line fault.message)
  | unnamed line => some (.malformed line "node declaration has no name")

end Declaration

end Scene

/-! ### Reading a file -/

/-- What a scene file declares: its nodes in order, with the paths of their scripts, and the
issues found on the way, in the order of their lines. -/
structure SceneFile where
  records : List Scene.NodeRecord
  issues : List Scene.Issue
  deriving DecidableEq, Repr

namespace SceneFile

open Scene

/-- The nodes and issues of the given entries. -/
def ofEntries (entries : List (Nat × Entry)) : SceneFile :=
  let resources := resources entries
  let declarations := declarations entries
  { records := declarations.filterMap (Declaration.record? resources)
    issues := declarations.filterMap (Declaration.issue? resources) }

/-- The nodes and issues of the text of a scene file. -/
def read (text : String) : SceneFile :=
  ofEntries (entries false 1 (Text.lines text.toList))

/-- The script attached to the first node, as written in the file. -/
def rootScript? (file : SceneFile) : Option String :=
  file.records.head?.bind NodeRecord.script

end SceneFile

end SceneAudit
