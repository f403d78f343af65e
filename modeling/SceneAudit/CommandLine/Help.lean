import SceneAudit.CommandLine.Invocation

/-!
# Help texts

A help text says what a command is about and how it is used, and then lists commands and settings
in tables of two columns. The first column is as wide as its longest label, in every row, even
where the second one is empty.

## Main definitions

* `CommandLine.table`: a table of two columns.
* `CommandLine.Topic.text`: the help text on a topic.
-/

namespace SceneAudit.CommandLine

/-- A row of a table: a label, and what it stands for. -/
structure Row where
  label : String
  summary : String

/-- The line for a row, with the first column of the given width. -/
def Row.line (width : Nat) (row : Row) : String :=
  let padding := String.ofList (List.replicate (width - row.label.length) ' ')
  "  " ++ row.label ++ padding ++ "  " ++ row.summary

/-- The lines of a table. -/
def table (rows : List Row) : List String :=
  let width := (rows.map fun row => row.label.length).foldl max 0
  rows.map (Row.line width)

/-- The row for a setting. -/
def Setting.row (setting : Setting) : Row where
  label :=
    "    --" ++ setting.name ++
      match setting.placeholder with
      | some placeholder => " <" ++ placeholder ++ ">"
      | none => ""
  summary := setting.summary

/-- The lines for the settings of a command. -/
def settingLines (settings : List Setting) : List String :=
  ["", "Options:"] ++ table (settings.map Setting.row ++ [⟨"-h, --help", "Print help"⟩])

/-- What a topic is about. -/
def Topic.about : Topic → String
  | overview => "Godot scene/script node path consistency checker"
  | check => "Validate every scene under the scenes directory against its script"
  | index => "Print the structural verdict and canonical paths of one scene"
  | help => "Print this message or the help of the given subcommand(s)"

/-- What each command does. -/
def commandRows : List Row :=
  [⟨"check", Topic.check.about⟩, ⟨"index", Topic.index.about⟩, ⟨"help", Topic.help.about⟩]

/-- How a command is used. -/
def Topic.usage : Topic → String
  | overview => "nodelink [OPTIONS] <COMMAND>"
  | check => "nodelink check [OPTIONS]"
  | index => "nodelink index [OPTIONS] --scene <SCENE>"
  | help => "nodelink help [COMMAND]..."

/-- The tables of a help text. -/
def Topic.tables : Topic → List String
  | overview => ["", "Commands:"] ++ table commandRows ++ settingLines [verboseSetting]
  | check => settingLines checkSettings
  | index => settingLines indexSettings
  | help =>
    ["", "Arguments:"] ++ table [⟨"[COMMAND]...", "Print help for the subcommand(s)"⟩]

/-- The lines of the help text on a topic. -/
def Topic.lines (topic : Topic) : List String :=
  [topic.about, "", "Usage: " ++ topic.usage] ++ topic.tables

end SceneAudit.CommandLine
