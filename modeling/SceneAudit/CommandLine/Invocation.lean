import SceneAudit.CommandLine.Settings
import SceneAudit.Palette
import SceneAudit.Project.Discovery

/-!
# Invocations

There are two commands: one checks all scenes of a project, the other one shows the canonical
paths of a single scene. A third word asks for help, as the help flags do. The flag for a verbose
log may stand before and after the name of a command, once in each place; what it asks for is not
written to standard output. A check may be given the number of threads that it runs on.

## Main definitions

* `CommandLine.Invocation`: what is asked for.
* `CommandLine.Invocation.ofArguments?`: the invocation that a list of arguments is.
* `CommandLine.checkSettings`, `CommandLine.indexSettings`: the settings of the commands.
-/

namespace SceneAudit.CommandLine

/-- How a report is written. -/
inductive Format where
  | text
  | json
  deriving DecidableEq, Repr

/-- The format with the given name. -/
def Format.ofName? : String → Option Format
  | "text" => some text
  | "json" => some json
  | _ => none

/-- What help is asked for. -/
inductive Topic where
  | overview
  | check
  | index
  | help
  deriving DecidableEq, Repr

/-- What is asked for. -/
inductive Invocation where
  /-- The report on a project. -/
  | check (options : CheckOptions) (format : Format) (palette : Palette)
  /-- The view of a scene. -/
  | index (root scene : String) (format : Format)
  | help (topic : Topic)
  deriving DecidableEq, Repr

/-! ### Settings -/

/-- A flag. -/
def Setting.flag (name summary : String) : Setting where
  name
  placeholder := none
  accepts := fun _ => true
  repeatable := false
  summary

/-- An option with any text as its value. -/
def Setting.text (name placeholder summary : String) : Setting where
  name
  placeholder := some placeholder
  accepts := fun _ => true
  repeatable := false
  summary

/-- The number of threads that a value is: decimal digits for a number below `2 ^ 64`, possibly
after a plus sign. -/
def jobs? (value : String) : Option Nat :=
  let digits : List Char :=
    match value.toList with
    | '+' :: digits => digits
    | digits => digits
  let jobs := Nat.ofDigitChars 10 digits 0
  if !digits.isEmpty && digits.all Char.isDigit && jobs < UInt64.size then some jobs else none

def rootSetting : Setting :=
  .text "project-root" "PROJECT_ROOT" "[default: .]"

def verboseSetting : Setting :=
  .flag "verbose" "Raise the default log level to debug (NODELINK_LOG still wins)"

def formatSetting : Setting :=
  { Setting.text "format" "FORMAT" "[default: text] [possible values: text, json]" with
    accepts := fun value => (Format.ofName? value).isSome }

/-- The settings of the command that checks a project. -/
def checkSettings : List Setting :=
  [rootSetting, verboseSetting, .text "scenes-dir" "SCENES_DIR" "[default: scenes]",
    { Setting.text "exclude" "EXCLUDE" "" with repeatable := true }, formatSetting,
    { Setting.text "jobs" "JOBS" "" with accepts := fun value => (jobs? value).isSome },
    .flag "no-color" ""]

/-- The settings of the command that shows a scene. -/
def indexSettings : List Setting :=
  [rootSetting, verboseSetting, .text "scene" "SCENE" "", formatSetting]

/-! ### Arguments -/

/-- The format that was chosen. -/
def chosenFormat (given : List Choice) : Format :=
  ((valueOf? given "format").bind Format.ofName?).getD .text

/-- The root that was chosen. -/
def chosenRoot (given : List Choice) : String :=
  (valueOf? given "project-root").getD "."

/-- The check that was chosen. -/
def chosenCheck (given : List Choice) : Invocation :=
  .check
    { root := chosenRoot given
      scenesDirectory := (valueOf? given "scenes-dir").getD "scenes"
      excluded := valuesOf given "exclude"
      jobs := (valueOf? given "jobs").bind jobs? }
    (chosenFormat given)
    (if (valueOf? given "no-color").isSome then .plain else .coloured)

/-- The view that was chosen. A scene has to be named. -/
def chosenIndex? (given : List Choice) : Option Invocation :=
  (valueOf? given "scene").map fun scene =>
    .index (chosenRoot given) scene (chosenFormat given)

/-- The topic with the given names. -/
def Topic.ofNames? : List String → Option Topic
  | [] => some overview
  | ["check"] => some check
  | ["index"] => some index
  | ["help"] => some help
  | _ => none

namespace Invocation

/-- The invocation of a command with its arguments. -/
def ofCommand? (command : String) (arguments : List String) : Option Invocation :=
  match command with
  | "check" =>
    match scan checkSettings [] arguments with
    | .rejected => none
    | .help => some (.help .check)
    | .choices given => some (chosenCheck given)
  | "index" =>
    match scan indexSettings [] arguments with
    | .rejected => none
    | .help => some (.help .index)
    | .choices given => chosenIndex? given
  | "help" => (Topic.ofNames? arguments).map .help
  | _ => none

/-- The invocation that a list of arguments is. In front of the name of the command only the flag
for a verbose log and a request for help are allowed. -/
def ofArguments? : List String → Option Invocation
  | [] => none
  | argument :: rest =>
    if argument = "--verbose" then
      match rest with
      | [] => none
      | argument :: rest =>
        if asksForHelp argument then some (.help .overview) else ofCommand? argument rest
    else if asksForHelp argument then some (.help .overview)
    else ofCommand? argument rest

end Invocation

end SceneAudit.CommandLine
