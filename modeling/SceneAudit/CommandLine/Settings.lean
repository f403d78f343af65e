/-!
# Settings on a command line

A command takes settings: flags, and options with a value. An option is followed by its value, or
joined with it by an equals sign; a value that follows its option must not look like an option
itself. A flag, and an option that is not for several values, is given once at most. Arguments are
read in order, and a request for help ends the reading, so that nothing after it matters.

## Main definitions

* `CommandLine.Setting`: a setting that a command takes.
* `CommandLine.Choice`: a setting as it was given.
* `CommandLine.scan`: the settings in a list of arguments.
-/

namespace SceneAudit.CommandLine

/-- A setting that a command takes. -/
structure Setting where
  name : String
  /-- How the value is called in help. A flag has no value. -/
  placeholder : Option String
  /-- Which values can be given. -/
  accepts : String → Bool
  /-- Whether the setting may be given several times. -/
  repeatable : Bool
  summary : String

/-- A setting as it was given. The value of a flag is empty. -/
structure Choice where
  name : String
  value : String
  deriving DecidableEq, Repr

/-- What a list of arguments asks for. -/
inductive Request where
  | rejected
  | help
  | choices (given : List Choice)
  deriving DecidableEq, Repr

/-- Whether an argument asks for help. -/
def asksForHelp (argument : String) : Bool :=
  argument = "--help" || ['-', 'h'].isPrefixOf argument.toList

/-- Whether an argument looks like an option. A single dash does not. -/
def isOptionLike (argument : String) : Bool :=
  match argument.toList with
  | '-' :: _ :: _ => true
  | _ => false

/-- The name of a long option, and the value joined with it by an equals sign. -/
def splitOption? (argument : String) : Option (String × Option String) :=
  match argument.toList with
  | '-' :: '-' :: rest =>
    some (String.ofList (rest.takeWhile (· ≠ '=')),
      match rest.dropWhile (· ≠ '=') with
      | [] => none
      | _ :: value => some (String.ofList value))
  | _ => none

/-- The choice of a setting, if it can be given once more and accepts the value. -/
def choose? (given : List Choice) (setting : Setting) (value : String) : Option (List Choice) :=
  if !setting.repeatable && given.any (fun choice => choice.name == setting.name) then none
  else if setting.accepts value then some (given ++ [⟨setting.name, value⟩])
  else none

/-- The settings in a list of arguments, after those already given. -/
def scan (settings : List Setting) (given : List Choice) : List String → Request
  | [] => .choices given
  | "--" :: rest => if rest = [] then .choices given else .rejected
  | argument :: rest =>
    if asksForHelp argument then .help
    else
      match splitOption? argument with
      | none => .rejected
      | some (name, joined) =>
        match settings.find? (fun setting => setting.name == name), joined, rest with
        | none, _, _ => .rejected
        | some setting, some value, rest =>
          if setting.placeholder.isNone then .rejected
          else
            match choose? given setting value with
            | none => .rejected
            | some given => scan settings given rest
        | some setting, none, rest =>
          if setting.placeholder.isNone then
            match choose? given setting "" with
            | none => .rejected
            | some given => scan settings given rest
          else
            match rest with
            | [] => .rejected
            | value :: rest =>
              if isOptionLike value then .rejected
              else
                match choose? given setting value with
                | none => .rejected
                | some given => scan settings given rest

/-- The value given to a setting. -/
def valueOf? (given : List Choice) (name : String) : Option String :=
  (given.find? fun choice => choice.name == name).map Choice.value

/-- All values given to a setting, in order. -/
def valuesOf (given : List Choice) (name : String) : List String :=
  (given.filter fun choice => choice.name == name).map Choice.value

end SceneAudit.CommandLine
