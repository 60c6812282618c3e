import Inference.Command.Run

set_option autoImplicit false
set_option relaxedAutoImplicit false

/-!
# Command-line arguments

An argument list names a command, its file, and options. Options have a long form, some have a
short one; a value follows as the next argument, after an equals sign, or right behind the short
form. Two dashes end the options.

## Main definitions

* `Request`, `Request.ofArguments` — what an argument list asks for.
* `OptionForm`, `Arguments.scan` — the options of a command, and how a list is taken apart.
* `UsageFault` — why a list asks for nothing.
-/

namespace Inference

/-- What the program is asked for. -/
inductive Request where
  | inspect (model : String) (json : Bool)
  | run (arguments : RunArguments)
deriving DecidableEq

/-- Why an argument list asks for nothing. -/
inductive UsageFault where
  | missingCommand
  | unknownCommand (name : String)
  | missingModel
  | unexpected (argument : String)
  | missingValue (option : String)
  | unwantedValue (option : String)
  | invalidValue (option value : String)
  | repeated (option : String)
deriving DecidableEq

/-- The wording of a usage fault. -/
def UsageFault.message : UsageFault → String
  | .missingCommand => "a subcommand is required: inspect or run"
  | .unknownCommand name => s!"unrecognized subcommand '{name}'"
  | .missingModel => "the path of a descriptor file is required"
  | .unexpected argument => s!"unexpected argument '{argument}' found"
  | .missingValue option => s!"a value is required for '--{option}'"
  | .unwantedValue option => s!"no value is expected for '--{option}'"
  | .invalidValue option value => s!"invalid value '{value}' for '--{option}'"
  | .repeated option => s!"the argument '--{option}' cannot be used multiple times"

/-- The forms of an option. -/
structure OptionForm where
  long : String
  short : Option Char := none
  takesValue : Bool := false
  /-- Whether it may be given more than once. -/
  repeats : Bool := false

/-- An argument list taken apart: options with their values in order, and the other arguments. -/
structure Arguments where
  options : List (String × String) := []
  positional : List String := []

namespace Arguments

/-- The list with one more option. -/
def addOption (arguments : Arguments) (name value : String) : Arguments :=
  { arguments with options := arguments.options ++ [(name, value)] }

/-- The list with one more argument that is no option. -/
def addPositional (arguments : Arguments) (value : String) : Arguments :=
  { arguments with positional := arguments.positional ++ [value] }

/-- The values of an option. -/
def values (arguments : Arguments) (name : String) : List String :=
  (arguments.options.filter fun (key, _) => key = name).map Prod.snd

/-- Whether an argument is read as an option where one may stand. -/
def isOption (argument : List Char) : Bool :=
  match argument with
  | '-' :: _ :: _ => true
  | _ => false

/-- How one argument reads: the options it holds, and the option whose value must follow. -/
abbrev Reading := Except UsageFault (List (String × String) × Option String)

/-- Reads an option in its long form, without the dashes. -/
def readLong (forms : List OptionForm) (body : List Char) : Reading :=
  let name := String.ofList (body.takeWhile (· != '='))
  match forms.find? fun form => form.long = name, body.dropWhile (· != '=') with
  | none, _ => .error (.unexpected ("--" ++ name))
  | some form, [] =>
    if form.takesValue then .ok ([], some form.long) else .ok ([(form.long, "")], none)
  | some form, _ :: value =>
    if form.takesValue then .ok ([(form.long, String.ofList value)], none)
    else .error (.unwantedValue form.long)

/-- Reads options in their short form, without the dash. -/
def readShort (forms : List OptionForm) : List Char → Reading
  | [] => .ok ([], none)
  | c :: rest =>
    match forms.find? fun form => form.short = some c with
    | none => .error (.unexpected (String.ofList ['-', c]))
    | some form =>
      if form.takesValue then
        match rest with
        | [] => .ok ([], some form.long)
        | '=' :: value => .ok ([(form.long, String.ofList value)], none)
        | value => .ok ([(form.long, String.ofList value)], none)
      else
        match readShort forms rest with
        | .error fault => .error fault
        | .ok (options, wanting) => .ok ((form.long, "") :: options, wanting)

/-- Reads one argument that looks like an option. -/
def readOption (forms : List OptionForm) (argument : String) : Reading :=
  match argument.toList with
  | '-' :: '-' :: body => readLong forms body
  | _ :: body => readShort forms body
  | [] => .error (.unexpected argument)

/-- Takes an argument list apart. `wanting` is the option whose value comes next, if there is
one. -/
def scan (forms : List OptionForm) (sofar : Arguments) (wanting : Option String) :
    List String → Except UsageFault Arguments
  | [] =>
    match wanting with
    | some name => .error (.missingValue name)
    | none => .ok sofar
  | argument :: rest =>
    match wanting with
    | some name =>
      if isOption argument.toList then .error (.missingValue name)
      else scan forms (sofar.addOption name argument) none rest
    | none =>
      if argument = "--" then .ok { sofar with positional := sofar.positional ++ rest }
      else if isOption argument.toList then
        match readOption forms argument with
        | .error fault => .error fault
        | .ok (options, wanting) =>
          scan forms { sofar with options := sofar.options ++ options } wanting rest
      else scan forms (sofar.addPositional argument) none rest

/-- The first option that is given more than once and must not be. -/
def repeated? (forms : List OptionForm) (arguments : Arguments) : Option String :=
  (forms.find? fun form => !form.repeats && 1 < (arguments.values form.long).length).map
    OptionForm.long

/-- The first option whose value is empty. -/
def emptyValue? (forms : List OptionForm) (arguments : Arguments) : Option String :=
  (forms.find? fun form => form.takesValue && (arguments.values form.long).contains "").map
    OptionForm.long

/-- Takes an argument list of a command apart and checks it. -/
def check (forms : List OptionForm) (list : List String) :
    Except UsageFault (String × Arguments) := do
  let arguments ← scan forms {} none list
  match repeated? forms arguments, emptyValue? forms arguments, arguments.positional with
  | some name, _, _ => .error (.repeated name)
  | none, some name, _ => .error (.missingValue name)
  | none, none, [] => .error .missingModel
  | none, none, [model] =>
    if model.isEmpty then .error .missingModel else .ok (model, arguments)
  | none, none, _ :: extra :: _ => .error (.unexpected extra)

end Arguments

namespace Request

/-- More messages about what happens; accepted everywhere. -/
def verboseForm : OptionForm := { long := "verbose", short := some 'v', repeats := true }

/-- The options of the command that inspects. -/
def inspectForms : List OptionForm :=
  [verboseForm, { long := "json" }]

/-- The options of the command that runs. -/
def runForms : List OptionForm :=
  [verboseForm, { long := "json" },
   { long := "input", short := some 'i', takesValue := true, repeats := true },
   { long := "output-dir", short := some 'o', takesValue := true },
   { long := "config", short := some 'c', takesValue := true },
   { long := "repeat", takesValue := true }]

/-- The number of passes that is asked for; one if none is given. -/
def repetitions (arguments : Arguments) : Except UsageFault Nat :=
  match arguments.values "repeat" with
  | [] => .ok 1
  | text :: _ => orFault (Budget.count? text.toList) (.invalidValue "repeat" text)

/-- What the arguments of the command that runs ask for. -/
def ofRunArguments (list : List String) : Except UsageFault Request := do
  let (model, arguments) ← Arguments.check runForms list
  let count ← repetitions arguments
  return .run
    { model := model
      inputs := arguments.values "input"
      outputDirectory := (arguments.values "output-dir").head?
      settings := (arguments.values "config").head?
      repetitions := count
      json := !(arguments.values "json").isEmpty }

/-- What the arguments of the command that inspects ask for. -/
def ofInspectArguments (list : List String) : Except UsageFault Request := do
  let (model, arguments) ← Arguments.check inspectForms list
  return .inspect model (!(arguments.values "json").isEmpty)

/-- What an argument list asks for. -/
def ofArguments : List String → Except UsageFault Request
  | [] => .error .missingCommand
  | argument :: rest =>
    if Arguments.isOption argument.toList then
      match Arguments.readOption [verboseForm] argument with
      | .error fault => .error fault
      | .ok _ => ofArguments rest
    else if argument = "inspect" then ofInspectArguments rest
    else if argument = "run" then ofRunArguments rest
    else .error (.unknownCommand argument)

end Request

end Inference
