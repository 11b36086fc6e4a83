import Playtest.Number.Notation
import Playtest.Report.Reporter

/-!
# The command line

Options are written `--name value` or `--name=value`, flags `--name`; nothing else may stand on the
command line, and nothing may stand there twice. What an option is given is looked at when the next
option comes or the command line ends, so of two mistakes the one that is noticed first is reported.

* `Options.ofArguments` reads a command line,
* `OptionFault` is what may be wrong with it.
-/

namespace Playtest.Headless

/-- What is wrong with a command line. -/
inductive OptionFault where
  | unknownArgument
  | tooManyValues
  /-- A value that is missing, or empty where it must not be. -/
  | invalidValue
  /-- A value that does not mean what it should. -/
  | valueValidation
  | argumentConflict
  | missingRequiredArgument
  /-- Nothing is wrong: help is asked for. -/
  | displayHelp
  deriving Repr, DecidableEq

/-- The name of a fault. -/
def OptionFault.name : OptionFault → String
  | .unknownArgument => "UnknownArgument"
  | .tooManyValues => "TooManyValues"
  | .invalidValue => "InvalidValue"
  | .valueValidation => "ValueValidation"
  | .argumentConflict => "ArgumentConflict"
  | .missingRequiredArgument => "MissingRequiredArgument"
  | .displayHelp => "DisplayHelp"

/-- What a run is asked to do. -/
structure Options where
  /-- The resource path of what is to be played. -/
  sequence : Option String
  /-- The file of an assignment that is to be played instead. -/
  assignment : Option String
  /-- The file of the recording. -/
  frames : String
  /-- The file of the settings. -/
  config : Option String
  resourceRoot : Option String
  timeout : Option Float
  /-- Seconds between frames without times. -/
  frameDelta : Float
  reporter : Report.ReporterKind
  noProgress : Bool
  runId : Option String

/-- The names that options have. -/
inductive OptionName where
  | sequence
  | assignment
  | frames
  | config
  | resourceRoot
  | timeout
  | frameDelta
  | reporter
  | runId
  deriving Repr, DecidableEq

/-- The option with a name. -/
def OptionName.ofName? : String → Option OptionName
  | "sequence" => some .sequence
  | "assignment" => some .assignment
  | "frames" => some .frames
  | "config" => some .config
  | "resource-root" => some .resourceRoot
  | "timeout" => some .timeout
  | "frame-delta" => some .frameDelta
  | "reporter" => some .reporter
  | "run-id" => some .runId
  | _ => none

/-- What was read of a command line so far. -/
structure Given where
  texts : List (OptionName × String)
  timeout : Option Float
  frameDelta : Option Float
  reporter : Option Report.ReporterKind
  noProgress : Bool
  /-- The option whose value comes next, or has come last. -/
  waiting : Option (OptionName × Option String)

namespace Given

/-- Nothing was read. -/
def nothing : Given := ⟨[], none, none, none, false, none⟩

/-- The text that an option was given. -/
def text? (g : Given) (name : OptionName) : Option String := g.texts.lookup name

/-- Whether an option was given. -/
def has (g : Given) (name : OptionName) : Bool := (g.text? name).isSome

/-- Reads a number. -/
def number (value : String) : Except OptionFault Float :=
  match Number.ofText? value with
  | some x => .ok x
  | none => .error .valueValidation

/-- Checks the value of an option. Files have names. -/
def check (g : Given) (name : OptionName) (value : String) : Except OptionFault Given :=
  match name with
  | .sequence | .runId => .ok g
  | .assignment | .frames | .config | .resourceRoot =>
      if value = "" then .error .invalidValue else .ok g
  | .timeout => (number value).map fun x => { g with timeout := some x }
  | .frameDelta => (number value).map fun x => { g with frameDelta := some x }
  | .reporter =>
      match Report.ReporterKind.ofName? value with
      | some kind => .ok { g with reporter := some kind }
      | none => .error .valueValidation

/-- Takes the value of an option. -/
def give (g : Given) (name : OptionName) (value : String) : Except OptionFault Given :=
  if g.has name then .error .argumentConflict
  else (g.check name value).map fun g => { g with texts := g.texts ++ [(name, value)] }

/-- Looks at what the last option was given. -/
def settle (g : Given) : Except OptionFault Given :=
  match g.waiting with
  | none => .ok g
  | some (_, none) => .error .invalidValue
  | some (name, some value) => { g with waiting := none }.give name value

/-- Takes the flag that hides the progress. -/
def hideProgress (g : Given) : Except OptionFault Given := do
  let g ← g.settle
  if g.noProgress then .error .argumentConflict else .ok { g with noProgress := true }

/-- Gives help, unless the last option was given something wrong. -/
def help (g : Given) : Except OptionFault Given := do
  let _ ← g.settle
  .error .displayHelp

/-- Takes an option by name, with its value if it stands in the same argument. -/
def option (g : Given) (name : String) (value : Option String) : Except OptionFault Given :=
  match OptionName.ofName? name, value with
  | some o, none => g.settle.map fun g => { g with waiting := some (o, none) }
  | some o, some value => g.settle.bind fun g => g.give o value
  | none, value =>
      if name = "no-progress" then
        if value.isSome then .error .tooManyValues else g.hideProgress
      else if name = "help" then
        if value.isSome then .error .tooManyValues else g.help
      else .error .unknownArgument

/-- Takes an argument that is no option. -/
def loose (g : Given) (value : String) : Except OptionFault Given :=
  match g.waiting with
  | some (name, none) => .ok { g with waiting := some (name, some value) }
  | some (_, some _) | none => .error .unknownArgument

/-- Takes an argument with one dash. There is only `-h`. -/
def short (g : Given) (letters : List Char) : Except OptionFault Given :=
  match letters with
  | 'h' :: _ => g.help
  | _ => .error .unknownArgument

/-- A name cut at the first equals sign. -/
def cutEquals (cs : List Char) : String × Option String :=
  match cs.dropWhile (· != '=') with
  | [] => (String.ofList cs, none)
  | _ :: value => (String.ofList (cs.takeWhile (· != '=')), some (String.ofList value))

/-- Takes an argument that stands before any `--`. -/
def argument (g : Given) (value : String) : Except OptionFault Given :=
  match value.toList with
  | '-' :: '-' :: name =>
      let (name, value) := cutEquals name
      g.option name value
  | '-' :: letter :: letters => g.short (letter :: letters)
  | _ => g.loose value

/-- Takes all arguments. Nothing may follow `--`. -/
def all : Given → List String → Except OptionFault Given
  | g, [] => g.settle
  | g, "--" :: rest => if rest.isEmpty then g.settle else .error .unknownArgument
  | g, value :: rest => (g.argument value).bind fun g => all g rest

/-- What is asked for, if the options go together and nothing is missing. -/
def options (g : Given) : Except OptionFault Options :=
  if g.has .sequence && g.has .assignment then .error .argumentConflict
  else
    match g.text? .frames with
    | none => .error .missingRequiredArgument
    | some frames =>
        if !(g.has .sequence || g.has .assignment) then .error .missingRequiredArgument
        else
          .ok
            { sequence := g.text? .sequence
              assignment := g.text? .assignment
              frames
              config := g.text? .config
              resourceRoot := g.text? .resourceRoot
              timeout := g.timeout
              frameDelta := g.frameDelta.getD 0.016666
              reporter := g.reporter.getD .default
              noProgress := g.noProgress
              runId := g.text? .runId }

end Given

/-- **Reads a command line**, without the name of the program. -/
def Options.ofArguments (arguments : List String) : Except OptionFault Options :=
  (Given.nothing.all arguments).bind Given.options

end Playtest.Headless
