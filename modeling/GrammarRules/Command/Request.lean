import GrammarRules.Command.Arguments
import GrammarRules.Command.Target

/-!
# Requests on the command line

The first position names a command, `build` or `example`; options before it are for all commands,
those after it for the command. How the options are written is checked first, then the values and
positions of the command. Asking for the version or for help comes before the command is looked at.
-/

namespace GrammarRules.Command

inductive UsageError where
  | option (e : OptionError)
  | badMode (value : String)
  | missingTarget
  | extraPositions (arguments : List String)
  | missingCommand
  | unknownCommand (name : String)
  | badTarget (e : TargetError)
  deriving DecidableEq, Repr

def UsageError.message : UsageError → String
  | .option e => e.message
  | .badMode value =>
      "Invalid value for '--mode' / '-m': Value error, " ++ Text.shown value ++
        " is not one of 'gbnf', 'ebnf'."
  | .missingTarget => "Missing argument 'target'."
  | .extraPositions arguments =>
      "Got unexpected extra argument(s) (" ++ Text.shownBare (" ".intercalate arguments) ++ ")"
  | .missingCommand => "Missing command."
  | .unknownCommand name => "No such command " ++ Text.shown name ++ "."
  | .badTarget e => "Invalid value: " ++ e.message

/-- How a grammar is put out: the notation, if not its own; the file, if not the standard output;
and whether it is highlighted there. -/
structure Delivery where
  mode : Option Mode := none
  output : Option String := none
  debug : Bool := false
  deriving DecidableEq, Repr

inductive Request where
  | help
  | version
  | build (verbose : Bool) (target : String) (delivery : Delivery)
  | sample (verbose : Bool) (mode : Mode)
  deriving DecidableEq, Repr

inductive Key where
  | help
  | version
  | verbose
  | mode
  | output
  | debug
  deriving DecidableEq, Repr

namespace Request

def helpSpec : OptionSpec Key := { key := .help, long := "--help" }

def modeSpec : OptionSpec Key :=
  { key := .mode, long := "--mode", short := some 'm', takesValue := true }

def sharedSpecs : List (OptionSpec Key) := [
  { key := .version, long := "--version", short := some 'V' },
  { key := .verbose, long := "--verbose", short := some 'v' },
  helpSpec]

def buildSpecs : List (OptionSpec Key) := [
  modeSpec,
  { key := .output, long := "--output", short := some 'o', takesValue := true },
  { key := .debug, long := "--debug" },
  helpSpec]

def sampleSpecs : List (OptionSpec Key) := [modeSpec, helpSpec]

def readArguments (specs : List (OptionSpec Key)) (mixed : Bool) (arguments : List String) :
    Except UsageError (Arguments Key) :=
  (Arguments.read specs mixed arguments).mapError .option

/-- The notation asked for. -/
def modeOf (a : Arguments Key) : Except UsageError (Option Mode) :=
  match a.value? .mode with
  | none => .ok none
  | some tag =>
      match Mode.ofTag? tag with
      | some mode => .ok (some mode)
      | none => .error (.badMode tag)

def ofBuild (verbose : Bool) (arguments : List String) : Except UsageError Request := do
  let a ← readArguments buildSpecs true arguments
  if a.has .help then return .help
  let mode ← modeOf a
  match a.positions with
  | [] => throw .missingTarget
  | [target] =>
      return .build verbose target
        { mode := mode, output := a.value? .output, debug := a.has .debug }
  | _ :: extra => throw (.extraPositions extra)

def ofSample (verbose : Bool) (arguments : List String) : Except UsageError Request := do
  let a ← readArguments sampleSpecs true arguments
  if a.has .help then return .help
  let mode ← modeOf a
  match a.positions with
  | [] => return .sample verbose (mode.getD .gbnf)
  | extra => throw (.extraPositions extra)

/-- A shared option that is answered at once, the first of them if several are given. -/
def atOnce? (a : Arguments Key) : Option Request :=
  a.options.findSome? fun (key, _) =>
    match key with
    | .version => some .version
    | .help => some .help
    | _ => none

/-- The request to a command. A name that is no command is read as an option once more before it
is refused. -/
def ofCommand (verbose : Bool) (name : String) (arguments : List String) :
    Except UsageError Request :=
  if name = "build" then ofBuild verbose arguments
  else if name = "example" then ofSample verbose arguments
  else do
    let a ← readArguments sharedSpecs false (name :: arguments)
    match atOnce? a with
    | some request => return request
    | none => throw (.unknownCommand name)

def ofArguments (arguments : List String) : Except UsageError Request := do
  if arguments.isEmpty then return .help
  let a ← readArguments sharedSpecs false arguments
  match atOnce? a with
  | some request => return request
  | none =>
      match a.positions with
      | [] => throw .missingCommand
      | name :: rest => ofCommand (a.has .verbose) name rest

end Request
end GrammarRules.Command
