import GrammarRules.Text.Shown

/-!
# Command-line arguments

Arguments are options and positions. An option has a long name, which may carry its value after an
equals sign, and may have a letter; letters may be put together after one dash, and the value of
the last may follow directly. Where no value is attached, the next argument is the value, whatever
it is. Two dashes alone end the options.
-/

namespace GrammarRules.Command

/-- What is wrong with the options as they are written. -/
inductive OptionError where
  | unknown (option : String)
  | needsValue (option : String)
  | takesNoValue (option : String)
  deriving DecidableEq, Repr

namespace OptionError

def message : OptionError → String
  | .unknown option => "No such option: " ++ Text.shownBare option
  | .needsValue option => "Option '" ++ option ++ "' requires an argument."
  | .takesNoValue option => "Option '" ++ option ++ "' does not take a value."

end OptionError

/-- An option of a command, under the key by which the command knows it. -/
structure OptionSpec (κ : Type) where
  key : κ
  long : String
  short : Option Char := none
  takesValue : Bool := false

/-- The options given, in order, and the positional arguments. -/
structure Arguments (κ : Type) where
  options : List (κ × String) := []
  positions : List String := []
  deriving Repr

/-- What one argument gives: options with their values, and perhaps one whose value must follow. -/
structure Reading (κ : Type) where
  options : List (κ × String) := []
  waiting : Option (κ × String) := none

namespace Arguments

variable {κ : Type} (specs : List (OptionSpec κ))

def withOptions (found : List (κ × String)) (a : Arguments κ) : Arguments κ :=
  { a with options := found ++ a.options }

def withPosition (argument : String) (a : Arguments κ) : Arguments κ :=
  { a with positions := argument :: a.positions }

/-- Options given by letters. A flag has an empty value. -/
def readLetters : List Char → Except OptionError (Reading κ)
  | [] => .ok {}
  | c :: cs =>
      let option := String.ofList ['-', c]
      match specs.find? fun spec => spec.short == some c with
      | none => .error (.unknown option)
      | some spec =>
          if spec.takesValue then
            if cs.isEmpty then .ok { waiting := some (spec.key, option) }
            else .ok { options := [(spec.key, String.ofList cs)] }
          else
            (readLetters cs).map fun r => { r with options := (spec.key, "") :: r.options }

/-- The name and the attached value of an argument read as a long option. -/
def splitValue (argument : List Char) : String × Option String :=
  let name := argument.takeWhile (· ≠ '=')
  match argument.drop name.length with
  | [] => (String.ofList name, none)
  | _ :: value => (String.ofList name, some (String.ofList value))

def readOption (argument : List Char) : Except OptionError (Reading κ) :=
  let (name, value?) := splitValue argument
  match specs.find? fun spec => spec.long = name with
  | some spec =>
      match spec.takesValue, value? with
      | true, some value => .ok { options := [(spec.key, value)] }
      | true, none => .ok { waiting := some (spec.key, name) }
      | false, some _ => .error (.takesNoValue name)
      | false, none => .ok { options := [(spec.key, "")] }
  | none =>
      match argument with
      | '-' :: '-' :: _ => .error (.unknown name)
      | _ => readLetters specs argument.tail

/-- A dash alone is a position. -/
def isOption (argument : List Char) : Bool :=
  match argument with
  | '-' :: _ :: _ => true
  | _ => false

/-- Read arguments. Unless `mixed`, the first position ends the options. -/
def read (mixed : Bool) : List String → Except OptionError (Arguments κ)
  | [] => .ok {}
  | argument :: rest =>
      if argument = "--" then .ok { positions := rest }
      else if isOption argument.toList then
        match readOption specs argument.toList with
        | .error e => .error e
        | .ok ⟨found, none⟩ => (read mixed rest).map (withOptions found)
        | .ok ⟨found, some (key, name)⟩ =>
            match rest with
            | [] => .error (.needsValue name)
            | value :: rest => (read mixed rest).map (withOptions (found ++ [(key, value)]))
      else if mixed then (read mixed rest).map (withPosition argument)
      else .ok { positions := argument :: rest }

/-- The value of an option, the last one given if there are several. -/
def value? [BEq κ] (a : Arguments κ) (key : κ) : Option String := a.options.reverse.lookup key

def has [BEq κ] (a : Arguments κ) (key : κ) : Bool := (a.value? key).isSome

end Arguments
end GrammarRules.Command
