import GrammarRules.Command.Request
import GrammarRules.Version

/-!
# Running a command

Running a request gives what is written to the standard output, to the standard error and to files,
and how it ends: with an exit code, or by a failure that the command does not handle. Errors of the
grammar while it is built are reported and end the command with code 1. Warnings are reported as
they come; if the command is verbose, so is every event, with its level and source.
-/

namespace GrammarRules.Command

inductive Failure where
  | usage (e : UsageError)
  | error (e : Error)
  /-- A target with a relative module, or one that has to be called with arguments. -/
  | target (e : TargetError)
  /-- A path that holds a null character. -/
  | nullInPath
  | unwritable (path : String)
  deriving DecidableEq, Repr

def Failure.message : Failure → String
  | .usage e => e.message
  | .error e => e.message
  | .target e => e.message
  | .nullInPath => "embedded null byte"
  | .unwritable path => "Cannot write " ++ path

inductive Ending where
  | exit (code : Nat)
  | failed (failure : Failure)
  deriving DecidableEq, Repr

structure Output where
  stdout : String := ""
  stderr : String := ""
  files : List (String × String) := []
  deriving DecidableEq, Repr

namespace Output

def print (o : Output) (text : String) : Output := { o with stdout := o.stdout ++ text }

def report (o : Output) (text : String) : Output := { o with stderr := o.stderr ++ text }

def write (o : Output) (path content : String) : Output :=
  { o with files := o.files ++ [(path, content)] }

end Output

/-- The line that reports an event, if it is reported. -/
def eventLine? (verbose : Bool) (e : Event) : Option String :=
  if verbose then
    some (e.level.label ++ " grammar_builder.core." ++ e.source ++ ": " ++ e.message ++ "\n")
  else if e.level = .warning then some (e.message ++ "\n")
  else none

/-- What a session has printed and recorded, put out and taken off the session. -/
def drain (columns : Nat) (verbose : Bool) (o : Output) (s : Session) : Output × Session :=
  let lines := s.events.filterMap (eventLine? verbose)
  (((o.print (Console.wrapped columns s.printed)).report (String.join lines)),
    { s with events := [], printed := "" })

/-- A path without empty steps and steps to the same place. -/
def plainPath (path : String) : String :=
  let steps := (path.toList.splitOn '/').filter fun step => step ≠ [] && step ≠ ['.']
  let start := if path.toList.head? = some '/' then ['/'] else []
  match start ++ ['/'].intercalate steps with
  | [] => "."
  | cs => String.ofList cs

/-- The place where all that is written is lost. -/
def nullDevice : String := "/dev/null"

/-- Whether a file can be written at a path, in an empty directory: not at the directory itself,
nor in another directory. -/
def isWritable (path : String) : Bool :=
  path ≠ "." && path ≠ ".." && !path.toList.contains '/' && path.utf8ByteSize ≤ 255

/-- Put out the grammar of a session. -/
def deliver (columns : Nat) (verbose : Bool) (d : Delivery) (o : Output) (s : Session) :
    Ending × Output :=
  let mode := d.mode.getD s.grammar.options.mode
  let (result, s) := (Session.build (some mode)).run.run s
  let (o, _) := drain columns verbose o s
  match result with
  | .error (.grammar e) =>
      (.exit 1, o.report (Console.wrapped columns (Console.printError e.message)))
  | .error e => (.failed (.error e), o)
  | .ok text =>
      match d.output with
      | some path =>
          let path := plainPath path
          let done := Console.wrapped columns (Console.print ("Wrote grammar to " ++ path))
          if path = nullDevice then (.exit 0, o.print done)
          else if isWritable path then (.exit 0, (o.write path (text ++ "\n")).print done)
          else (.failed (.unwritable path), o)
      | none =>
          if d.debug then
            let highlighted := Console.printStyled (Highlight.text mode text)
            (.exit 0, o.print (Console.wrapped columns highlighted))
          else (.exit 0, o.print (Console.echo text))

/-- Put out the grammar that a recipe makes. -/
def deliverRecipe (columns : Nat) (verbose : Bool) (d : Delivery) (r : Recipe) : Ending × Output :=
  let (result, s) := r.follow
  let (o, s) := drain columns verbose {} s
  match result with
  | .error e => (.failed (.error e), o)
  | .ok _ => deliver columns verbose d o s

def refuse (e : TargetError) : Ending × Output :=
  match e with
  | .relative _ | .uncallable _ => (.failed (.target e), {})
  | _ => (.failed (.usage (.badTarget e)), {})

/-- Put out the grammar that a target names. The path of the file is looked at first. -/
def deliverTarget (columns : Nat) (modules : List Module) (verbose : Bool) (target : String)
    (d : Delivery) : Ending × Output :=
  if d.output.any fun path => path.toList.contains '\x00' then (.failed .nullInPath, {})
  else
    match Target.resolve modules target with
    | .error e => refuse e
    | .ok (.grammar g) => deliver columns verbose d {} { grammar := g }
    | .ok (.factory r) => deliverRecipe columns verbose d r
    | .ok (.other kind) => refuse (.notGrammar target kind)
    | .ok (.demanding complaint) => refuse (.uncallable complaint)

def helpText : String :=
  "Usage: grammar-builder [--version] [--verbose] COMMAND [ARGS]...\n\n" ++
  "Commands:\n" ++
  "  build TARGET [--mode gbnf|ebnf] [--output FILE] [--debug]\n" ++
  "  example [--mode gbnf|ebnf]\n"

def Request.run (columns : Nat) (modules : List Module) : Request → Ending × Output
  | .help => (.exit 0, { stdout := helpText })
  | .version => (.exit 0, { stdout := Console.echo ("grammar-builder " ++ Version.current) })
  | .build verbose target d => deliverTarget columns modules verbose target d
  | .sample verbose mode =>
      deliverRecipe columns verbose { mode := some mode } { base := .rootedDates }

/-- Run the arguments of a command line, with `modules` beside the bundled ones, on a console with
that many columns. -/
def run (modules : List Module) (arguments : List String) (columns : Nat := Console.ampleColumns) :
    Ending × Output :=
  match Request.ofArguments arguments with
  | .error e => (.failed (.usage e), {})
  | .ok request => request.run columns (modules ++ bundled)

end GrammarRules.Command
