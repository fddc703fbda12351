import GrammarRules.Recipe

/-!
# Targets

A target names a grammar as `module:attribute`. Modules are looked up in a table by their dotted
names, a module inside another one only if that one is a package. A member of a module is a
grammar, makes one when it is called, or is something else. Besides the members it is given, every
module has those by which it describes itself.
-/

namespace GrammarRules.Command

inductive Member where
  | grammar (g : Grammar)
  | factory (recipe : Recipe)
  /-- Something of another kind, or what gives it when it is called. -/
  | other (kind : String)
  /-- Something that has to be called with arguments, and says so. -/
  | demanding (complaint : String)

structure Module where
  name : String
  isPackage : Bool := false
  members : List (String × Member) := []

namespace Module

/-- The members by which every module describes itself. -/
def description : List (String × Member) := [
  ("__name__", .other "str"), ("__doc__", .other "NoneType"), ("__package__", .other "NoneType"),
  ("__loader__", .other "NoneType"), ("__spec__", .other "NoneType"), ("__dict__", .other "dict"),
  ("__annotations__", .other "dict"), ("__str__", .other "str"), ("__repr__", .other "str"),
  ("__dir__", .other "list"), ("__getstate__", .other "dict"), ("__hash__", .other "int"),
  ("__sizeof__", .other "int"), ("__init_subclass__", .other "NoneType"),
  ("__subclasshook__", .other "NotImplementedType")]

/-- The members of every module that cannot do without arguments. -/
def operations : List (String × Member) :=
  let unnamed := Member.demanding "module() missing required argument 'name' (pos 1)"
  let lone := Member.demanding "expected 1 argument, got 0"
  [("__class__", unnamed), ("__init__", unnamed),
    ("__new__", .demanding "module.__new__(): not enough arguments"),
    ("__eq__", lone), ("__ne__", lone), ("__lt__", lone), ("__le__", lone), ("__gt__", lone),
    ("__ge__", lone), ("__getattribute__", lone), ("__delattr__", lone),
    ("__setattr__", .demanding " expected 2 arguments, got 0"),
    ("__format__", .demanding "__format__() takes exactly one argument (0 given)"),
    ("__reduce_ex__", .demanding "__reduce_ex__() takes exactly one argument (0 given)"),
    ("__reduce__", .demanding "cannot pickle 'module' object")]

def member? (m : Module) (name : String) : Option Member :=
  (m.members ++ description ++ operations).lookup name

end Module

inductive TargetError where
  | malformed (target : String)
  /-- `missing` is not there, perhaps because `inside`, where it would be, is no package. -/
  | notFound (name missing : String) (inside : Option String)
  | relative (name : String)
  | noMember (name member : String)
  | notGrammar (target kind : String)
  | uncallable (complaint : String)
  deriving DecidableEq, Repr

namespace TargetError

def message : TargetError → String
  | .malformed target => "Expected 'module:attribute', got '" ++ target ++ "'"
  | .notFound name missing inside =>
      "Cannot import module '" ++ name ++ "': No module named " ++ Text.shown missing ++
        (match inside with
          | none => ""
          | some parent => "; " ++ Text.shown parent ++ " is not a package")
  | .relative name =>
      "the 'package' argument is required to perform a relative import for " ++ Text.shown name
  | .noMember name member => "Module '" ++ name ++ "' has no attribute '" ++ member ++ "'"
  | .notGrammar target kind => "'" ++ target ++ "' is not a Grammar (got " ++ kind ++ ")"
  | .uncallable complaint => complaint

end TargetError

/-- The members by which a bundled module describes itself. -/
def bundledDescription : List (String × Member) := [
  ("__doc__", .other "str"), ("__package__", .other "str"), ("__file__", .other "str"),
  ("__cached__", .other "str"), ("__loader__", .other "SourceFileLoader"),
  ("__spec__", .other "ModuleSpec"), ("__builtins__", .other "dict")]

/-- The bundled modules. -/
def bundled : List Module :=
  let package := ("__path__", Member.other "list") :: bundledDescription
  let examples := [
    ("iso8601_grammar", Member.factory { base := .dates }),
    ("iso8601_date_grammar", Member.factory { base := .rootedDates })]
  let contents := [("iso8601", Member.other "module"), ("__all__", .other "list")]
  let tools := [("Grammar", Member.factory {}), ("GrammarOptions", .other "GrammarOptions"),
    ("annotations", .other "_Feature")]
  [{ name := "grammar_builder", isPackage := true, members := package },
    { name := "grammar_builder.examples", isPackage := true,
      members := examples ++ contents ++ package },
    { name := "grammar_builder.examples.iso8601",
      members := examples ++ tools ++ bundledDescription }]

namespace Target

/-- The names before and after the first colon, if both are there. -/
def split? (target : String) : Option (String × String) :=
  let cs := target.toList
  let name := cs.takeWhile (· ≠ ':')
  let member := (cs.drop name.length).tail
  if name.isEmpty || member.isEmpty then none
  else some (String.ofList name, String.ofList member)

def nameOf (pieces : List (List Char)) : String :=
  String.ofList (['.'].intercalate pieces.reverse)

/-- The module whose dotted name has the given pieces, last first, or the name that is missing on
the way to it and the module that would have to be a package. -/
def find (modules : List Module) :
    List (List Char) → Except (String × Option String) Module
  | [] => .error ("", none)
  | piece :: parents =>
      let name := nameOf (piece :: parents)
      match modules.find? fun m => m.name = name with
      | some m => .ok m
      | none =>
          if parents.isEmpty then .error (name, none)
          else
            match find modules parents with
            | .error e => .error e
            | .ok parent => .error (name, if parent.isPackage then none else some parent.name)

def pieces (name : String) : List (List Char) := name.toList.splitOn '.'

def findModule (modules : List Module) (name : String) : Except TargetError Module :=
  if name.toList.head? = some '.' then .error (.relative name)
  else
    match find modules (pieces name).reverse with
    | .ok m => .ok m
    | .error (missing, inside) => .error (.notFound name missing inside)

/-- The member that a target names. -/
def resolve (modules : List Module) (target : String) : Except TargetError Member :=
  match split? target with
  | none => .error (.malformed target)
  | some (name, member) =>
      match findModule modules name with
      | .error e => .error e
      | .ok m =>
          match m.member? member with
          | some found => .ok found
          | none => .error (.noMember name member)

end Target
end GrammarRules.Command
