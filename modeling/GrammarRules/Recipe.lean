import GrammarRules.Example.CalendarDate
import GrammarRules.Session

/-!
# Recipes

A recipe says how a grammar comes about: the fields of its options, the environment they follow if
they follow one, the example it starts from, and the steps taken. Following a recipe ends with the
first error.
-/

namespace GrammarRules

/-- What a grammar starts from. -/
inductive Base where
  | empty
  | dates
  | rootedDates
  deriving DecidableEq, Repr

def Base.steps : Base → List Step
  | .empty => []
  | .dates => Example.CalendarDate.rules
  | .rootedDates => Example.CalendarDate.rooted

structure Recipe where
  base : Base := .empty
  options : Data.Fields := []
  /-- The value of the variable that the options follow, `some none` if it is not set. -/
  follows : Option (Option String) := none
  steps : List Step := []

namespace Recipe

def readOptions (r : Recipe) : Checked Options × List Event :=
  match r.follows with
  | none => (Options.ofFields r.options, [])
  | some given? => Options.ofEnvironment given? r.options

/-- The session at the start, before the steps. -/
def start (r : Recipe) : Except Error Unit × Session :=
  let (options, events) := r.readOptions
  match options with
  | .error issues => (.error (.invalid issues), { events := events })
  | .ok options =>
      (Session.runAll r.base.steps).run.run { grammar := { options := options }, events := events }

/-- The session after all steps, or at the first error. -/
def follow (r : Recipe) : Except Error Unit × Session :=
  match r.start with
  | (.error e, s) => (.error e, s)
  | (.ok _, s) => (Session.runAll r.steps).run.run s

end Recipe
end GrammarRules
