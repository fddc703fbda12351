import GrammarRules.Combinators
import GrammarRules.Console
import GrammarRules.Grammar

/-!
# Sessions

A session is one grammar with what has happened to it: the values kept for later, the events, and
what was printed. Expressions and steps run in it. What they have done before an error stays done:
an error ends the expression or the step, not the session.

Expressions run by recursion on what is written. A deferred expression that was kept is written
elsewhere, so the recursion leaves it to `ask`, a way to run it; `askWithin` is the way that gives
up when such expressions ask for one another too deeply.
-/

namespace GrammarRules

structure Session where
  grammar : Grammar := {}
  saved : List (String × Value) := []
  events : List Event := []
  printed : String := ""

/-- An activity in a session, which may fail and keeps what it did. -/
abbrev Run := ExceptT Error (StateM Session)

inductive Outcome where
  | done
  | text (s : String)
  | pairs (refs : List (String × String))
  | rules (entries : List (String × Value))
  | value (v : Value)

namespace Session

def ofExcept {α : Type} (result : Except Error α) : Run α := ExceptT.mk (pure result)

def note (events : List Event) : Run Unit :=
  modify fun s => { s with events := s.events ++ events }

def modeOfTag (tag : Option String) : Except Error (Option Mode) :=
  match tag with
  | none => .ok none
  | some tag =>
      match Mode.ofTag? tag with
      | some mode => .ok (some mode)
      | none => .error (.unknownMode tag)

/-- Build the grammar, and print it too if its options ask for that. -/
def build (mode? : Option Mode) : Run String := do
  let g := (← get).grammar
  let mode := mode?.getD g.options.mode
  let text ← ofExcept (g.buildIn mode)
  note [.built mode g.rules.size]
  if g.options.debug then
    modify fun s => { s with printed := s.printed ++ Console.printGrammar mode text }
  return text

def load (key : String) : Run Value := do
  match (← get).saved.lookup key with
  | some v => return v
  | none => throw (.unsaved key)

def keep (key : String) (value : Value) : Run Unit :=
  modify fun s => { s with saved := (key, value) :: s.saved }

def putRule (name : String) (value : Value) : Run Unit := do
  note ((← get).grammar.putEvents name)
  modify fun s => { s with grammar := s.grammar.put name value }

def putRoot (value : Value) : Run Unit := do
  note (← get).grammar.putRootEvents
  modify fun s => { s with grammar := s.grammar.putRoot value }

/-- Define a rule that `factory` makes. Whether the grammar admits its name is looked at before the
rule is made, and not again. -/
def define (name : String) (factory : Builder → Run Value) : Run Unit := do
  let g := (← get).grammar
  ofExcept (g.admits name)
  putRule name (← factory (g.builder name))

/-- Set the root rule that `factory` makes. -/
def root (factory : Builder → Run Value) : Run Unit := do
  let g := (← get).grammar
  putRoot (← factory (g.builder Name.root))

def repeated (b : Builder) (c : Cardinality) (value : Value) : Run Value := do
  let (value, events) ← ofExcept (b.repeated c value)
  note events
  return value

section Within

variable (ask : Builder → Expr → Run Value)

mutual

/-- The value of an expression for a builder. -/
def evalWith (b : Builder) : Expr → Run Value
  | .literal text => return .part (.literal text)
  | .sequence arguments => do
      let values ← evalAllWith b arguments
      ofExcept (Builder.sequence (← resolveAllWith b arguments values))
  | .oneOf arguments => do
      let values ← evalAllWith b arguments
      ofExcept (Builder.oneOf (← resolveAllWith b arguments values))
  | .ref name => ofExcept (b.ref name)
  | .range text => ofExcept (b.range text)
  | .repeated c body => do repeated b c (← evalWith b body)
  | .call body => return .deferred body
  | .raw d => return .ofData d
  | .bare c => return .bare c
  | .saved key => load key
  | .after steps body => do
      runAllWith steps
      evalWith b body
termination_by structural e => e

/-- The value `v` of an expression, or if that is deferred, what it gives when it is asked for. -/
def resolveWith (b : Builder) : Expr → Value → Run Value
  | .call body, _ => evalWith b body
  | .after _ body, v => resolveWith b body v
  | .saved _, .deferred body => ask b body
  | _, v => return v
termination_by structural e => e

def evalAllWith (b : Builder) : List Expr → Run (List Value)
  | [] => return []
  | e :: es => do
      let value ← evalWith b e
      let values ← evalAllWith b es
      return value :: values
termination_by structural es => es

/-- The values of arguments with those that are deferred asked for, from left to right. -/
def resolveAllWith (b : Builder) : List Expr → List Value → Run (List Value)
  | e :: es, value :: values => do
      let value ← resolveWith b e value
      let values ← resolveAllWith b es values
      return value :: values
  | _, _ => return []
termination_by structural es => es

def stepWith : Step → Run Outcome
  | .define name rule => do
      define name fun b => evalWith b rule
      return .done
  | .root rule => do
      root fun b => evalWith b rule
      return .done
  | .build tag => do
      let mode? ← ofExcept (modeOfTag tag)
      return .text (← build mode?)
  | .dangling => return .pairs (← ofExcept (← get).grammar.rules.dangling)
  | .rules => return .rules (← get).grammar.rules.entries
  | .save key b rule => do
      let value ← evalWith b rule
      keep key value
      return .value value
termination_by structural s => s

/-- The steps one after the other, up to the first that fails. -/
def runAllWith : List Step → Run Unit
  | [] => return
  | s :: steps => do
      let _ ← stepWith s
      runAllWith steps
termination_by structural steps => steps

end

end Within

/-- Run a kept expression, in which at most `depth` kept expressions may run inside one another. -/
def askWithin : (depth : Nat) → Builder → Expr → Run Value
  | 0, _, _ => throw .endless
  | depth + 1, b, body => evalWith (askWithin depth) b body

/-- Kept expressions that run inside one another more deeply than this count as endless. -/
def depthLimit : Nat := 1000

def eval (b : Builder) (e : Expr) : Run Value := evalWith (askWithin depthLimit) b e

def evalAll (b : Builder) (es : List Expr) : Run (List Value) :=
  evalAllWith (askWithin depthLimit) b es

def step (s : Step) : Run Outcome := stepWith (askWithin depthLimit) s

def runAll (steps : List Step) : Run Unit := runAllWith (askWithin depthLimit) steps

/-- What one step of a session gave, and what it left behind. -/
structure Report where
  outcome : Except Error Outcome
  events : List Event
  names : List String
  isFinal : Bool
  printed : String

/-- The session after one step, with the report of that step alone. -/
def report (s : Session) (next : Step) : Report × Session :=
  let (outcome, s) := (step next).run.run { s with events := [], printed := "" }
  (⟨outcome, s.events, s.grammar.rules.names, s.grammar.isFinal, s.printed⟩, s)

/-- The reports of steps taken one after the other, whether or not they fail. -/
def reports (s : Session) : List Step → List Report
  | [] => []
  | next :: steps =>
      let (first, s) := s.report next
      first :: s.reports steps

end Session
end GrammarRules
