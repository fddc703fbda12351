import GrammarRules.Builder
import GrammarRules.Options
import GrammarRules.Registry

/-!
# Grammars

A grammar is a registry of rules under options. Rules are defined by name until the root rule is
set; from then on the grammar is final, and it can be built into text. Building refuses references
to undefined rules, if the options ask for that, and blames the first rule that holds one.
-/

namespace GrammarRules

structure Grammar where
  options : Options := {}
  rules : Registry := {}

namespace Grammar

variable (g : Grammar)

def isFinal : Bool := g.rules.contains Name.root

/-- The builder handed to the rule called `name`. -/
def builder (name : String) : Builder := { warn := g.options.warn, rule := some name }

/-- Whether a rule called `name` may be defined, looked at before the rule is made. -/
def admits (name : String) : Except Error Unit :=
  if Name.isBlank name then .error (.grammar (.blankName name none))
  else if name = Name.root then
    .error (.grammar { fault := .reservedName, context := some ⟨name, g.options.mode⟩ })
  else if g.isFinal then
    .error (.grammar { fault := .finalized, context := some ⟨name, g.options.mode⟩ })
  else .ok ()

/-- The grammar with `value` as the rule called `name`. -/
def put (name : String) (value : Value) : Grammar :=
  { g with rules := g.rules.put name value }

def putEvents (name : String) : List Event :=
  if g.rules.contains name && g.options.warn then [.ruleReplaced name, .ruleDefined name]
  else [.ruleDefined name]

/-- The grammar with `value` as its root rule. -/
def putRoot (value : Value) : Grammar := g.put Name.root value

def putRootEvents : List Event := if g.isFinal then [.rootReplaced] else []

/-- The error due in notation `mode` for references without a definition. -/
def checkRefs (mode : Mode) : Except Error Unit := do
  if g.options.validate then
    match ← g.rules.dangling with
    | [] => return
    | (rule, target) :: more =>
        let targets := Registry.sortNames (target :: more.map Prod.snd)
        throw (.grammar { fault := .undefinedRefs targets, context := some ⟨rule, mode⟩ })

/-- The text of the grammar in notation `mode`. -/
def buildIn (mode : Mode) : Except Error String := do
  if !g.isFinal then throw (.grammar { fault := .noRoot })
  g.checkRefs mode
  g.rules.render mode

/-- The text of the grammar in the given notation, or else in its own. -/
def build (mode? : Option Mode) : Except Error String := g.buildIn (mode?.getD g.options.mode)

end Grammar
end GrammarRules
