import GrammarRules.Builder
import GrammarRules.Data

/-!
# Rule expressions and steps

An expression says how a rule is made with the combinators. `call` defers an expression until the
sequence or choice it stands in has all its arguments. Steps act on a grammar: they define its
rules, set its root, build it, or keep a value for later, a deferred expression among others. An
expression may take steps on the way.
-/

namespace GrammarRules

mutual

inductive Expr where
  | literal (text : String)
  | sequence (arguments : List Expr)
  | oneOf (arguments : List Expr)
  | ref (name : String)
  | range (text : String)
  | repeated (cardinality : Cardinality) (body : Expr)
  | call (body : Expr)
  | raw (d : Data)
  | bare (cardinality : Option Cardinality)
  | saved (key : String)
  | after (steps : List Step) (body : Expr)

inductive Step where
  | define (name : String) (rule : Expr)
  | root (rule : Expr)
  /-- Build the grammar in the notation named by the tag, or in its own. -/
  | build (tag : Option String)
  | dangling
  | rules
  /-- Make a rule apart from the grammar and keep it under `key`. -/
  | save (key : String) (builder : Builder) (rule : Expr)

end

instance : Inhabited Expr := ⟨.literal ""⟩

instance : Inhabited Step := ⟨.dangling⟩

end GrammarRules
