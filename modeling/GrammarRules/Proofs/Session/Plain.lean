import GrammarRules.Proofs.Session.Exec

/-!
# Expressions made with the combinators alone

A plain expression takes no steps and asks for no kept value. What evaluating it does is put
together from results that are there already and cardinalities put on values. A property that these
have, and that one activity after another keeps, is a property of every evaluation of a plain
expression.
-/

namespace GrammarRules

mutual

def Expr.isPlain : Expr → Bool
  | .literal _ | .ref _ | .range _ | .raw _ | .bare _ => true
  | .sequence arguments | .oneOf arguments => allPlain arguments
  | .repeated _ body | .call body => body.isPlain
  | .saved _ | .after _ _ => false

def Expr.allPlain : List Expr → Bool
  | [] => true
  | e :: es => e.isPlain && allPlain es

end

namespace Session

/-- A property of the activities that plain expressions are put together from. -/
structure Compositional (P : ∀ {α : Type}, Run α → Prop) : Prop where
  ofExcept {α : Type} (result : Except Error α) : P (ofExcept result)
  bind {α β : Type} {x : Run α} {f : α → Run β} (hx : P x) (hf : ∀ a, P (f a)) : P (x >>= f)
  repeated (b : Builder) (c : Cardinality) (value : Value) : P (repeated b c value)

namespace Compositional

variable {P : ∀ {α : Type}, Run α → Prop} (hP : Compositional @P)

include hP

theorem pure {α : Type} (a : α) : P (pure a : Run α) := hP.ofExcept (.ok a)

variable {ask : Builder → Expr → Run Value}

mutual

theorem of_evalWith (b : Builder) : ∀ e, e.isPlain → P (evalWith ask b e)
  | .literal _, _ => hP.pure _
  | .sequence arguments, h =>
      hP.bind (of_evalAllWith b arguments h) fun values =>
        hP.bind (of_resolveAllWith b arguments h values) fun _ => hP.ofExcept _
  | .oneOf arguments, h =>
      hP.bind (of_evalAllWith b arguments h) fun values =>
        hP.bind (of_resolveAllWith b arguments h values) fun _ => hP.ofExcept _
  | .ref _, _ => hP.ofExcept _
  | .range _, _ => hP.ofExcept _
  | .repeated c body, h => hP.bind (of_evalWith b body h) fun value => hP.repeated b c value
  | .call _, _ => hP.pure _
  | .raw _, _ => hP.pure _
  | .bare _, _ => hP.pure _
  | .saved _, h => nomatch h
  | .after _ _, h => nomatch h
termination_by structural e => e

theorem of_resolveWith (b : Builder) : ∀ e, e.isPlain → ∀ v, P (resolveWith ask b e v)
  | .call body, h, _ => of_evalWith b body h
  | .saved _, h, _ => nomatch h
  | .after _ _, h, _ => nomatch h
  | .literal _, _, _ | .sequence _, _, _ | .oneOf _, _, _ | .ref _, _, _ | .range _, _, _
  | .repeated _ _, _, _ | .raw _, _, _ | .bare _, _, _ => hP.pure _
termination_by structural e => e

theorem of_evalAllWith (b : Builder) : ∀ es, Expr.allPlain es → P (evalAllWith ask b es)
  | [], _ => hP.pure _
  | e :: es, h =>
      have h := Bool.and_eq_true_iff.mp h
      hP.bind (of_evalWith b e h.1) fun _ =>
        hP.bind (of_evalAllWith b es h.2) fun _ => hP.pure _
termination_by structural es => es

theorem of_resolveAllWith (b : Builder) :
    ∀ es, Expr.allPlain es → ∀ values, P (resolveAllWith ask b es values)
  | e :: es, h, value :: values =>
      have h := Bool.and_eq_true_iff.mp h
      hP.bind (of_resolveWith b e h.1 value) fun _ =>
        hP.bind (of_resolveAllWith b es h.2 values) fun _ => hP.pure _
  | [], _, _ => hP.pure _
  | _ :: _, _, [] => hP.pure _
termination_by structural es => es

end

end Compositional
end Session
end GrammarRules
