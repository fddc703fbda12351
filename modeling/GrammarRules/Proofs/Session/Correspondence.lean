import GrammarRules.Proofs.Session.Exec
import GrammarRules.Proofs.Session.Supply

/-!
# Corresponding activities

Whatever expressions and steps do is a few activities put one after the other. A `Correspondence`
is a relation of activities that takes account of what holds of the values they give. It relates
each of the few to itself, under builders that need not be the same, and it is kept when activities
follow one another. So it relates all that an expression or a step does under two such builders. A
property of activities is a correspondence that looks at one of the two alone.
-/

namespace GrammarRules.Session

variable {supply : Supply} {B : Builder → Builder → Prop}
  {A : ∀ {α : Type}, (α → Prop) → Run α → Run α → Prop}

/-- `B` relates builders, and `A Q` relates activities whose values have the property `Q`. -/
structure Correspondence (supply : Supply) (B : Builder → Builder → Prop)
    (A : ∀ {α : Type}, (α → Prop) → Run α → Run α → Prop) : Prop where
  rule {b b' : Builder} : B b b' → b'.rule = b.rule
  apart {b : Builder} : supply.builder b → B b b
  ofExcept {α : Type} {Q : α → Prop} {r : Except Error α} :
    (∀ a, r = .ok a → Q a) → A Q (ofExcept r) (ofExcept r)
  bind {α β : Type} {P : α → Prop} {Q : β → Prop} {x x' : Run α} {f f' : α → Run β} :
    A P x x' → (∀ a, P a → A Q (f a) (f' a)) → A Q (x >>= f) (x' >>= f')
  look {α : Type} {Q : α → Prop} {f : Registry → Run α} :
    (∀ rules, A Q (f rules) (f rules)) →
      A Q (get >>= fun s => f s.grammar.rules) (get >>= fun s => f s.grammar.rules)
  repeated {b b' : Builder} {c : Cardinality} {v : Value} : B b b' → v.Sound supply →
    A (Value.Sound supply) (repeated b c v) (repeated b' c v)
  load {key : String} : A (Value.Sound supply) (load key) (load key)
  keep {key : String} {v : Value} : v.Sound supply → A (fun _ => True) (keep key v) (keep key v)
  define {name : String} {f f' : Builder → Run Value} :
    (∀ b b', B b b' → A (Value.Sound supply) (f b) (f' b')) →
      A (fun _ => True) (define name f) (define name f')
  root {f f' : Builder → Run Value} :
    (∀ b b', B b b' → A (Value.Sound supply) (f b) (f' b')) →
      A (fun _ => True) (root f) (root f')
  build {mode? : Option Mode} : A (fun _ => True) (build mode?) (build mode?)

def AsksAlike (supply : Supply) (B : Builder → Builder → Prop)
    (A : ∀ {α : Type}, (α → Prop) → Run α → Run α → Prop)
    (ask ask' : Builder → Expr → Run Value) : Prop :=
  ∀ b b' body, B b b' → body.madeOf supply →
    A (Value.Sound supply) (ask b body) (ask' b' body)

namespace Correspondence

variable (h : Correspondence supply B A) {ask ask' : Builder → Expr → Run Value}
include h

theorem pure {α : Type} {Q : α → Prop} {a : α} (ha : Q a) : A Q (pure a) (pure a) :=
  h.ofExcept (r := .ok a) fun _ heq => Except.ok.inj heq ▸ ha

section Within

mutual

theorem evalWith (hask : AsksAlike supply B A ask ask') {b b' : Builder} (hb : B b b') :
    ∀ e : Expr, e.madeOf supply →
      A (Value.Sound supply) (evalWith ask b e) (evalWith ask' b' e)
  | .literal text, _ => h.pure fun _ => Part.wellFormed_literal text
  | .sequence arguments, he =>
      h.bind (evalAllWith hask hb arguments he) fun values hvalues =>
        h.bind (resolveAllWith hask hb arguments he values hvalues) fun _ hparts =>
          h.ofExcept fun _ => Builder.sound_sequence hparts
  | .oneOf arguments, he =>
      h.bind (evalAllWith hask hb arguments he) fun values hvalues =>
        h.bind (resolveAllWith hask hb arguments he values hvalues) fun _ hoptions =>
          h.ofExcept fun _ => Builder.sound_oneOf hoptions
  | .ref name, _ => by
      rw [Session.evalWith, Session.evalWith, Builder.ref, Builder.ref, h.rule hb]
      exact h.ofExcept fun _ => Builder.sound_ref
  | .range text, _ => by
      rw [Session.evalWith, Session.evalWith, Builder.range, Builder.range, h.rule hb]
      exact h.ofExcept fun _ => Builder.sound_range
  | .repeated c body, he => h.bind (evalWith hask hb body he) fun _ hv => h.repeated hb hv
  | .call body, he => h.pure he
  | .raw d, he => h.pure (Value.sound_ofData he d)
  | .bare c, he => h.pure he
  | .saved key, _ => h.load
  | .after steps body, he =>
      have he := Bool.and_eq_true_iff.mp he
      h.bind (runAllWith hask steps he.1) fun _ _ => evalWith hask hb body he.2
termination_by structural e => e

theorem resolveWith (hask : AsksAlike supply B A ask ask') {b b' : Builder} (hb : B b b') :
    ∀ e : Expr, e.madeOf supply → ∀ v : Value, v.Sound supply →
      A (Value.Sound supply) (resolveWith ask b e v) (resolveWith ask' b' e v)
  | .call body, he, _, _ => evalWith hask hb body he
  | .after _ body, he, v, hv => resolveWith hask hb body (Bool.and_eq_true_iff.mp he).2 v hv
  | .saved _, _, .deferred body, hv => hask _ _ body hb hv
  | .saved _, _, .part _, hv | .saved _, _, .bare _, hv | .saved _, _, .data _, hv => h.pure hv
  | .literal _, _, _, hv | .sequence _, _, _, hv | .oneOf _, _, _, hv | .ref _, _, _, hv
  | .range _, _, _, hv | .repeated _ _, _, _, hv | .raw _, _, _, hv | .bare _, _, _, hv =>
      h.pure hv
termination_by structural e => e

theorem evalAllWith (hask : AsksAlike supply B A ask ask') {b b' : Builder} (hb : B b b') :
    ∀ es : List Expr, Expr.allMadeOf supply es → A (fun values => ∀ v ∈ values, v.Sound supply)
      (evalAllWith ask b es) (evalAllWith ask' b' es)
  | [], _ => h.pure (List.forall_mem_nil _)
  | e :: es, he =>
      have he := Bool.and_eq_true_iff.mp he
      h.bind (evalWith hask hb e he.1) fun _ hv =>
        h.bind (evalAllWith hask hb es he.2) fun _ hvs =>
          h.pure (List.forall_mem_cons.mpr ⟨hv, hvs⟩)
termination_by structural es => es

theorem resolveAllWith (hask : AsksAlike supply B A ask ask') {b b' : Builder} (hb : B b b') :
    ∀ es : List Expr, Expr.allMadeOf supply es →
      ∀ values : List Value, (∀ v ∈ values, v.Sound supply) →
        A (fun values => ∀ v ∈ values, v.Sound supply)
          (resolveAllWith ask b es values) (resolveAllWith ask' b' es values)
  | e :: es, he, value :: values, hvalues =>
      have he := Bool.and_eq_true_iff.mp he
      have hvalues := List.forall_mem_cons.mp hvalues
      h.bind (resolveWith hask hb e he.1 value hvalues.1) fun _ hv =>
        h.bind (resolveAllWith hask hb es he.2 values hvalues.2) fun _ hvs =>
          h.pure (List.forall_mem_cons.mpr ⟨hv, hvs⟩)
  | [], _, _, _ => h.pure (List.forall_mem_nil _)
  | _ :: _, _, [], _ => h.pure (List.forall_mem_nil _)
termination_by structural es => es

theorem stepWith (hask : AsksAlike supply B A ask ask') : ∀ next : Step, next.madeOf supply →
    A (fun _ => True) (stepWith ask next) (stepWith ask' next)
  | .define _ rule, hn =>
      h.bind (h.define fun _ _ hb => evalWith hask hb rule hn) fun _ _ => h.pure trivial
  | .root rule, hn =>
      h.bind (h.root fun _ _ hb => evalWith hask hb rule hn) fun _ _ => h.pure trivial
  | .build _, _ =>
      h.bind (h.ofExcept fun _ _ => trivial) fun _ _ =>
        h.bind h.build fun _ _ => h.pure trivial
  | .dangling, _ =>
      h.look (f := fun rules => do return Outcome.pairs (← Session.ofExcept rules.dangling))
        fun _ => h.bind (h.ofExcept fun _ _ => trivial) fun _ _ => h.pure trivial
  | .rules, _ =>
      h.look (f := fun rules => do return Outcome.rules rules.entries) fun _ => h.pure trivial
  | .save _ _ rule, hn =>
      have hn := Bool.and_eq_true_iff.mp hn
      h.bind (evalWith hask (h.apart hn.1) rule hn.2) fun _ hv =>
        h.bind (h.keep hv) fun _ _ => h.pure trivial
termination_by structural next => next

theorem runAllWith (hask : AsksAlike supply B A ask ask') :
    ∀ steps : List Step, Step.allMadeOf supply steps →
      A (fun _ => True) (runAllWith ask steps) (runAllWith ask' steps)
  | [], _ => h.pure trivial
  | next :: steps, hs =>
      have hs := Bool.and_eq_true_iff.mp hs
      h.bind (stepWith hask next hs.1) fun _ _ => runAllWith hask steps hs.2
termination_by structural steps => steps

end

end Within

theorem askWithin (depth : Nat) (b b' : Builder) (body : Expr) (hb : B b b')
    (hbody : body.madeOf supply) :
    A (Value.Sound supply) (askWithin depth b body) (askWithin depth b' body) := by
  induction depth generalizing b b' body with
  | zero => exact h.ofExcept (r := .error .endless) fun _ heq => nomatch heq
  | succ depth ih => exact h.evalWith ih hb body hbody

/-- What a step does corresponds to itself. -/
theorem step {next : Step} (hn : next.madeOf supply) : A (fun _ => True) (step next) (step next) :=
  h.stepWith (h.askWithin depthLimit) next hn

theorem runAll {steps : List Step} (hs : Step.allMadeOf supply steps) :
    A (fun _ => True) (runAll steps) (runAll steps) :=
  h.runAllWith (h.askWithin depthLimit) steps hs

end Correspondence
end GrammarRules.Session
