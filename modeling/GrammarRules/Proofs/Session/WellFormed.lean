import GrammarRules.Proofs.Session.Calls
import GrammarRules.Proofs.Session.Course

/-!
# Rules made by the combinators

Where every rule is made of literals, deferred parts and the combinators alone, what is stored is
well formed: every name has a token, and every value is a part in which, at any depth, references
have a token and ranges are bracketed. Only a factory that itself gives a deferred expression
stores something else, that expression, and such an expression is never taken for a part.
-/

namespace GrammarRules.Session

/-- Nothing foreign is supplied: no plain data and no nodes without a kind. -/
def combinators : Supply := { foreign := false }

def RulesSound (g : Grammar) : Prop :=
  ∀ rule ∈ g.rules.entries,
    (∀ mode, Name.token mode rule.1 ≠ "") ∧ rule.2.Sound combinators

theorem kept_combinators : Kept combinators RulesSound (fun _ => True) (fun _ => True) where
  put hg hname hv rule hrule := by
    rcases Registry.mem_putEntry _ _ hrule with rfl | hrule
    · exact ⟨fun mode => Name.token_ne_empty mode hname, hv⟩
    · exact hg rule hrule
  putEvents _ _ _ := trivial
  rootReplaced := trivial
  built := trivial
  replacing _ _ _ := trivial
  builder _ := trivial
  apart _ := trivial

theorem part_or_deferred_of_sound {v : Value} (hv : v.Sound combinators) :
    (∃ p, v = .part p ∧ p.WellFormed) ∨ ∃ body, v = .deferred body := by
  cases v with
  | part p => exact Or.inl ⟨p, rfl, hv rfl⟩
  | bare c => cases hv
  | data d => cases hv
  | deferred body => exact Or.inr ⟨body, rfl⟩

/-- In every state that is reached by steps made of the combinators, whether or not they fail, the
names have tokens in either notation, and each rule is a well-formed part or a deferred expression
that its factory gave. The glyph of a range literal is in its cardinality, not in its pattern. -/
theorem rules_of_combinators_wellFormed (o : Options) (steps : List Step)
    (hsteps : ∀ next ∈ steps, next.madeOf combinators) :
    (∀ stage ∈ (fresh o).course steps, ∀ rule ∈ stage.2.grammar.rules.entries,
      (∀ mode, Name.token mode rule.1 ≠ "") ∧
        ((∃ p, rule.2 = .part p ∧ p.WellFormed) ∨ ∃ body, rule.2 = .deferred body)) ∧
    ∀ (b : Builder) (text : String) (v : Value), b.range text = .ok v →
      ∃ pattern c, v = .part (.range pattern c) ∧ Range.IsBracketed pattern.toList ∧
        text.toList = pattern.toList ++ Part.glyphChars c := by
  constructor
  · have hfresh : (fresh o).Holds combinators RulesSound (fun _ => True) :=
      ⟨List.forall_mem_nil _, List.forall_mem_nil _, List.forall_mem_nil _⟩
    intro stage hstage rule hrule
    have hstages := kept_combinators.course hfresh hsteps stage hstage
    obtain ⟨hname, hvalue⟩ := hstages.1.grammar rule hrule
    exact ⟨hname, part_or_deferred_of_sound hvalue⟩
  · intro b text v h
    rw [Builder.range] at h
    split at h
    · next p hp =>
      cases h
      obtain ⟨pattern, c, rfl, hspec⟩ := Range.ofText?_spec hp
      exact ⟨pattern, c, rfl, hspec⟩
    · cases h

def nestedSteps : List Step :=
  [.save "digit" {} (.call (.range "[0-9]+")),
    .define "numberList" (.after [.define "sign" (.oneOf [.literal "+", .literal "-"])]
      (.repeated .zeroOrMore (.sequence [.ref "sign", .saved "digit",
        .call (.repeated .optional (.range "[]]*"))]))),
    .define "bad" (.sequence [.ref "--"]),
    .root (.ref "Number_list")]

theorem nestedSteps_wellFormed :
    (∀ next ∈ nestedSteps, next.madeOf combinators) ∧
      ((fresh {}).course nestedSteps).map (fun stage => stage.2.grammar.rules.names) =
        [[], ["sign", "numberList"], ["sign", "numberList"], ["sign", "numberList", "root"]] ∧
      ∀ stage ∈ (fresh {}).course nestedSteps, ∀ rule ∈ stage.2.grammar.rules.entries,
        (∀ mode, Name.token mode rule.1 ≠ "") ∧
          ((∃ p, rule.2 = .part p ∧ p.WellFormed) ∨ ∃ body, rule.2 = .deferred body) := by
  have hsteps : ∀ next ∈ nestedSteps, next.madeOf combinators := by decide
  exact ⟨hsteps, by cbv, (rules_of_combinators_wellFormed {} nestedSteps hsteps).1⟩

end GrammarRules.Session
