import GrammarRules.Proofs.Session.Plain

/-!
# Factories that leave the grammar alone

An activity is aloof if it leaves the grammar as it is and gives none of the warnings that storing a
rule gives. Expressions that take no steps and ask for no kept value are aloof, whoever they are
made for.
-/

namespace GrammarRules

def Event.isRuleReplaced : Event → Bool
  | .ruleReplaced _ => true
  | _ => false

namespace Session

variable {α β : Type}

def replacements (s : Session) : List Event := s.events.filter Event.isRuleReplaced

structure Aloof (x : Run α) : Prop where
  grammar (s : Session) : (s.exec x).2.grammar = s.grammar
  replacements (s : Session) : (s.exec x).2.replacements = s.replacements

theorem aloof_ofExcept (result : Except Error α) : Aloof (ofExcept result) where
  grammar _ := rfl
  replacements _ := rfl

theorem aloof_pure (a : α) : Aloof (pure a) := aloof_ofExcept (.ok a)

theorem aloof_bind {x : Run α} {f : α → Run β} (hx : Aloof x) (hf : ∀ a, Aloof (f a)) :
    Aloof (x >>= f) where
  grammar s := by
    have h := hx.grammar s
    rw [exec_bind]
    rcases hout : s.exec x with ⟨_ | a, s'⟩
    · rwa [hout] at h
    · rw [hout] at h
      exact ((hf a).grammar s').trans h
  replacements s := by
    have h := hx.replacements s
    rw [exec_bind]
    rcases hout : s.exec x with ⟨_ | a, s'⟩
    · rwa [hout] at h
    · rw [hout] at h
      exact ((hf a).replacements s').trans h

theorem aloof_note {events : List Event} (h : ∀ e ∈ events, e.isRuleReplaced = false) :
    Aloof (note events) where
  grammar _ := rfl
  replacements s := by
    have hnone : events.filter Event.isRuleReplaced = [] := by
      simpa [List.filter_eq_nil_iff] using h
    rw [note, exec_modify, replacements, List.filter_append, hnone, List.append_nil, replacements]

theorem isRuleReplaced_of_mem_replacing {b : Builder} {old : Option Cardinality} {c : Cardinality}
    {e : Event} (h : e ∈ b.replacing old c) : e.isRuleReplaced = false := by
  cases old with
  | none => simp [Builder.replacing] at h
  | some old =>
    rw [Builder.replacing] at h
    split at h
    · rw [List.mem_singleton.mp h]
      rfl
    · cases h

theorem aloof_repeated (b : Builder) (c : Cardinality) (value : Value) :
    Aloof (repeated b c value) := by
  rw [repeated]
  cases h : b.repeated c value with
  | error e => exact aloof_ofExcept (.error e)
  | ok result =>
    obtain ⟨old, hevents⟩ := Builder.exists_eq_replacing h
    have hnote : Aloof (note result.2) := by
      rw [hevents]
      exact aloof_note fun _ => isRuleReplaced_of_mem_replacing
    change Aloof (note result.2 >>= fun _ => pure result.1)
    exact aloof_bind hnote fun _ => aloof_pure result.1

theorem aloof_compositional : Compositional @Aloof where
  ofExcept := aloof_ofExcept
  bind := aloof_bind
  repeated := aloof_repeated

theorem aloof_eval (b : Builder) {e : Expr} (h : e.isPlain) : Aloof (eval b e) :=
  aloof_compositional.of_evalWith b e h

end Session

/-- A factory that does not call the grammar. -/
structure Factory where
  make : Builder → Run Value
  aloof : ∀ b, Session.Aloof (make b)

def Factory.ofExpr (e : Expr) (h : e.isPlain) : Factory where
  make b := Session.eval b e
  aloof b := Session.aloof_eval b h

def Factory.const (value : Value) : Factory where
  make _ := pure value
  aloof _ := Session.aloof_pure value

end GrammarRules
