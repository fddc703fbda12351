import GrammarRules.Proofs.Session.Exec

/-!
# Code that calls a grammar

A `Program` is code that works on one grammar: it defines rules, sets the root and builds, and its
factories are such code again, so calls nest to any depth. It learns how each call ended and goes on
from there, whether the call failed or not. Between two calls it may do whatever leaves the grammar
as it is. `Program.history` lists what the factories of a run returned, in the order in which the
grammar stored it: the grammars of the run are those of its history.
-/

namespace GrammarRules

inductive Program : Type → Type 1 where
  | done {α : Type} (result : Except Error α) : Program α
  | aside {α : Type} (act : Session → Session) (keeps : ∀ s, (act s).grammar = s.grammar)
      (next : Session → Program α) : Program α
  | define {α : Type} (name : String) (factory : Builder → Program Value)
      (next : Except Error Unit → Program α) : Program α
  | root {α : Type} (factory : Builder → Program Value)
      (next : Except Error Unit → Program α) : Program α
  | build {α : Type} (mode? : Option Mode) (next : Except Error String → Program α) : Program α

/-- Run `x` and hand on how it ended. -/
def Session.attempt {α : Type} (x : Run α) : Run (Except Error α) :=
  ExceptT.mk (do return .ok (← x.run))

theorem Session.exec_attempt {α : Type} (s : Session) (x : Run α) :
    s.exec (attempt x) = (.ok (s.exec x).1, (s.exec x).2) := rfl

inductive Call where
  | define (name : String)
  | root
  deriving DecidableEq

def Call.name : Call → String
  | .define name => name
  | .root => Name.root

/-- The return of a factory: the call it was made for, the grammar when the call was made, the
grammar when the factory returned, and the value it returned. -/
structure Return where
  call : Call
  before : Grammar
  after : Grammar
  value : Value

namespace Return

def stored (r : Return) : Grammar := r.after.put r.call.name r.value

/-- A definition was admitted before the grammar was final and is stored when it is. -/
def Overtaken (r : Return) : Prop := r.call ≠ .root ∧ ¬ r.before.isFinal ∧ r.after.isFinal

def ofOutcome (call : Call) (s : Session) : Except Error Value × Session → List Return
  | (.ok value, s') => [⟨call, s.grammar, s'.grammar, value⟩]
  | (.error _, _) => []

end Return

namespace Program

variable {α β : Type}

def run : {α : Type} → Program α → Run α
  | _, .done result => Session.ofExcept result
  | _, .aside act _ next => do
      modify act
      (next (← get)).run
  | _, .define name factory next => do
      (next (← Session.attempt (Session.define name fun b => (factory b).run))).run
  | _, .root factory next => do
      (next (← Session.attempt (Session.root fun b => (factory b).run))).run
  | _, .build mode? next => do
      (next (← Session.attempt (Session.build mode?))).run

/-- The returns of the factories that a run from `s` stores. -/
def history : {α : Type} → Program α → Session → List Return
  | _, .done _, _ => []
  | _, .aside act _ next, s => (next (act s)).history (act s)
  | _, .define name factory next, s =>
      let inside := factory (s.grammar.builder name)
      let end_ := s.exec (Session.define name fun b => (factory b).run)
      (match s.grammar.admits name with
        | .error _ => []
        | .ok _ => inside.history s ++ Return.ofOutcome (.define name) s (s.exec inside.run)) ++
        (next end_.1).history end_.2
  | _, .root factory next, s =>
      let inside := factory (s.grammar.builder Name.root)
      let end_ := s.exec (Session.root fun b => (factory b).run)
      inside.history s ++ Return.ofOutcome .root s (s.exec inside.run) ++
        (next end_.1).history end_.2
  | _, .build mode? next, s =>
      let end_ := s.exec (Session.build mode?)
      (next end_.1).history end_.2

theorem exec_run_done (result : Except Error α) (s : Session) :
    s.exec (done result).run = (result, s) := rfl

theorem exec_run_aside (act keeps) (next : Session → Program α) (s : Session) :
    s.exec (aside act keeps next).run = (act s).exec (next (act s)).run := by
  rw [run, Session.exec_bind, Session.exec_modify]
  simp only [Session.exec_bind, Session.exec_get]

theorem exec_run_define (name factory) (next : Except Error Unit → Program α) (s : Session) :
    s.exec (define name factory next).run =
      let end_ := s.exec (Session.define name fun b => (factory b).run)
      end_.2.exec (next end_.1).run := by
  rw [run, Session.exec_bind, Session.exec_attempt]

theorem exec_run_root (factory) (next : Except Error Unit → Program α) (s : Session) :
    s.exec (root factory next).run =
      let end_ := s.exec (Session.root fun b => (factory b).run)
      end_.2.exec (next end_.1).run := by
  rw [run, Session.exec_bind, Session.exec_attempt]

theorem exec_run_build (mode?) (next : Except Error String → Program α) (s : Session) :
    s.exec (build mode? next).run =
      let end_ := s.exec (Session.build mode?)
      end_.2.exec (next end_.1).run := by
  rw [run, Session.exec_bind, Session.exec_attempt]

theorem mem_ofOutcome {call : Call} {s : Session} {outcome : Except Error Value × Session}
    {r : Return} : r ∈ Return.ofOutcome call s outcome ↔
      ∃ value s', outcome = (.ok value, s') ∧ r = ⟨call, s.grammar, s'.grammar, value⟩ := by
  rcases outcome with ⟨_ | value, s'⟩ <;> simp [Return.ofOutcome]

/-- What a run stores is stored for an admitted definition or for the root. -/
theorem call_of_mem_history {p : Program α} {s : Session} {r : Return} (h : r ∈ p.history s) :
    r.call = .root ∨ ∃ name, r.call = .define name ∧ r.before.admits name = .ok () := by
  induction p generalizing s with
  | done result => simp [history] at h
  | aside act keeps next ih => exact ih (act s) h
  | define name factory next ihf ihn =>
    simp only [history, List.mem_append] at h
    rcases h with h | h
    · cases hadm : s.grammar.admits name with
      | error e => simp [hadm] at h
      | ok _ =>
        simp only [hadm, List.mem_append, mem_ofOutcome] at h
        rcases h with h | ⟨value, s', -, rfl⟩
        · exact ihf _ h
        · exact Or.inr ⟨name, rfl, hadm⟩
    · exact ihn _ h
  | root factory next ihf ihn =>
    simp only [history, List.mem_append, mem_ofOutcome] at h
    rcases h with (h | ⟨value, s', -, rfl⟩) | h
    · exact ihf _ h
    · exact Or.inl rfl
    · exact ihn _ h
  | build mode? next ih => exact ih _ h

/-- A call leaves the grammar that its factory leaves, or what is stored into that. -/
theorem grammar_exec_define {P : Grammar → Prop} {name : String} {factory : Builder → Program Value}
    {s : Session} (hadm : s.grammar.admits name = .ok ())
    (hleft : P (s.exec (factory (s.grammar.builder name)).run).2.grammar)
    (hstore : ∀ r ∈ Return.ofOutcome (.define name) s
      (s.exec (factory (s.grammar.builder name)).run), P r.after → P r.stored) :
    P (s.exec (Session.define name fun b => (factory b).run)).2.grammar := by
  rw [Session.exec_define, hadm]
  simp only [mem_ofOutcome] at hstore
  rcases hout : s.exec (factory (s.grammar.builder name)).run with ⟨_ | value, s'⟩
  · simpa only [hout] using hleft
  · rw [hout] at hleft
    exact hstore _ ⟨value, s', hout, rfl⟩ hleft

theorem grammar_exec_root {P : Grammar → Prop} {factory : Builder → Program Value}
    {s : Session} (hleft : P (s.exec (factory (s.grammar.builder Name.root)).run).2.grammar)
    (hstore : ∀ r ∈ Return.ofOutcome .root s
      (s.exec (factory (s.grammar.builder Name.root)).run), P r.after → P r.stored) :
    P (s.exec (Session.root fun b => (factory b).run)).2.grammar := by
  rw [Session.exec_root]
  simp only [mem_ofOutcome] at hstore
  rcases hout : s.exec (factory (s.grammar.builder Name.root)).run with ⟨_ | value, s'⟩
  · simpa only [hout] using hleft
  · rw [hout] at hleft
    exact hstore _ ⟨value, s', hout, rfl⟩ hleft

/-- What holds of the grammar at the start and is kept whenever a value is stored holds of every
grammar of the run. The induction is on the code and the code of its factories. -/
theorem history_induction {P : Grammar → Prop} (p : Program α) (s : Session) (hstart : P s.grammar)
    (hstore : ∀ r ∈ p.history s, P r.after → P r.stored) :
    (∀ r ∈ p.history s, P r.before ∧ P r.after) ∧ P (s.exec p.run).2.grammar := by
  induction p generalizing s with
  | done result => exact ⟨by simp [history], hstart⟩
  | aside act keeps next ih =>
    rw [exec_run_aside]
    exact ih (act s) (act s) (by rw [keeps]; exact hstart) hstore
  | define name factory next ihf ihn =>
    simp only [history, List.mem_append] at hstore ⊢
    rw [exec_run_define]
    cases hadm : s.grammar.admits name with
    -- refused: the factory is not run, and the code goes on from the same grammar
    | error e =>
      have hend : P (s.exec (Session.define name fun b => (factory b).run)).2.grammar := by
        rw [Session.exec_define, hadm]
        exact hstart
      simpa using ihn _ _ hend fun r hr => hstore r (Or.inr hr)
    | ok _ =>
      simp only [hadm, List.mem_append] at hstore
      -- inside the factory, then at the store, then in what follows
      obtain ⟨hinside, hleft⟩ := ihf _ s hstart fun r hr => hstore r (Or.inl (Or.inl hr))
      have hend := grammar_exec_define hadm hleft fun r hr => hstore r (Or.inl (Or.inr hr))
      obtain ⟨hnext, hlast⟩ := ihn _ _ hend fun r hr => hstore r (Or.inr hr)
      refine ⟨?_, hlast⟩
      simp only [List.mem_append, mem_ofOutcome]
      rintro r ((hr | ⟨value, s', hout, rfl⟩) | hr)
      · exact hinside r hr
      · exact ⟨hstart, by simpa only [hout] using hleft⟩
      · exact hnext r hr
  | root factory next ihf ihn =>
    simp only [history, List.mem_append] at hstore ⊢
    rw [exec_run_root]
    obtain ⟨hinside, hleft⟩ := ihf _ s hstart fun r hr => hstore r (Or.inl (Or.inl hr))
    have hend := grammar_exec_root hleft fun r hr => hstore r (Or.inl (Or.inr hr))
    obtain ⟨hnext, hlast⟩ := ihn _ _ hend fun r hr => hstore r (Or.inr hr)
    refine ⟨?_, hlast⟩
    simp only [mem_ofOutcome]
    rintro r ((hr | ⟨value, s', hout, rfl⟩) | hr)
    · exact hinside r hr
    · exact ⟨hstart, by simpa only [hout] using hleft⟩
    · exact hnext r hr
  | build mode? next ih =>
    rw [exec_run_build]
    exact ih _ _ (by rw [Session.grammar_exec_build]; exact hstart) hstore

/-- The history accounts for the whole run: what it stores, stored in its order, gives the grammar
that the run leaves. -/
theorem foldl_history (p : Program α) (s : Session) :
    (p.history s).foldl (fun g r => g.put r.call.name r.value) s.grammar =
      (s.exec p.run).2.grammar := by
  induction p generalizing s with
  | done result => rfl
  | aside act keeps next ih => rw [exec_run_aside, history, ← ih (act s) (act s), keeps]
  | define name factory next ihf ihn =>
    rw [exec_run_define, ← ihn]
    simp only [history, List.foldl_append]
    congr 1
    rw [Session.exec_define]
    cases s.grammar.admits name with
    | error e => rfl
    | ok _ =>
      simp only [List.foldl_append, ihf]
      rcases s.exec (factory (s.grammar.builder name)).run with ⟨_ | value, s'⟩ <;> rfl
  | root factory next ihf ihn =>
    rw [exec_run_root, ← ihn]
    simp only [history, List.foldl_append, ihf]
    congr 1
    rw [Session.exec_root]
    rcases s.exec (factory (s.grammar.builder Name.root)).run with ⟨_ | value, s'⟩ <;> rfl
  | build mode? next ih =>
    rw [exec_run_build, ← ih, history, Session.grammar_exec_build]

end Program
end GrammarRules
