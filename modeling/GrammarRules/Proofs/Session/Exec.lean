import GrammarRules.Proofs.Registry.Put
import GrammarRules.Session

/-!
# Running activities

`s.exec x` is how the activity `x` ends in the session `s` and the session it leaves. Defining a
rule looks at the grammar, runs the factory, and then stores into the grammar that the factory
leaves; nothing else in it changes the grammar.
-/

namespace GrammarRules.Session

variable {α β : Type} (s : Session)

def exec (x : Run α) : Except Error α × Session := x.run.run s

@[simp] theorem exec_ofExcept (result : Except Error α) : s.exec (ofExcept result) = (result, s) :=
  rfl

@[simp] theorem exec_get : s.exec get = (.ok s, s) := rfl

@[simp] theorem exec_modify (f : Session → Session) :
    s.exec (modify f) = (.ok ⟨⟩, f s) := rfl

theorem exec_bind (x : Run α) (f : α → Run β) : s.exec (x >>= f) =
    match s.exec x with
    | (.ok a, s') => s'.exec (f a)
    | (.error e, s') => (.error e, s') := by
  simp only [exec, ExceptT.run_bind, StateT.run_bind]
  rcases (x.run.run s : Except Error α × Session) with ⟨result, s'⟩
  cases result <;> rfl

def noted (events : List Event) : Session := { s with events := s.events ++ events }

@[simp] theorem noted_nil : s.noted [] = s := by
  rw [noted, List.append_nil]

@[simp] theorem noted_noted (events events' : List Event) :
    (s.noted events).noted events' = s.noted (events ++ events') := by
  simp only [noted, List.append_assoc]

def stored (name : String) (value : Value) : Session :=
  { s with grammar := s.grammar.put name value, events := s.events ++ s.grammar.putEvents name }

def storedRoot (value : Value) : Session :=
  { s with grammar := s.grammar.putRoot value, events := s.events ++ s.grammar.putRootEvents }

@[simp] theorem grammar_stored (name : String) (value : Value) :
    (s.stored name value).grammar = s.grammar.put name value := rfl

@[simp] theorem grammar_storedRoot (value : Value) :
    (s.storedRoot value).grammar = s.grammar.put Name.root value := rfl

theorem exec_define (name : String) (factory : Builder → Run Value) :
    s.exec (define name factory) =
      match s.grammar.admits name with
      | .error e => (.error e, s)
      | .ok _ =>
        match s.exec (factory (s.grammar.builder name)) with
        | (.error e, s') => (.error e, s')
        | (.ok value, s') => (.ok ⟨⟩, s'.stored name value) := by
  rw [define, exec_bind, exec_get]
  simp only [exec_bind, exec_ofExcept]
  cases s.grammar.admits name with
  | error e => rfl
  | ok u =>
    simp only
    rcases s.exec (factory (s.grammar.builder name)) with ⟨_ | value, s'⟩ <;> rfl

theorem exec_root (factory : Builder → Run Value) :
    s.exec (root factory) =
      match s.exec (factory (s.grammar.builder Name.root)) with
      | (.error e, s') => (.error e, s')
      | (.ok value, s') => (.ok ⟨⟩, s'.storedRoot value) := by
  rw [root, exec_bind, exec_get]
  simp only [exec_bind]
  rcases s.exec (factory (s.grammar.builder Name.root)) with ⟨_ | value, s'⟩ <;> rfl

def built (mode : Mode) (text : String) : Session :=
  { s with
    events := s.events ++ [.built mode s.grammar.rules.size]
    printed := s.printed ++ if s.grammar.options.debug then Console.printGrammar mode text else "" }

theorem exec_build (mode? : Option Mode) : s.exec (build mode?) =
    match s.grammar.build mode? with
    | .error e => (.error e, s)
    | .ok text => (.ok text, s.built (mode?.getD s.grammar.options.mode) text) := by
  rw [build, exec_bind, exec_get, Grammar.build]
  simp only [exec_bind, exec_ofExcept, note, exec_modify]
  cases s.grammar.buildIn (mode?.getD s.grammar.options.mode) with
  | error e => rfl
  | ok text =>
    simp only [built]
    split
    · rfl
    · rw [String.append_empty]
      rfl

theorem grammar_exec_build (mode? : Option Mode) :
    (s.exec (build mode?)).2.grammar = s.grammar := by
  rw [exec_build]
  cases s.grammar.build mode? <;> rfl

theorem exec_load (key : String) : s.exec (load key) =
    match s.saved.lookup key with
    | none => (.error (.unsaved key), s)
    | some v => (.ok v, s) := by
  rw [load, exec_bind, exec_get]
  cases h : s.saved.lookup key <;> simp only [h] <;> rfl

theorem exec_repeated (b : Builder) (c : Cardinality) (v : Value) : s.exec (repeated b c v) =
    match b.repeated c v with
    | .error e => (.error e, s)
    | .ok (v', events) => (.ok v', { s with events := s.events ++ events }) := by
  rw [repeated, exec_bind, exec_ofExcept]
  cases b.repeated c v <;> rfl

end GrammarRules.Session
