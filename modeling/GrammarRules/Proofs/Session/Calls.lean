import GrammarRules.Proofs.Name.Words
import GrammarRules.Proofs.Session.Aloof
import GrammarRules.Proofs.Session.Log

/-!
# A grammar keeps the log of its calls

When factories leave the grammar alone, all that matters of a run is which calls succeeded and with
which values. After any calls, on a fresh grammar, the registry holds what the log of the successful
ones tells: the names in the order of their first successes, the root after them, each with the
value of its last success. The warnings about replaced rules are those of the log, and the log tells
how the next call ends.
-/

namespace GrammarRules

structure Request where
  call : Call
  factory : Factory

def Request.perform (r : Request) : Run Unit :=
  match r.call with
  | .define name => Session.define name r.factory.make
  | .root => Session.root r.factory.make

namespace Session

variable (s : Session)

def given (r : Request) : Except Error Value :=
  (s.exec (r.factory.make (s.grammar.builder r.call.name))).1

def after (s : Session) : List Request → Session
  | [] => s
  | r :: requests => (s.exec r.perform).2.after requests

/-- What a call adds to the log: nothing, unless it succeeds. -/
def success (s : Session) (r : Request) : Log :=
  match (s.exec r.perform).1, s.given r with
  | .ok _, .ok value => [(r.call, value)]
  | _, _ => []

def successes (s : Session) : List Request → Log
  | [] => []
  | r :: requests => s.success r ++ (s.exec r.perform).2.successes requests

def refusal (s : Session) : Call → Except Error Unit
  | .define name => s.grammar.admits name
  | .root => .ok ()

def storedAs (s : Session) (value : Value) : Call → Session
  | .define name => s.stored name value
  | .root => s.storedRoot value

/-- A call is refused, or it fails with its factory, or it stores what its factory gave. -/
theorem perform_cases (r : Request) :
    let outcome := s.exec (r.factory.make (s.grammar.builder r.call.name))
    (∃ e, s.refusal r.call = .error e ∧ s.exec r.perform = (.error e, s)) ∨
      s.refusal r.call = .ok () ∧
        ((∃ e s', outcome = (.error e, s') ∧ s.exec r.perform = (.error e, s')) ∨
          ∃ value s', outcome = (.ok value, s') ∧
            s.exec r.perform = (.ok (), s'.storedAs value r.call)) := by
  intro outcome
  obtain ⟨call, f⟩ := r
  cases call with
  | define name =>
    have hexec := s.exec_define name f.make
    cases hadm : s.grammar.admits name with
    | error e =>
      rw [hadm] at hexec
      exact Or.inl ⟨e, hadm, hexec⟩
    | ok _ =>
      rw [hadm] at hexec
      refine Or.inr ⟨hadm, ?_⟩
      rcases hout : s.exec (f.make (s.grammar.builder name)) with ⟨e | value, s'⟩
      · rw [hout] at hexec
        exact Or.inl ⟨e, s', hout, hexec⟩
      · rw [hout] at hexec
        exact Or.inr ⟨value, s', hout, hexec⟩
  | root =>
    have hexec := s.exec_root f.make
    refine Or.inr ⟨rfl, ?_⟩
    rcases hout : s.exec (f.make (s.grammar.builder Name.root)) with ⟨e | value, s'⟩
    · rw [hout] at hexec
      exact Or.inl ⟨e, s', hout, hexec⟩
    · rw [hout] at hexec
      exact Or.inr ⟨value, s', hout, hexec⟩

def fresh (o : Options) : Session := { grammar := { options := o } }

structure Shows (s : Session) (o : Options) (log : Log) : Prop where
  options : s.grammar.options = o
  names : s.grammar.rules.names = log.names
  get? : ∀ key, s.grammar.rules.get? key = log.last? key
  warnings : s.replacements = log.warnings o
  reserved : Name.root ∉ log.defined

variable {s} {s' : Session} {o : Options} {log : Log} {call : Call} {name : String}

theorem refusal_congr (hgrammar : s'.grammar = s.grammar) : s'.refusal call = s.refusal call := by
  cases call with
  | define name => rw [refusal, refusal, hgrammar]
  | root => rfl

theorem shows_fresh (o : Options) : (fresh o).Shows o [] where
  options := rfl
  names := rfl
  get? _ := rfl
  warnings := by simp [replacements, fresh, Log.warnings, Log.defined, Log.repeats]
  reserved := by simp [Log.defined]

namespace Shows

theorem congr (h : s.Shows o log) (hgrammar : s'.grammar = s.grammar)
    (hreplaced : s'.replacements = s.replacements) : s'.Shows o log where
  options := by rw [hgrammar, h.options]
  names := by rw [hgrammar, h.names]
  get? key := by rw [hgrammar, h.get?]
  warnings := by rw [hreplaced, h.warnings]
  reserved := h.reserved

theorem isFinal_iff (h : s.Shows o log) : s.grammar.isFinal ↔ log.HasRoot := by
  rw [Grammar.isFinal_iff, h.names, Log.mem_names]
  simp [h.reserved]

theorem refusal (h : s.Shows o log) (call : Call) :
    s.refusal call = Log.firstOf (log.refusals o call) := by
  cases call with
  | root => rfl
  | define name =>
    have hblank : Name.isBlank name ↔ ¬ ∃ c ∈ name.toList, c.isAlphanum := by
      rw [← Name.not_isBlank_iff]
      simp
    rw [Session.refusal, Grammar.admits, Log.refusals, h.options]
    simp only [hblank, h.isFinal_iff]
    split_ifs <;> simp only [Log.firstOf]

/-- A definition that succeeds adds its name at the end or finds it, and the root is not yet set. -/
theorem stored (h : s.Shows o log) (hok : s.grammar.admits name = .ok ()) (value : Value) :
    (s.stored name value).Shows o (log ++ [(.define name, value)]) := by
  obtain ⟨-, hname, hfinal⟩ := (Grammar.admits_eq_ok_iff ..).mp hok
  have hroot : ¬ log.HasRoot := mt h.isFinal_iff.mpr hfinal
  have hmem : name ∈ log.names ↔ name ∈ log.defined := by
    simp [Log.mem_names, hroot]
  refine ⟨h.options, ?_, fun key => ?_, ?_, ?_⟩
  · rw [grammar_stored, Grammar.rules_put, Registry.names_put, h.names,
      Log.names_concat_define hroot]
  · rw [grammar_stored, Grammar.rules_put, Registry.get?_put, h.get?, Log.last?_concat, Call.name]
  · have hcontains : s.grammar.rules.contains name = decide (name ∈ log.defined) := by
      simp [Registry.contains, h.names, hmem]
    rw [Log.warnings_concat_define, ← h.warnings, replacements, Session.stored, List.filter_append,
      replacements, Grammar.putEvents, hcontains, h.options]
    by_cases hdefined : name ∈ log.defined
    · cases o.warn <;> simp [hdefined, Event.isRuleReplaced, List.filter_cons]
    · simp [hdefined, Event.isRuleReplaced]
  · rw [Log.defined_concat_define, List.mem_append, List.mem_singleton]
    exact not_or.mpr ⟨h.reserved, Ne.symm hname⟩

theorem storedRoot (h : s.Shows o log) (value : Value) :
    (s.storedRoot value).Shows o (log ++ [(.root, value)]) := by
  refine ⟨h.options, ?_, fun key => ?_, ?_, ?_⟩
  · rw [grammar_storedRoot, Grammar.rules_put, Registry.names_put, h.names,
      Log.names_concat_root h.reserved]
  · rw [grammar_storedRoot, Grammar.rules_put, Registry.get?_put, h.get?, Log.last?_concat,
      Call.name]
  · rw [Log.warnings_concat_root, ← h.warnings, replacements, Session.storedRoot,
      List.filter_append, replacements, Grammar.putRootEvents]
    split <;> simp [Event.isRuleReplaced]
  · rw [Log.defined_concat_root]
    exact h.reserved

theorem storedAs (h : s.Shows o log) (hok : s.refusal call = .ok ()) (value : Value) :
    (s.storedAs value call).Shows o (log ++ [(call, value)]) := by
  cases call with
  | define name => exact h.stored hok value
  | root => exact h.storedRoot value

/-- One call ends as the log says, and the session shows the log after it. -/
theorem perform (h : s.Shows o log) (r : Request) :
    (s.exec r.perform).1 = log.answer o r.call (s.given r) ∧
      (s.exec r.perform).2.Shows o (log ++ s.success r) := by
  have hgrammar := (r.factory.aloof (s.grammar.builder r.call.name)).grammar s
  have hreplaced := (r.factory.aloof (s.grammar.builder r.call.name)).replacements s
  rw [Log.answer_eq, ← h.refusal, success]
  rcases s.perform_cases r with
    ⟨e, href, hexec⟩ | ⟨hok, ⟨e, s', hout, hexec⟩ | ⟨v, s', hout, hexec⟩⟩
  -- refused: nothing was run
  · rw [hexec, href, List.append_nil]
    exact ⟨rfl, h⟩
  -- failed in the factory, which is aloof
  · rw [hout] at hgrammar hreplaced
    rw [hexec, hok, given, hout, List.append_nil]
    exact ⟨rfl, h.congr hgrammar hreplaced⟩
  -- stored into the grammar that admitted the call, since the factory is aloof
  · rw [hout] at hgrammar hreplaced
    rw [hexec, hok, given, hout]
    exact ⟨rfl, (h.congr hgrammar hreplaced).storedAs (by rw [refusal_congr hgrammar, hok]) v⟩

theorem after (h : s.Shows o log) (requests : List Request) :
    (s.after requests).Shows o (log ++ s.successes requests) := by
  induction requests generalizing s log with
  | nil =>
    rw [successes, List.append_nil]
    exact h
  | cons r requests ih =>
    rw [successes, ← List.append_assoc]
    exact ih (h.perform r).2

end Shows

/-- A call that fails leaves the grammar as it was. -/
theorem grammar_perform_of_error {r : Request} {e : Error} (h : (s.exec r.perform).1 = .error e) :
    (s.exec r.perform).2.grammar = s.grammar := by
  have hgrammar := (r.factory.aloof (s.grammar.builder r.call.name)).grammar s
  rcases s.perform_cases r with ⟨e, -, hexec⟩ | ⟨-, ⟨e, s', hout, hexec⟩ | ⟨v, s', -, hexec⟩⟩
  · rw [hexec]
  · rw [hexec]
    rw [hout] at hgrammar
    exact hgrammar
  · rw [hexec] at h
    cases h

/-- After any calls on a fresh grammar the registry and the warnings are those that the log of the
successful calls tells. The next call ends as the log tells, and leaves the grammar as it is if it
fails. -/
theorem calls_refine_log (o : Options) (calls : List Request) (next : Request) :
    let s := (fresh o).after calls
    let log := (fresh o).successes calls
    (s.grammar.rules.names = log.names ∧ (∀ key, s.grammar.rules.get? key = log.last? key) ∧
      s.replacements = log.warnings o) ∧
    (s.exec next.perform).1 = log.answer o next.call (s.given next) ∧
    ((s.exec next.perform).1 = .ok () ↔
      match next.call with
      | .define name => (∃ c ∈ name.toList, c.isAlphanum) ∧ name ≠ Name.root ∧ ¬ log.HasRoot ∧
          ∃ value, s.given next = .ok value
      | .root => ∃ value, s.given next = .ok value) ∧
    ∀ e, (s.exec next.perform).1 = .error e → (s.exec next.perform).2.grammar = s.grammar := by
  intro s log
  have hshows : s.Shows o log := (shows_fresh o).after calls
  have hanswer := (hshows.perform next).1
  refine ⟨⟨hshows.names, hshows.get?, hshows.warnings⟩, hanswer, ?_, fun e he => ?_⟩
  · rw [hanswer]
    cases next.call with
    | define name => exact Log.answer_define_eq_ok_iff _
    | root => exact Log.answer_root_eq_ok_iff _
  · exact grammar_perform_of_error he

end Session
end GrammarRules
