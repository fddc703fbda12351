import GrammarRules.Proofs.Session.Calls
import GrammarRules.Proofs.Session.Course

/-!
# Advice and looks

Two options only give advice: whether to warn of what is replaced, and whether to print what is
built. Two sessions under the same options but for these are alike as long as they have the same
rules and the same kept values. Every step ends alike in both and leaves them alike, and so does
every look at one of them that the other does without. The two runs differ in their events, in what
is printed, and in the field that a value is found to lack when its cardinality is to be set. Without
warnings no event warns.
-/

namespace GrammarRules

def Builder.firstField (warn : Bool) : String := if warn then "cardinality" else "model_copy"

/-- Errors are alike if they are the same, or both tell that a value of the same kind is no node
whose cardinality could be set. -/
inductive Error.Alike : Error → Error → Prop
  | same (e : Error) : Alike e e
  | lacking (kind : String) (warn warn' : Bool) :
      Alike (.lacking kind (Builder.firstField warn)) (.lacking kind (Builder.firstField warn'))

theorem Grammar.admits_congr {g g' : Grammar} (hrules : g'.rules = g.rules)
    (hmode : g'.options.mode = g.options.mode) (name : String) : g'.admits name = g.admits name := by
  rw [admits, admits, isFinal, isFinal, hrules, hmode]

theorem Grammar.build_congr {g g' : Grammar} (hrules : g'.rules = g.rules)
    (hmode : g'.options.mode = g.options.mode) (hvalidate : g'.options.validate = g.options.validate)
    (mode? : Option Mode) : g'.build mode? = g.build mode? := by
  simp only [build, buildIn, checkRefs, isFinal, hrules, hmode, hvalidate]

inductive Look where
  | build (tag : Option String)
  | dangling
  | rules

def Look.step : Look → Step
  | .build tag => .build tag
  | .dangling => .dangling
  | .rules => .rules

/-- A step of a run, which another run takes too, or a look that it does without. -/
inductive Move where
  | common (next : Step)
  | extra (look : Look)

namespace Move

def step : Move → Step
  | .common next => next
  | .extra look => look.step

def common? : Move → Option Step
  | .common next => some next
  | .extra _ => none

end Move

namespace Session

variable {α β : Type} {s s' : Session}

inductive EndsAlike : Except Error α → Except Error α → Prop
  | ok (a : α) : EndsAlike (.ok a) (.ok a)
  | error {e e' : Error} : e.Alike e' → EndsAlike (.error e) (.error e')

/-- The sessions have the same rules and kept values, and their options differ in advice alone. -/
structure Alike (s s' : Session) : Prop where
  rules : s'.grammar.rules = s.grammar.rules
  mode : s'.grammar.options.mode = s.grammar.options.mode
  validate : s'.grammar.options.validate = s.grammar.options.validate
  saved : s'.saved = s.saved

def RunsAlike {α : Type} (Q : α → Prop) (x x' : Run α) : Prop :=
  ∀ s s' : Session, s.Alike s' → EndsAlike (s.exec x).1 (s'.exec x').1 ∧
    (s.exec x).2.Alike (s'.exec x').2 ∧ ∀ a, (s.exec x).1 = .ok a → Q a

namespace Alike

theorem admits_eq (h : s.Alike s') (name : String) :
    s'.grammar.admits name = s.grammar.admits name :=
  Grammar.admits_congr h.rules h.mode name

theorem build_eq (h : s.Alike s') (mode? : Option Mode) :
    s'.grammar.build mode? = s.grammar.build mode? :=
  Grammar.build_congr h.rules h.mode h.validate mode?

theorem stored (h : s.Alike s') (name : String) (v : Value) :
    (s.stored name v).Alike (s'.stored name v) :=
  ⟨congrArg (Registry.put · name v) h.rules, h.mode, h.validate, h.saved⟩

theorem storedRoot (h : s.Alike s') (v : Value) : (s.storedRoot v).Alike (s'.storedRoot v) :=
  ⟨congrArg (Registry.put · Name.root v) h.rules, h.mode, h.validate, h.saved⟩

theorem cleared (h : s.Alike s') : s.cleared.Alike s'.cleared :=
  ⟨h.rules, h.mode, h.validate, h.saved⟩

end Alike

theorem EndsAlike.refl (r : Except Error α) : EndsAlike r r := by
  cases r with
  | error e => exact .error (.same e)
  | ok a => exact .ok a

/-- Either both activities fail, or both give the same value. -/
theorem RunsAlike.cases {Q : α → Prop} {x x' : Run α} (hx : RunsAlike Q x x') (h : s.Alike s') :
    (∃ e e' t t', s.exec x = (.error e, t) ∧ s'.exec x' = (.error e', t') ∧ e.Alike e' ∧
      t.Alike t') ∨
    ∃ a t t', s.exec x = (.ok a, t) ∧ s'.exec x' = (.ok a, t') ∧ t.Alike t' ∧ Q a := by
  obtain ⟨hends, hleft, hgiven⟩ := hx s s' h
  generalize s.exec x = out, s'.exec x' = out' at hends hleft hgiven ⊢
  obtain ⟨r, t⟩ := out
  obtain ⟨r', t'⟩ := out'
  cases hends with
  | ok a => exact Or.inr ⟨a, t, t', rfl, rfl, hleft, hgiven a rfl⟩
  | error he => exact Or.inl ⟨_, _, t, t', rfl, rfl, he, hleft⟩

theorem runsAlike_ofExcept {Q : α → Prop} {r : Except Error α} (hr : ∀ a, r = .ok a → Q a) :
    RunsAlike Q (ofExcept r) (ofExcept r) :=
  fun _ _ h => ⟨.refl r, h, hr⟩

theorem runsAlike_bind {Q : α → Prop} {R : β → Prop} {x x' : Run α} {f f' : α → Run β}
    (hx : RunsAlike Q x x') (hf : ∀ a, Q a → RunsAlike R (f a) (f' a)) :
    RunsAlike R (x >>= f) (x' >>= f') := by
  intro s s' h
  rw [exec_bind, exec_bind]
  rcases hx.cases h with ⟨e, e', t, t', hout, hout', he, ht⟩ | ⟨a, t, t', hout, hout', ht, ha⟩
  · rw [hout, hout']
    exact ⟨.error he, ht, fun _ h => nomatch h⟩
  · rw [hout, hout']
    exact hf a ha t t' ht

theorem runsAlike_define {name : String} {f f' : Builder → Run Value}
    (hf : ∀ b b' : Builder, b'.rule = b.rule → RunsAlike (Value.Sound {}) (f b) (f' b')) :
    RunsAlike (fun _ => True) (define name f) (define name f') := by
  intro s s' h
  rw [exec_define, exec_define, h.admits_eq]
  cases s.grammar.admits name with
  | error e => exact ⟨.refl _, h, fun _ _ => trivial⟩
  | ok _ =>
    -- the builders of the two grammars differ in their warnings alone
    have hrun := hf (s.grammar.builder name) (s'.grammar.builder name) rfl
    rcases hrun.cases h with ⟨e, e', t, t', hout, hout', he, ht⟩ | ⟨v, t, t', hout, hout', ht, -⟩
    · simp only [hout, hout']
      exact ⟨.error he, ht, fun _ _ => trivial⟩
    · simp only [hout, hout']
      exact ⟨.refl _, ht.stored name v, fun _ _ => trivial⟩

theorem runsAlike_root {f f' : Builder → Run Value}
    (hf : ∀ b b' : Builder, b'.rule = b.rule → RunsAlike (Value.Sound {}) (f b) (f' b')) :
    RunsAlike (fun _ => True) (root f) (root f') := by
  intro s s' h
  rw [exec_root, exec_root]
  have hrun := hf (s.grammar.builder Name.root) (s'.grammar.builder Name.root) rfl
  rcases hrun.cases h with ⟨e, e', t, t', hout, hout', he, ht⟩ | ⟨v, t, t', hout, hout', ht, -⟩
  · simp only [hout, hout']
    exact ⟨.error he, ht, fun _ _ => trivial⟩
  · simp only [hout, hout']
    exact ⟨.refl _, ht.storedRoot v, fun _ _ => trivial⟩

theorem runsAlike_build (mode? : Option Mode) :
    RunsAlike (fun _ => True) (build mode?) (build mode?) := by
  intro s s' h
  rw [exec_build, exec_build, h.build_eq]
  cases s.grammar.build mode? with
  | error e => exact ⟨.refl _, h, fun _ _ => trivial⟩
  | ok text => exact ⟨.refl _, ⟨h.rules, h.mode, h.validate, h.saved⟩, fun _ _ => trivial⟩

theorem runsAlike_load (key : String) : RunsAlike (Value.Sound {}) (load key) (load key) := by
  intro s s' h
  rw [exec_load, exec_load, h.saved]
  cases s.saved.lookup key <;> exact ⟨.refl _, h, fun v _ => v.sound_unlimited⟩

/-- A value that is no node is told so, by whichever field was looked for first. -/
theorem endsAlike_repeated (b b' : Builder) (c : Cardinality) (v : Value) :
    EndsAlike ((b.repeated c v).map Prod.fst) ((b'.repeated c v).map Prod.fst) := by
  cases v with
  | part p =>
    cases p with
    | literal text => exact .error (.lacking _ b.warn b'.warn)
    | _ => exact .ok _
  | bare old => exact .ok _
  | data d => exact .error (.lacking _ b.warn b'.warn)
  | deferred body => exact .error (.lacking _ b.warn b'.warn)

theorem runsAlike_repeated (b b' : Builder) (c : Cardinality) (v : Value) :
    RunsAlike (Value.Sound {}) (repeated b c v) (repeated b' c v) := by
  intro s s' h
  rw [exec_repeated, exec_repeated]
  have hends := endsAlike_repeated b b' c v
  refine ⟨?_, ?_, fun v _ => v.sound_unlimited⟩
  · cases hr : b.repeated c v <;> cases hr' : b'.repeated c v <;>
      simpa only [hr, hr', Except.map] using hends
  · cases b.repeated c v <;> cases b'.repeated c v <;>
      exact ⟨h.rules, h.mode, h.validate, h.saved⟩

/-- All that can be written runs alike under builders that differ in their warnings. -/
theorem correspondence_runsAlike :
    Correspondence {} (fun b b' => b'.rule = b.rule) RunsAlike where
  rule hb := hb
  apart _ := rfl
  ofExcept := runsAlike_ofExcept
  bind := runsAlike_bind
  look hf s s' h := by
    rw [exec_bind, exec_bind, exec_get, exec_get]
    simp only [h.rules]
    exact hf s.grammar.rules s s' h
  repeated _ _ := runsAlike_repeated _ _ _ _
  load := runsAlike_load _
  keep {key v} _ s s' h :=
    ⟨.refl _, ⟨h.rules, h.mode, h.validate, congrArg ((key, v) :: ·) h.saved⟩, fun _ _ => trivial⟩
  define := runsAlike_define
  root := runsAlike_root
  build := runsAlike_build _

/-- A look leaves the grammar and the kept values as they are. -/
theorem keeps_look (g : Grammar) (saved : List (String × Value)) (look : Look) :
    Keeps (fun s => s.grammar = g ∧ s.saved = saved) (fun _ => True) (step look.step) := by
  cases look with
  | build tag =>
    refine Keeps.bind (Q := fun _ => True) (.ofExcept fun _ _ => trivial) fun mode? _ =>
      Keeps.bind (Q := fun _ => True) ?_ fun _ _ => .ofExcept fun _ _ => trivial
    intro s hs
    refine ⟨?_, fun _ _ => trivial⟩
    rw [exec_build]
    cases s.grammar.build mode? <;> exact hs
  | dangling =>
    exact Keeps.look (f := fun rules => do return Outcome.pairs (← ofExcept rules.dangling))
      fun _ => Keeps.bind (Q := fun _ => True) (.ofExcept fun _ _ => trivial) fun _ _ =>
        .ofExcept fun _ _ => trivial
  | rules =>
    exact Keeps.look (f := fun rules => do return Outcome.rules rules.entries) fun _ =>
      .ofExcept fun _ _ => trivial

def commonCourse (s : Session) (moves : List Move) : List (Report × Session) :=
  (moves.zip (s.course (moves.map Move.step))).filterMap fun
    | (.common _, stage) => some stage
    | (.extra _, _) => none

theorem commonCourse_common (s : Session) (next : Step) (moves : List Move) :
    s.commonCourse (.common next :: moves) =
      s.report next :: (s.report next).2.commonCourse moves := rfl

theorem commonCourse_extra (s : Session) (look : Look) (moves : List Move) :
    s.commonCourse (.extra look :: moves) = (s.report look.step).2.commonCourse moves := rfl

def StagesAlike (stage stage' : Report × Session) : Prop :=
  EndsAlike stage.1.outcome stage'.1.outcome ∧ stage'.2.grammar.rules = stage.2.grammar.rules

theorem Alike.report (h : s.Alike s') (next : Step) :
    StagesAlike (s.report next) (s'.report next) ∧ (s.report next).2.Alike (s'.report next).2 := by
  obtain ⟨hends, hleft, -⟩ :=
    correspondence_runsAlike.step next.madeOf_unlimited s.cleared s'.cleared h.cleared
  exact ⟨⟨hends, hleft.rules⟩, hleft⟩

theorem Alike.report_look (h : s.Alike s') (look : Look) : (s.report look.step).2.Alike s' := by
  obtain ⟨hgrammar, hsaved⟩ := (keeps_look s.grammar s.saved look s.cleared ⟨rfl, rfl⟩).1
  refine ⟨?_, ?_, ?_, ?_⟩ <;> rw [session_report]
  · rw [hgrammar, h.rules]
  · rw [hgrammar, h.mode]
  · rw [hgrammar, h.validate]
  · rw [hsaved, h.saved]

theorem Alike.commonCourse (h : s.Alike s') (moves : List Move) :
    List.Forall₂ StagesAlike (s.commonCourse moves)
      (s'.course (moves.filterMap Move.common?)) := by
  induction moves generalizing s s' with
  | nil => exact .nil
  | cons move moves ih =>
    cases move with
    | common next =>
      obtain ⟨hstages, hleft⟩ := h.report next
      rw [commonCourse_common]
      exact .cons hstages (ih hleft)
    | extra look =>
      rw [commonCourse_extra]
      exact ih (h.report_look look)

/-- What is supplied if no rule is made by a builder that warns, apart from the grammar. -/
def quiet : Supply := { builder := fun b => !b.warn }

theorem kept_quiet : Kept quiet (fun g => g.options.warn = false) (fun e => e.level = .debug)
    (fun b => b.warn = false) where
  put hg _ _ := hg
  putEvents {g name} hg := by
    rw [Grammar.putEvents, hg, Bool.and_false]
    exact List.forall_mem_singleton.mpr rfl
  rootReplaced := rfl
  built := rfl
  replacing {b old c} hb := by
    cases old with
    | none => exact List.forall_mem_nil _
    | some old => simp [Builder.replacing, hb]
  builder hg := hg
  apart hb := by simpa [quiet] using hb

/-- The same steps taken under options that differ in advice alone, in one of the two runs with any
looks in between, end alike and leave the same rules. Where warnings are off and no builder apart
from the grammar warns, no event of the run is a warning. -/
theorem stages_alike_under_advice_and_looks (o : Options) (warn debug : Bool) (moves : List Move) :
    List.Forall₂ StagesAlike ((fresh o).commonCourse moves)
      ((fresh { o with warn := warn, debug := debug }).course
        (moves.filterMap Move.common?)) ∧
    (o.warn = false → (∀ move ∈ moves, move.step.madeOf quiet) →
      ∀ stage ∈ (fresh o).course (moves.map Move.step), ∀ e ∈ stage.1.events,
        e.level ≠ .warning) := by
  have halike : (fresh o).Alike (fresh { o with warn := warn, debug := debug }) :=
    ⟨rfl, rfl, rfl, rfl⟩
  refine ⟨halike.commonCourse moves, fun hwarn hmoves => ?_⟩
  have hfresh : (fresh o).Holds quiet (fun g => g.options.warn = false)
      (fun e => e.level = .debug) := ⟨hwarn, List.forall_mem_nil _, List.forall_mem_nil _⟩
  have hsteps : ∀ next ∈ moves.map Move.step, next.madeOf quiet :=
    List.forall_mem_map.mpr hmoves
  intro stage hstage e he hlevel
  have hdebug := (kept_quiet.course hfresh hsteps stage hstage).2 e he
  rw [hlevel] at hdebug
  cases hdebug

def watchedMoves : List Move :=
  [.common (.define "a" (.literal "x")), .extra .dangling,
    .common (.define "a" (.repeated .optional (.repeated .oneOrMore (.ref "x")))),
    .common (.define "b" (.repeated .optional (.literal "y"))), .extra (.build none),
    .common (.root (.ref "a")), .common (.build none)]

theorem watchedMoves_alike_without_warnings :
    List.Forall₂ StagesAlike ((fresh { warn := false, debug := true }).commonCourse watchedMoves)
        ((fresh { warn := true }).course (watchedMoves.filterMap Move.common?)) ∧
      (∀ stage ∈ (fresh { warn := false, debug := true }).course (watchedMoves.map Move.step),
        ∀ e ∈ stage.1.events, e.level ≠ .warning) ∧
      ((fresh { warn := true }).course (watchedMoves.filterMap Move.common?)).flatMap
          (fun stage => stage.1.events.filter fun e => e.level = .warning) =
        [.cardinalityReplaced .oneOrMore .optional (some "a"), .ruleReplaced "a"] := by
  have h := stages_alike_under_advice_and_looks { warn := false, debug := true } true false
    watchedMoves
  exact ⟨h.1, h.2 rfl (by decide), by cbv⟩

end Session
end GrammarRules
