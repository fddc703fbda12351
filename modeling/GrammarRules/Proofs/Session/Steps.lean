import GrammarRules.Proofs.Session.Course
import GrammarRules.Proofs.Session.Program

/-!
# Steps are code

Steps and the expressions in them run as code that calls a grammar: for each list of steps there is
a `Program` that runs like it. So what is proved of every program holds of every session.
-/

namespace GrammarRules

variable {α β : Type}

theorem Session.exec_ext {x y : Run α} (h : ∀ s : Session, s.exec x = s.exec y) : x = y :=
  funext h

namespace Program

def bind : {α : Type} → Program α → (α → Program β) → Program β
  | _, .done (.ok a), f => f a
  | _, .done (.error e), _ => .done (.error e)
  | _, .aside act keeps next, f => .aside act keeps fun s => (next s).bind f
  | _, .define name factory next, f => .define name factory fun result => (next result).bind f
  | _, .root factory next, f => .root factory fun result => (next result).bind f
  | _, .build mode? next, f => .build mode? fun result => (next result).bind f

theorem exec_run_bind (p : Program α) (f : α → Program β) (s : Session) :
    s.exec (p.bind f).run = s.exec (p.run >>= fun a => (f a).run) := by
  rw [Session.exec_bind]
  induction p generalizing s with
  | done result => cases result <;> rfl
  | aside act keeps next ih => rw [bind, exec_run_aside, exec_run_aside, ih]
  | define name factory next ihf ihn => rw [bind, exec_run_define, exec_run_define, ihn]
  | root factory next ihf ihn => rw [bind, exec_run_root, exec_run_root, ihn]
  | build mode? next ih => rw [bind, exec_run_build, exec_run_build, ih]

end Program

namespace Session

def IsProgram (x : Run α) : Prop := ∃ p : Program α, p.run = x

theorem isProgram_ofExcept (result : Except Error α) : IsProgram (ofExcept result) :=
  ⟨.done result, rfl⟩

theorem gives_trivial (x : Run α) : Keeps (fun _ => True) (fun _ => True) x :=
  fun _ _ => ⟨trivial, fun _ _ => trivial⟩

theorem gives_sound (x : Run Value) : Keeps (fun _ => True) (Value.Sound {}) x :=
  fun _ _ => ⟨trivial, fun v _ => v.sound_unlimited⟩

theorem isProgram_bind {P : α → Prop} {x : Run α} {f : α → Run β} (hx : IsProgram x)
    (hgives : Keeps (fun _ => True) P x) (hf : ∀ a, P a → IsProgram (f a)) :
    IsProgram (x >>= f) := by
  obtain ⟨p, rfl⟩ := hx
  -- What follows a value that `x` never gives does not matter.
  have hnext : ∀ a, ∃ q : Program β, P a → q.run = f a := by
    intro a
    by_cases ha : P a
    · obtain ⟨q, hq⟩ := hf a ha
      exact ⟨q, fun _ => hq⟩
    · exact ⟨.done (.error .endless), fun h => absurd h ha⟩
  choose q hq using hnext
  refine ⟨p.bind q, exec_ext fun s => ?_⟩
  rw [Program.exec_run_bind, exec_bind, exec_bind]
  rcases hout : s.exec p.run with ⟨e | a, s'⟩
  · rfl
  · have hgiven := (hgives s trivial).2
    rw [hout] at hgiven
    simp only [hq a (hgiven a rfl)]

theorem isProgram_modify {act : Session → Session} (keeps : ∀ s, (act s).grammar = s.grammar) :
    IsProgram (modify act) :=
  ⟨.aside act keeps fun _ => .done (.ok ⟨⟩), rfl⟩

theorem isProgram_get : IsProgram get :=
  ⟨.aside id (fun _ => rfl) fun s => .done (.ok s), rfl⟩

theorem isProgram_define {name : String} {factory : Builder → Run Value}
    (h : ∀ b, IsProgram (factory b)) : IsProgram (define name factory) := by
  choose p hp using h
  refine ⟨.define name p .done, exec_ext fun s => ?_⟩
  simp only [Program.exec_run_define, Program.exec_run_done, hp]

theorem isProgram_root {factory : Builder → Run Value} (h : ∀ b, IsProgram (factory b)) :
    IsProgram (root factory) := by
  choose p hp using h
  refine ⟨.root p .done, exec_ext fun s => ?_⟩
  simp only [Program.exec_run_root, Program.exec_run_done, hp]

theorem isProgram_build (mode? : Option Mode) : IsProgram (build mode?) := by
  refine ⟨.build mode? .done, exec_ext fun s => ?_⟩
  simp only [Program.exec_run_build, Program.exec_run_done]

theorem isProgram_load (key : String) : IsProgram (load key) := by
  refine isProgram_bind isProgram_get (gives_trivial _) fun s _ => ?_
  cases s.saved.lookup key with
  | none => exact isProgram_ofExcept (.error (.unsaved key))
  | some v => exact isProgram_ofExcept (.ok v)

theorem isProgram_repeated (b : Builder) (c : Cardinality) (v : Value) :
    IsProgram (repeated b c v) := by
  rw [repeated]
  cases b.repeated c v with
  | error e => exact isProgram_ofExcept (.error e)
  | ok result =>
    change IsProgram (note result.2 >>= fun _ => pure result.1)
    exact isProgram_bind (isProgram_modify fun _ => rfl) (gives_trivial _) fun _ _ =>
      isProgram_ofExcept (.ok result.1)

/-- All that can be written is what some program does. -/
theorem correspondence_isProgram : Correspondence {} (fun b b' => b' = b)
    (fun Q x _ => IsProgram x ∧ Keeps (fun _ => True) Q x) where
  rule hb := congrArg Builder.rule hb
  apart _ := rfl
  ofExcept hr := ⟨isProgram_ofExcept _, .ofExcept hr⟩
  bind hx hf := ⟨isProgram_bind hx.1 hx.2 fun a ha => (hf a ha).1,
    .bind hx.2 fun a ha => (hf a ha).2⟩
  look hf := ⟨isProgram_bind isProgram_get (gives_trivial _) fun s _ => (hf s.grammar.rules).1,
    .look fun rules => (hf rules).2⟩
  repeated _ _ := ⟨isProgram_repeated _ _ _, gives_sound _⟩
  load := ⟨isProgram_load _, gives_sound _⟩
  keep _ := ⟨isProgram_modify fun _ => rfl, gives_trivial _⟩
  define hf := ⟨isProgram_define fun b => (hf b b rfl).1, gives_trivial _⟩
  root hf := ⟨isProgram_root fun b => (hf b b rfl).1, gives_trivial _⟩
  build := ⟨isProgram_build _, gives_trivial _⟩

theorem isProgram_step (next : Step) : IsProgram (step next) :=
  (correspondence_isProgram.step next.madeOf_unlimited).1

theorem isProgram_runAll (steps : List Step) : IsProgram (runAll steps) :=
  (correspondence_isProgram.runAll (Step.allMadeOf_unlimited steps)).1

end Session
end GrammarRules
