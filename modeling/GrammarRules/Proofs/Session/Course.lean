import GrammarRules.Proofs.Session.Correspondence

/-!
# The course of a session

The course of a session is the steps taken on it with what each reports and leaves, whether or not
it fails. What holds of the grammar, of each event and of each kept value at the start, and is kept
by all that a step can do, nested calls included, holds all along the course.
-/

namespace GrammarRules.Session

variable {supply : Supply} {G : Grammar → Prop} {E : Event → Prop} {P : Builder → Prop}
  {s : Session}

def course (s : Session) : List Step → List (Report × Session)
  | [] => []
  | next :: steps => s.report next :: (s.report next).2.course steps

theorem reports_eq_map_course (s : Session) (steps : List Step) :
    s.reports steps = (s.course steps).map Prod.fst := by
  induction steps generalizing s with
  | nil => rfl
  | cons next steps ih => exact congrArg _ (ih _)

/-- The session as a report of the next step sees it. -/
def cleared (s : Session) : Session := { s with events := [], printed := "" }

theorem session_report (s : Session) (next : Step) :
    (s.report next).2 = (s.cleared.exec (step next)).2 := rfl

/-- Run in a session with the property `I`, the activity leaves one, and gives values with `Q`. -/
def Keeps (I : Session → Prop) {α : Type} (Q : α → Prop) (x : Run α) : Prop :=
  ∀ s, I s → I (s.exec x).2 ∧ ∀ a, (s.exec x).1 = .ok a → Q a

section Keeps

variable {I : Session → Prop} {α β : Type} {Q : α → Prop} {R : β → Prop}

theorem Keeps.ofExcept {r : Except Error α} (hr : ∀ a, r = .ok a → Q a) :
    Keeps I Q (ofExcept r) :=
  fun _ hs => ⟨hs, hr⟩

theorem Keeps.look {f : Registry → Run α} (hf : ∀ rules, Keeps I Q (f rules)) :
    Keeps I Q (get >>= fun s => f s.grammar.rules) :=
  fun s hs => hf s.grammar.rules s hs

theorem Keeps.bind {x : Run α} {f : α → Run β} (hx : Keeps I Q x)
    (hf : ∀ a, Q a → Keeps I R (f a)) : Keeps I R (x >>= f) := by
  intro s hs
  obtain ⟨hleft, hgiven⟩ := hx s hs
  rw [exec_bind]
  rcases hout : s.exec x with ⟨e | a, s'⟩
  · rw [hout] at hleft
    exact ⟨hleft, fun _ h => nomatch h⟩
  · rw [hout] at hleft hgiven
    exact hf a (hgiven a rfl) s' hleft

end Keeps

structure Holds (supply : Supply) (G : Grammar → Prop) (E : Event → Prop) (s : Session) : Prop where
  grammar : G s.grammar
  events : ∀ e ∈ s.events, E e
  saved : ∀ kept ∈ s.saved, kept.2.Sound supply

/-- Storing sound values keeps `G`, and all events are of the kind `E`, as long as the builders used
are of the kind `P`. -/
structure Kept (supply : Supply) (G : Grammar → Prop) (E : Event → Prop) (P : Builder → Prop) :
    Prop where
  put {g : Grammar} {name : String} {v : Value} : G g → Name.isBlank name = false →
    v.Sound supply → G (g.put name v)
  putEvents {g : Grammar} {name : String} : G g → ∀ e ∈ g.putEvents name, E e
  rootReplaced : E .rootReplaced
  built {mode : Mode} {n : Nat} : E (.built mode n)
  replacing {b : Builder} {old : Option Cardinality} {c : Cardinality} : P b →
    ∀ e ∈ b.replacing old c, E e
  builder {g : Grammar} {name : String} : G g → P (g.builder name)
  apart {b : Builder} : supply.builder b → P b

namespace Kept

variable (k : Kept supply G E P) {name : String} {v : Value}
include k

theorem stored (hs : s.Holds supply G E) (hname : Name.isBlank name = false)
    (hv : v.Sound supply) : (s.stored name v).Holds supply G E where
  grammar := k.put hs.grammar hname hv
  events := List.forall_mem_append.mpr ⟨hs.events, k.putEvents hs.grammar⟩
  saved := hs.saved

theorem storedRoot (hs : s.Holds supply G E) (hv : v.Sound supply) :
    (s.storedRoot v).Holds supply G E where
  grammar := k.put hs.grammar (by cbv) hv
  events := by
    refine List.forall_mem_append.mpr ⟨hs.events, fun e he => ?_⟩
    rw [Grammar.putRootEvents] at he
    split at he
    · rw [List.mem_singleton.mp he]
      exact k.rootReplaced
    · cases he
  saved := hs.saved

theorem keeps_define {f : Builder → Run Value}
    (hf : ∀ b, P b → Keeps (Holds supply G E) (Value.Sound supply) (f b)) :
    Keeps (Holds supply G E) (fun _ => True) (define name f) := by
  intro s hs
  refine ⟨?_, fun _ _ => trivial⟩
  rw [exec_define]
  cases hadm : s.grammar.admits name with
  | error e => exact hs
  | ok _ =>
    obtain ⟨hleft, hgiven⟩ := hf _ (k.builder hs.grammar) s hs
    rcases hout : s.exec (f (s.grammar.builder name)) with ⟨e | v, s'⟩
    · rw [hout] at hleft
      exact hleft
    · rw [hout] at hleft hgiven
      exact k.stored hleft ((Grammar.admits_eq_ok_iff ..).mp hadm).1 (hgiven v rfl)

theorem keeps_root {f : Builder → Run Value}
    (hf : ∀ b, P b → Keeps (Holds supply G E) (Value.Sound supply) (f b)) :
    Keeps (Holds supply G E) (fun _ => True) (root f) := by
  intro s hs
  refine ⟨?_, fun _ _ => trivial⟩
  rw [exec_root]
  obtain ⟨hleft, hgiven⟩ := hf _ (k.builder hs.grammar) s hs
  rcases hout : s.exec (f (s.grammar.builder Name.root)) with ⟨e | v, s'⟩
  · rw [hout] at hleft
    exact hleft
  · rw [hout] at hleft hgiven
    exact k.storedRoot hleft (hgiven v rfl)

theorem keeps_build (mode? : Option Mode) :
    Keeps (Holds supply G E) (fun _ => True) (build mode?) := by
  intro s hs
  refine ⟨?_, fun _ _ => trivial⟩
  rw [exec_build]
  cases s.grammar.build mode? with
  | error e => exact hs
  | ok text =>
    exact ⟨hs.grammar, List.forall_mem_append.mpr ⟨hs.events, List.forall_mem_singleton.mpr k.built⟩,
      hs.saved⟩

theorem keeps_repeated {b : Builder} (hb : P b) {c : Cardinality} (hv : v.Sound supply) :
    Keeps (Holds supply G E) (Value.Sound supply) (repeated b c v) := by
  intro s hs
  rw [exec_repeated]
  cases hresult : b.repeated c v with
  | error e => exact ⟨hs, fun _ h => nomatch h⟩
  | ok result =>
    obtain ⟨v', events⟩ := result
    obtain ⟨old, rfl⟩ := Builder.exists_eq_replacing hresult
    refine ⟨⟨hs.grammar, ?_, hs.saved⟩, fun a ha => ?_⟩
    · exact List.forall_mem_append.mpr ⟨hs.events, k.replacing hb⟩
    · cases ha
      exact Builder.sound_repeated hv hresult

theorem correspondence : Correspondence supply (fun b b' => b' = b ∧ P b)
    (fun Q x _ => Keeps (Holds supply G E) Q x) where
  rule hb := congrArg Builder.rule hb.1
  apart hb := ⟨rfl, k.apart hb⟩
  ofExcept := .ofExcept
  bind := .bind
  look := .look
  repeated hb hv := k.keeps_repeated hb.2 hv
  load {key} s hs := by
    rw [exec_load]
    cases hlookup : s.saved.lookup key with
    | none => exact ⟨hs, fun _ h => nomatch h⟩
    | some v =>
      obtain ⟨front, back, hsaved, -⟩ := List.lookup_eq_some_iff.mp hlookup
      have hmem : (key, v) ∈ s.saved := by simp [hsaved]
      refine ⟨hs, fun a ha => ?_⟩
      cases ha
      exact hs.saved (key, v) hmem
  keep hv s hs :=
    ⟨⟨hs.grammar, hs.events, List.forall_mem_cons.mpr ⟨hv, hs.saved⟩⟩, fun _ _ => trivial⟩
  define hf := k.keeps_define fun b hb => hf b b ⟨rfl, hb⟩
  root hf := k.keeps_root fun b hb => hf b b ⟨rfl, hb⟩
  build := k.keeps_build _

/-- What is kept by all that a step can do holds all along the course. -/
theorem course (hs : s.Holds supply G E) {steps : List Step}
    (hsteps : ∀ next ∈ steps, next.madeOf supply) :
    ∀ stage ∈ s.course steps, stage.2.Holds supply G E ∧ ∀ e ∈ stage.1.events, E e := by
  induction steps generalizing s with
  | nil => exact List.forall_mem_nil _
  | cons next steps ih =>
    obtain ⟨hnext, hsteps⟩ := List.forall_mem_cons.mp hsteps
    have hcleared : s.cleared.Holds supply G E := ⟨hs.grammar, List.forall_mem_nil _, hs.saved⟩
    have hleft := (k.correspondence.step hnext s.cleared hcleared).1
    exact List.forall_mem_cons.mpr ⟨⟨hleft, hleft.events⟩, ih hleft hsteps⟩

end Kept
end GrammarRules.Session
