import GrammarRules.Proofs.Session.Plain

/-!
# Deferred arguments

A sequence or a choice evaluates its arguments from left to right, and only then, from left to
right again, asks for those that are deferred. Up to the order of what is noted this is asking for
each argument where it stands, since evaluating a plain expression always fails, or always gives the
same value and notes the same events. So it does not matter which arguments are deferred.
-/

namespace GrammarRules

namespace Expr

mutual

/-- The expression with those arguments of its sequences and choices deferred that stand at a chosen
place. A place is the way to an argument from the whole expression, as the numbers of the arguments
on it. An argument that is deferred already stays so, with chosen arguments deferred inside it. -/
def defer : Expr → (List Nat → Bool) → Expr
  | .sequence arguments, chosen => .sequence (deferAll arguments 0 chosen)
  | .oneOf arguments, chosen => .oneOf (deferAll arguments 0 chosen)
  | .repeated c body, chosen => .repeated c (body.defer chosen)
  | e, _ => e

def deferAll : List Expr → Nat → (List Nat → Bool) → List Expr
  | [], _, _ => []
  | .call body :: es, i, chosen =>
      .call (body.defer fun place => chosen (i :: place)) :: deferAll es (i + 1) chosen
  | e :: es, i, chosen =>
      let e' := e.defer fun place => chosen (i :: place)
      (if chosen [i] then .call e' else e') :: deferAll es (i + 1) chosen

end

/-- What is evaluated when an argument is asked for. -/
def awaited : Expr → Expr
  | .call body => body
  | e => e

theorem sizeOf_awaited_le (e : Expr) : sizeOf e.awaited ≤ sizeOf e := by
  cases e with
  | call body =>
    simp only [awaited, call.sizeOf_spec]
    omega
  | _ => exact le_rfl

theorem isPlain_awaited (e : Expr) : e.awaited.isPlain = e.isPlain := by
  cases e <;> rfl

theorem allPlain_map_awaited (es : List Expr) : allPlain (es.map awaited) = allPlain es := by
  induction es with
  | nil => rfl
  | cons e es ih => rw [List.map_cons, allPlain, allPlain, ih, isPlain_awaited]

theorem awaited_defer (e : Expr) (he : e.awaited = e) (chosen : List Nat → Bool) :
    (e.defer chosen).awaited = e.defer chosen := by
  cases e with
  | call body => exact absurd (congrArg sizeOf he) (by simp only [awaited, call.sizeOf_spec]; omega)
  | _ => rfl

/-- Deferring an argument changes nothing in what is evaluated when it is asked for. -/
theorem map_awaited_deferAll_cons (e : Expr) (es : List Expr) (i : Nat)
    (chosen : List Nat → Bool) : (deferAll (e :: es) i chosen).map awaited =
      e.awaited.defer (fun place => chosen (i :: place)) ::
        (deferAll es (i + 1) chosen).map awaited := by
  cases e with
  | call body => rfl
  | _ =>
    simp only [deferAll, List.map_cons]
    split
    · rfl
    · rw [awaited_defer _ rfl]
      rfl

mutual

theorem isPlain_defer : ∀ e chosen, (defer e chosen).isPlain = e.isPlain
  | .sequence arguments, chosen => allPlain_deferAll arguments 0 chosen
  | .oneOf arguments, chosen => allPlain_deferAll arguments 0 chosen
  | .repeated _ body, chosen => isPlain_defer body chosen
  | .literal _, _ | .ref _, _ | .range _, _ | .call _, _ | .raw _, _ | .bare _, _
  | .saved _, _ | .after _ _, _ => rfl
termination_by e => sizeOf e

theorem allPlain_deferAll : ∀ es i chosen, allPlain (deferAll es i chosen) = allPlain es
  | [], _, _ => rfl
  | e :: es, i, chosen => by
      rw [← allPlain_map_awaited, map_awaited_deferAll_cons, allPlain, allPlain,
        allPlain_map_awaited, allPlain_deferAll es (i + 1) chosen, isPlain_defer e.awaited,
        isPlain_awaited]
termination_by es => sizeOf es
decreasing_by
  all_goals
    have := e.sizeOf_awaited_le
    simp only [List.cons.sizeOf_spec]
    omega

end

end Expr

namespace Session

variable {α β γ : Type}

def Fails (x : Run α) : Prop := ∀ s : Session, ∃ e s', s.exec x = (.error e, s')

/-- In every session the activity gives `a` and notes `events`, and does nothing else. -/
def Gives (x : Run α) (a : α) (events : List Event) : Prop :=
  ∀ s : Session, s.exec x = (.ok a, s.noted events)

theorem fails_bind {x : Run α} (hx : Fails x) (f : α → Run β) : Fails (x >>= f) := by
  intro s
  obtain ⟨e, s', h⟩ := hx s
  refine ⟨e, s', ?_⟩
  rw [exec_bind, h]

theorem Gives.fails_bind {x : Run α} {a : α} {events : List Event} (hx : Gives x a events)
    {f : α → Run β} (hf : Fails (f a)) : Fails (x >>= f) := by
  intro s
  obtain ⟨e, s', h⟩ := hf (s.noted events)
  refine ⟨e, s', ?_⟩
  rw [exec_bind, hx s]
  exact h

theorem Gives.bind {x : Run α} {a : α} {events : List Event} (hx : Gives x a events)
    {f : α → Run β} {c : β} {events' : List Event} (hf : Gives (f a) c events') :
    Gives (x >>= f) c (events ++ events') := by
  intro s
  have h := hf (s.noted events)
  rw [noted_noted] at h
  rw [exec_bind, hx s]
  exact h

theorem Gives.not_fails {x : Run α} {a : α} {events : List Event} (hx : Gives x a events) :
    ¬Fails x := by
  intro h
  obtain ⟨e, s', he⟩ := h {}
  rw [hx {}] at he
  cases he

theorem Gives.unique {x : Run α} {a a' : α} {events events' : List Event}
    (hx : Gives x a events) (hx' : Gives x a' events') : a = a' ∧ events = events' := by
  have h := (hx {}).symm.trans (hx' {})
  obtain ⟨ha, hs⟩ := Prod.mk.inj h
  exact ⟨Except.ok.inj ha, by simpa only [noted, List.nil_append] using congrArg Session.events hs⟩

/-- Two activities fail both, or give the same value and note the same events, be it in another
order. -/
inductive Interchangeable (x y : Run α) : Prop where
  | fail (hx : Fails x) (hy : Fails y)
  | give {a : α} {events events' : List Event} (hx : Gives x a events) (hy : Gives y a events')
      (h : events.Perm events')

/-- An activity to which it makes no difference in which session it is done. -/
def Steady (x : Run α) : Prop := Interchangeable x x

theorem Interchangeable.trans {x y z : Run α} (h : Interchangeable x y)
    (h' : Interchangeable y z) : Interchangeable x z := by
  cases h with
  | fail hx hy =>
    cases h' with
    | fail _ hz => exact .fail hx hz
    | give hy' _ _ => exact absurd hy hy'.not_fails
  | give hx hy hperm =>
    cases h' with
    | fail hy' _ => exact absurd hy' hy.not_fails
    | give hy' hz hperm' =>
      obtain ⟨rfl, rfl⟩ := hy.unique hy'
      exact .give hx hz (hperm.trans hperm')

theorem Interchangeable.symm {x y : Run α} (h : Interchangeable x y) : Interchangeable y x := by
  cases h with
  | fail hx hy => exact .fail hy hx
  | give hx hy hperm => exact .give hy hx hperm.symm

theorem Interchangeable.bind {x y : Run α} {f g : α → Run β} (h : Interchangeable x y)
    (hf : ∀ a, Interchangeable (f a) (g a)) : Interchangeable (x >>= f) (y >>= g) := by
  cases h with
  | fail hx hy => exact .fail (fails_bind hx f) (fails_bind hy g)
  | @give a _ _ hx hy hperm =>
    cases hf a with
    | fail hx' hy' => exact .fail (hx.fails_bind hx') (hy.fails_bind hy')
    | give hx' hy' hperm' => exact .give (hx.bind hx') (hy.bind hy') (hperm.append hperm')

/-- Of two activities, neither of which makes use of what the other gives, either may be first. -/
theorem Steady.bind_comm {x : Run α} {y : Run β} {f : α → β → Run γ} (hx : Steady x)
    (hy : Steady y) (hf : ∀ a c, Steady (f a c)) :
    Interchangeable (x >>= fun a => y >>= fun c => f a c)
      (y >>= fun c => x >>= fun a => f a c) := by
  cases hx with
  | fail hx _ =>
    refine .fail (fails_bind hx _) ?_
    cases hy with
    | fail hy _ => exact fails_bind hy _
    | give hy _ _ => exact hy.fails_bind (fails_bind hx _)
  | @give a _ _ hx _ _ =>
    cases hy with
    | fail hy _ => exact .fail (hx.fails_bind (fails_bind hy _)) (fails_bind hy _)
    | @give c _ _ hy _ _ =>
      cases hf a c with
      | fail hf _ =>
        exact .fail (hx.fails_bind (hy.fails_bind hf)) (hy.fails_bind (hx.fails_bind hf))
      | give hf _ _ =>
        refine .give (hx.bind (hy.bind hf)) (hy.bind (hx.bind hf)) ?_
        rw [← List.append_assoc, ← List.append_assoc]
        exact List.perm_append_comm.append_right _

theorem steady_ofExcept (result : Except Error α) : Steady (ofExcept result) := by
  cases result with
  | error e => exact .fail (fun s => ⟨e, s, rfl⟩) fun s => ⟨e, s, rfl⟩
  | ok a =>
    have h : Gives (ofExcept (.ok a)) a [] := fun s => by rw [exec_ofExcept, noted_nil]
    exact .give h h (.refl _)

theorem steady_repeated (b : Builder) (c : Cardinality) (value : Value) :
    Steady (repeated b c value) := by
  cases hresult : b.repeated c value with
  | error e =>
    have h : Fails (repeated b c value) := fun s => ⟨e, s, by rw [exec_repeated, hresult]⟩
    exact .fail h h
  | ok result =>
    have h : Gives (repeated b c value) result.1 result.2 := fun s => by
      rw [exec_repeated, hresult]
      rfl
    exact .give h h (.refl _)

theorem steady_compositional : Compositional @Steady where
  ofExcept := steady_ofExcept
  bind hx hf := Interchangeable.bind hx hf
  repeated := steady_repeated

section Within

variable {ask : Builder → Expr → Run Value} (b : Builder)

/-- Asking for an argument right where it stands. -/
theorem evalWith_bind_resolveWith {e : Expr} (he : e.isPlain) :
    evalWith ask b e >>= resolveWith ask b e = evalWith ask b e.awaited := by
  cases e with
  | call body => exact pure_bind _ _
  | saved key => cases he
  | after steps body => cases he
  | _ => exact bind_pure _

/-- Evaluating arguments and asking for the deferred ones after that comes to asking for each of
them where it stands. By induction on the arguments: what the first one is asked for is moved before
the evaluation of the others. -/
theorem evalAllWith_bind_resolveAllWith {es : List Expr} (hes : Expr.allPlain es) :
    Interchangeable (evalAllWith ask b es >>= resolveAllWith ask b es)
      (evalAllWith ask b (es.map Expr.awaited)) := by
  induction es with
  | nil =>
    have h : Gives (pure [] : Run (List Value)) [] [] := fun s => by rw [noted_nil]; rfl
    exact .give h h (.refl _)
  | cons e es ih =>
    obtain ⟨he, hes⟩ := Bool.and_eq_true_iff.mp hes
    have hsteady := steady_compositional
    have hmoved : Interchangeable (evalAllWith ask b (e :: es) >>= resolveAllWith ask b (e :: es))
        (evalWith ask b e >>= fun value => resolveWith ask b e value >>= fun asked =>
          (evalAllWith ask b es >>= resolveAllWith ask b es) >>= fun others =>
            pure (asked :: others)) := by
      simp only [evalAllWith, resolveAllWith, bind_assoc, pure_bind]
      refine Interchangeable.bind (hsteady.of_evalWith b e he) fun value => ?_
      -- neither the other values nor what the first is asked for make use of the other
      apply Steady.bind_comm (hsteady.of_evalAllWith b es hes)
        (hsteady.of_resolveWith b e he value)
      intro values asked
      exact hsteady.bind (hsteady.of_resolveAllWith b es hes values) fun _ => hsteady.pure _
    refine hmoved.trans ?_
    rw [← bind_assoc, evalWith_bind_resolveWith b he, List.map_cons]
    simp only [evalAllWith]
    refine Interchangeable.bind (hsteady.of_evalWith b _ ?_) fun asked => ?_
    · rwa [Expr.isPlain_awaited]
    · exact Interchangeable.bind (ih hes) fun _ => hsteady.pure _

/-- Arguments that are asked for where they stand may be replaced by interchangeable ones. -/
theorem arguments_alike {es es' : List Expr} (hes : Expr.allPlain es) (hes' : Expr.allPlain es')
    (h : Interchangeable (evalAllWith ask b (es'.map Expr.awaited))
      (evalAllWith ask b (es.map Expr.awaited))) (make : List Value → Except Error Value) :
    Interchangeable
      (evalAllWith ask b es' >>= fun values => resolveAllWith ask b es' values >>= fun asked =>
        ofExcept (make asked))
      (evalAllWith ask b es >>= fun values => resolveAllWith ask b es values >>= fun asked =>
        ofExcept (make asked)) := by
  rw [← bind_assoc, ← bind_assoc]
  refine Interchangeable.bind ?_ fun _ => steady_ofExcept _
  apply (evalAllWith_bind_resolveAllWith b hes').trans
  exact h.trans (evalAllWith_bind_resolveAllWith b hes).symm

mutual

theorem defer_alike : ∀ e, e.isPlain → ∀ chosen,
    Interchangeable (evalWith ask b (e.defer chosen)) (evalWith ask b e)
  | .sequence arguments, h, chosen =>
      arguments_alike b h (by rwa [Expr.allPlain_deferAll]) (deferAll_alike arguments h 0 chosen) _
  | .oneOf arguments, h, chosen =>
      arguments_alike b h (by rwa [Expr.allPlain_deferAll]) (deferAll_alike arguments h 0 chosen) _
  | .repeated c body, h, chosen =>
      Interchangeable.bind (defer_alike body h chosen) fun _ => steady_repeated b c _
  | .literal _, h, _ | .ref _, h, _ | .range _, h, _ | .call _, h, _ | .raw _, h, _
  | .bare _, h, _ => steady_compositional.of_evalWith b _ h
  | .saved _, h, _ => nomatch h
  | .after _ _, h, _ => nomatch h
termination_by e => sizeOf e

theorem deferAll_alike : ∀ es, Expr.allPlain es → ∀ i chosen,
    Interchangeable (evalAllWith ask b ((Expr.deferAll es i chosen).map Expr.awaited))
      (evalAllWith ask b (es.map Expr.awaited))
  | [], h, _, _ => steady_compositional.of_evalAllWith b [] h
  | e :: es, h, i, chosen => by
      obtain ⟨he, hes⟩ := Bool.and_eq_true_iff.mp h
      rw [Expr.map_awaited_deferAll_cons, List.map_cons]
      simp only [evalAllWith]
      refine Interchangeable.bind (defer_alike e.awaited ?_ _) fun _ => ?_
      · rwa [Expr.isPlain_awaited]
      · refine Interchangeable.bind (deferAll_alike es hes (i + 1) chosen) fun _ => ?_
        exact steady_compositional.pure _
termination_by es => sizeOf es
decreasing_by
  all_goals
    have := e.sizeOf_awaited_le
    simp only [List.cons.sizeOf_spec]
    omega

end

end Within

/-- Whichever arguments are deferred, the whole expression gives a value if and only if it does so
with none of them deferred. The value is the same, and the same warnings are given, each as often,
though perhaps in another order. -/
theorem deferred_arguments_change_order_alone (b : Builder) (e : Expr) (he : e.isPlain)
    (chosen : List Nat → Bool) (s : Session) :
    ((s.exec (eval b (e.defer chosen))).1.isOk = (s.exec (eval b e)).1.isOk) ∧
    ∀ v s', s.exec (eval b e) = (.ok v, s') → ∃ events events', s' = s.noted events ∧
      s.exec (eval b (e.defer chosen)) = (.ok v, s.noted events') ∧ events'.Perm events := by
  have h : Interchangeable (eval b (e.defer chosen)) (eval b e) := defer_alike b e he chosen
  cases h with
  | fail hx hy =>
    obtain ⟨error, s₁, h₁⟩ := hx s
    obtain ⟨error', s₂, h₂⟩ := hy s
    rw [h₁, h₂]
    refine ⟨rfl, fun v s' h => ?_⟩
    cases h
  | @give a events' events hx hy hperm =>
    rw [hx s, hy s]
    refine ⟨rfl, fun v s' h => ?_⟩
    cases h
    exact ⟨events, events', rfl, rfl, hperm⟩

def signedDigits : Expr :=
  .sequence [.repeated .optional (.repeated .oneOrMore (.ref "sign")), .call (.literal "."),
    .oneOf [.literal "0", .repeated .zeroOrMore (.range "[0-9]+")]]

/-- With its first argument deferred, the sequence warns of the digits before the sign. -/
theorem sign_of_signedDigits_deferred :
    let b : Builder := { rule := some "number" }
    let sign := Event.cardinalityReplaced .oneOrMore .optional b.rule
    let digits := Event.cardinalityReplaced .oneOrMore .zeroOrMore b.rule
    let v := Value.part (.sequence [.ref "sign" (some .optional), .literal ".",
      .oneOf [.literal "0", .range "[0-9]" (some .zeroOrMore)] none] none)
    signedDigits.defer (· = [0]) = .sequence
      [.call (.repeated .optional (.repeated .oneOrMore (.ref "sign"))), .call (.literal "."),
        .oneOf [.literal "0", .repeated .zeroOrMore (.range "[0-9]+")]] ∧
    Session.exec {} (eval b signedDigits) = (.ok v, { events := [sign, digits] }) ∧
    Session.exec {} (eval b (signedDigits.defer (· = [0]))) =
      (.ok v, { events := [digits, sign] }) ∧
    [digits, sign].Perm [sign, digits] := by
  intro b sign digits v
  have hplain : Session.exec {} (eval b signedDigits) = (.ok v, { events := [sign, digits] }) := by
    cbv
  have hdeferred : Session.exec {} (eval b (signedDigits.defer (· = [0]))) =
      (.ok v, { events := [digits, sign] }) := by
    cbv
  obtain ⟨events, events', hs, hs', hperm⟩ :=
    (deferred_arguments_change_order_alone b signedDigits rfl (· = [0]) {}).2 _ _ hplain
  refine ⟨by cbv, hplain, hdeferred, ?_⟩
  have hevents : events = [sign, digits] := (congrArg Session.events hs).symm
  have hevents' : events' = [digits, sign] :=
    (congrArg (fun result => result.2.events) (hdeferred.symm.trans hs')).symm
  rwa [hevents, hevents'] at hperm

end Session
end GrammarRules
