import GrammarRules.Proofs.Console.Printed

/-!
# Terminal control sequences

A control sequence is an escape and a bracket, parameters, and a letter. What is put out is the text
without the first control sequence and all that follow it, so a text is put out as it is exactly if
there is no control sequence in it.
-/

namespace GrammarRules.Console

def isParameter (c : Char) : Bool := c.isDigit || c = ';' || c = '?'

def IsSequence (cs : List Char) : Prop :=
  ∃ parameters c, cs = '\x1b' :: '[' :: (parameters ++ [c]) ∧
    (∀ d ∈ parameters, isParameter d) ∧ endsSequence c

def HoldsSequence (cs : List Char) : Prop := ∃ found, IsSequence found ∧ found <:+: cs

theorem afterSequence?_cons (c : Char) (cs : List Char) : afterSequence? (c :: cs) =
    if isParameter c then afterSequence? cs else if endsSequence c then some cs else none := by
  rw [afterSequence?, isParameter]

theorem not_isParameter_of_endsSequence {c : Char} (h : endsSequence c) : ¬ isParameter c := by
  intro hparameter
  simp only [isParameter, Bool.or_eq_true, decide_eq_true_eq] at hparameter
  rcases hparameter with (hdigit | rfl) | rfl
  · simp only [endsSequence, Char.isAlpha, Char.isUpper, Char.isLower, Char.isDigit,
      Bool.or_eq_true, Bool.and_eq_true, decide_eq_true_eq, ge_iff_le,
      UInt32.le_iff_toNat_le] at h hdigit
    -- the digits come before the letters
    change 48 ≤ c.val.toNat ∧ c.val.toNat ≤ 57 at hdigit
    change 65 ≤ c.val.toNat ∧ c.val.toNat ≤ 90 ∨ 97 ≤ c.val.toNat ∧ c.val.toNat ≤ 122 at h
    omega
  · exact absurd h (by decide)
  · exact absurd h (by decide)

/-- What follows a control sequence is what stands behind its parameters and its letter. -/
theorem afterSequence?_eq_some_iff {cs back : List Char} :
    afterSequence? cs = some back ↔ ∃ parameters c, cs = parameters ++ c :: back ∧
      (∀ d ∈ parameters, isParameter d) ∧ endsSequence c := by
  induction cs with
  | nil => simp [afterSequence?]
  | cons d cs ih =>
    rw [afterSequence?_cons]
    by_cases hd : isParameter d
    · rw [if_pos hd, ih]
      constructor
      · rintro ⟨parameters, c, rfl, hparameters, hc⟩
        exact ⟨d :: parameters, c, rfl, List.forall_mem_cons.mpr ⟨hd, hparameters⟩, hc⟩
      · rintro ⟨parameters, c, heq, hparameters, hc⟩
        cases parameters with
        | nil =>
          obtain ⟨rfl, -⟩ := List.cons.inj heq
          exact absurd hd (not_isParameter_of_endsSequence hc)
        | cons e parameters =>
          obtain ⟨rfl, rfl⟩ := List.cons.inj heq
          exact ⟨parameters, c, rfl, (List.forall_mem_cons.mp hparameters).2, hc⟩
    · rw [if_neg hd]
      constructor
      · intro h
        split at h
        · next hc =>
          cases h
          exact ⟨[], d, rfl, List.forall_mem_nil _, hc⟩
        · cases h
      · rintro ⟨parameters, c, heq, hparameters, hc⟩
        cases parameters with
        | nil =>
          obtain ⟨rfl, rfl⟩ := List.cons.inj heq
          rw [if_pos hc]
        | cons e parameters =>
          obtain ⟨rfl, -⟩ := List.cons.inj heq
          exact absurd (List.forall_mem_cons.mp hparameters).1 hd

/-- A text starts with a control sequence if it goes on after an escape and a bracket. -/
theorem exists_isSequence_prefix_iff {c : Char} {cs : List Char} :
    (∃ found, IsSequence found ∧ found <+: c :: cs) ↔
      c = '\x1b' ∧ ∃ inside back, cs = '[' :: inside ∧ afterSequence? inside = some back := by
  constructor
  · rintro ⟨found, ⟨parameters, d, rfl, hparameters, hd⟩, back, heq⟩
    obtain ⟨rfl, rfl⟩ := List.cons.inj heq
    refine ⟨rfl, parameters ++ d :: back, back, by simp, ?_⟩
    exact afterSequence?_eq_some_iff.mpr ⟨parameters, d, rfl, hparameters, hd⟩
  · rintro ⟨rfl, inside, back, rfl, hafter⟩
    obtain ⟨parameters, d, rfl, hsequence⟩ := afterSequence?_eq_some_iff.mp hafter
    exact ⟨_, ⟨parameters, d, rfl, hsequence⟩, back, by simp⟩

theorem holdsSequence_cons_iff {c : Char} {cs : List Char} : HoldsSequence (c :: cs) ↔
    (c = '\x1b' ∧ ∃ inside back, cs = '[' :: inside ∧ afterSequence? inside = some back) ∨
      HoldsSequence cs := by
  simp only [HoldsSequence, List.infix_cons_iff, and_or_left, exists_or,
    exists_isSequence_prefix_iff]

theorem not_holdsSequence_nil : ¬ HoldsSequence [] := by
  rintro ⟨found, ⟨parameters, c, rfl, -⟩, hfound⟩
  exact absurd (List.infix_nil.mp hfound) (List.cons_ne_nil _ _)

/-- A text without an escape holds no control sequence. -/
theorem escape_mem_of_holdsSequence {cs : List Char} (h : HoldsSequence cs) : '\x1b' ∈ cs := by
  obtain ⟨found, ⟨parameters, c, rfl, -⟩, hfound⟩ := h
  exact hfound.mem List.mem_cons_self

theorem length_withoutSequences_le (cs : List Char) : (withoutSequences cs).length ≤ cs.length := by
  fun_induction withoutSequences cs with
  | case1 => exact le_rfl
  | case2 cs rest hafter hlength ih =>
    simp only [List.length_cons]
    omega
  | case3 cs hafter ih => simpa using ih
  | case4 c cs _ ih => simpa using ih

/-- A text loses nothing exactly if it holds no control sequence. -/
theorem withoutSequences_eq_self_iff (cs : List Char) :
    withoutSequences cs = cs ↔ ¬ HoldsSequence cs := by
  fun_induction withoutSequences cs with
  | case1 => simp [not_holdsSequence_nil]
  | case2 cs rest hafter hlength ih =>
    have hshorter := length_withoutSequences_le rest
    have hholds : HoldsSequence ('\x1b' :: '[' :: cs) :=
      holdsSequence_cons_iff.mpr (Or.inl ⟨rfl, cs, rest, rfl, hafter⟩)
    refine iff_of_false (fun heq => ?_) (not_not_intro hholds)
    have hlength' := congrArg List.length heq
    simp only [List.length_cons] at hlength'
    omega
  | case3 cs hafter ih =>
    rw [List.cons_inj_right, ih, @holdsSequence_cons_iff '\x1b']
    simp [hafter]
  | case4 c cs hstart ih =>
    rw [List.cons_inj_right, ih, holdsSequence_cons_iff]
    have hno : ¬ (c = '\x1b' ∧ ∃ inside back, cs = '[' :: inside ∧
        afterSequence? inside = some back) := by
      rintro ⟨rfl, inside, back, rfl, -⟩
      exact hstart inside rfl rfl
    rw [or_iff_right hno]

/-- A text is put out as it is, with a line feed after it, exactly if it holds no control
sequence. -/
theorem echo_eq_iff (text : String) :
    echo text = text ++ "\n" ↔ ¬ HoldsSequence text.toList := by
  rw [echo, ofList_concat_feed_eq_iff, withoutSequences_eq_self_iff]

end GrammarRules.Console
