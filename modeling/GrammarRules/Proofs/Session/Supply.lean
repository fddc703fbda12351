import GrammarRules.Proofs.Part.RangeLiteral
import GrammarRules.Session

/-!
# What expressions are made of

A `Supply` limits what expressions and steps may take from outside the combinators. The values of
limited expressions are sound: a deferred expression is limited in the same way, and where nothing
foreign is supplied, a value is a well-formed part or a deferred expression. The combinators make
sound values of sound values.
-/

namespace GrammarRules

/-- What is supplied to expressions from outside the combinators. -/
structure Supply where
  /-- Whether values may be given that the combinators do not make. -/
  foreign : Bool := true
  /-- The builders that rules may be made with apart from the grammar. -/
  builder : Builder → Bool := fun _ => true

mutual

def Expr.madeOf (supply : Supply) : Expr → Bool
  | .literal _ | .ref _ | .range _ | .saved _ => true
  | .raw _ | .bare _ => supply.foreign
  | .sequence arguments | .oneOf arguments => Expr.allMadeOf supply arguments
  | .repeated _ body | .call body => body.madeOf supply
  | .after steps body => Step.allMadeOf supply steps && body.madeOf supply
termination_by structural e => e

def Expr.allMadeOf (supply : Supply) : List Expr → Bool
  | [] => true
  | e :: es => e.madeOf supply && Expr.allMadeOf supply es
termination_by structural es => es

def Step.madeOf (supply : Supply) : Step → Bool
  | .define _ rule | .root rule => rule.madeOf supply
  | .build _ | .dangling | .rules => true
  | .save _ b rule => supply.builder b && rule.madeOf supply
termination_by structural step => step

def Step.allMadeOf (supply : Supply) : List Step → Bool
  | [] => true
  | step :: steps => step.madeOf supply && Step.allMadeOf supply steps
termination_by structural steps => steps

end

mutual

/-- A supply without limits limits nothing. -/
theorem Expr.madeOf_unlimited : ∀ e : Expr, e.madeOf {} = true
  | .literal _ | .ref _ | .range _ | .saved _ | .raw _ | .bare _ => rfl
  | .sequence arguments | .oneOf arguments => Expr.allMadeOf_unlimited arguments
  | .repeated _ body | .call body => body.madeOf_unlimited
  | .after steps body =>
      Bool.and_eq_true_iff.mpr ⟨Step.allMadeOf_unlimited steps, body.madeOf_unlimited⟩
termination_by structural e => e

theorem Expr.allMadeOf_unlimited : ∀ es : List Expr, Expr.allMadeOf {} es = true
  | [] => rfl
  | e :: es => Bool.and_eq_true_iff.mpr ⟨e.madeOf_unlimited, Expr.allMadeOf_unlimited es⟩
termination_by structural es => es

theorem Step.madeOf_unlimited : ∀ step : Step, step.madeOf {} = true
  | .define _ rule | .root rule => rule.madeOf_unlimited
  | .build _ | .dangling | .rules => rfl
  | .save _ _ rule => rule.madeOf_unlimited
termination_by structural step => step

theorem Step.allMadeOf_unlimited : ∀ steps : List Step, Step.allMadeOf {} steps = true
  | [] => rfl
  | step :: steps =>
      Bool.and_eq_true_iff.mpr ⟨step.madeOf_unlimited, Step.allMadeOf_unlimited steps⟩
termination_by structural steps => steps

end

namespace Value

/-- What holds of the values of expressions made of `supply`. -/
def Sound (supply : Supply) : Value → Prop
  | .part p => supply.foreign = false → p.WellFormed
  | .bare _ | .data _ => supply.foreign
  | .deferred body => body.madeOf supply

variable {supply : Supply} {values : List Value} {v : Value}

theorem sound_unlimited (v : Value) : v.Sound {} := by
  cases v with
  | part p => exact fun h => nomatch h
  | bare c => rfl
  | data d => rfl
  | deferred body => exact body.madeOf_unlimited

theorem sound_ofData (h : supply.foreign) (d : Data) : (ofData d).Sound supply := by
  cases d with
  | text s => exact fun _ => Part.wellFormed_literal s
  | _ => exact h

/-- Where nothing foreign is supplied, only parts are accepted in a sequence or a choice, and they
are the values that were given. -/
theorem wellFormed_of_asParts (hforeign : supply.foreign = false)
    (hvalues : ∀ v ∈ values, v.Sound supply) {place : Nat} {parts : List Part}
    (h : asParts place values = .ok parts) : ∀ p ∈ parts, p.WellFormed := by
  induction values generalizing place parts with
  | nil =>
    cases h
    exact List.forall_mem_nil _
  | cons v values ih =>
    obtain ⟨hv, hvalues⟩ := List.forall_mem_cons.mp hvalues
    rw [asParts, Checked.map₂_eq_ok_iff] at h
    obtain ⟨p, ps, hp, hps, rfl⟩ := h
    rw [Checked.under_eq_ok_iff] at hp
    refine List.forall_mem_cons.mpr ⟨?_, ih hvalues hps⟩
    cases v with
    | part q =>
      cases hp
      exact hv hforeign
    | bare c => exact absurd hv (by simp [Sound, hforeign])
    | data d => exact absurd hv (by simp [Sound, hforeign])
    | deferred body => cases hp

end Value

namespace Builder

variable {supply : Supply} {b : Builder} {values : List Value} {v : Value}

theorem sound_sequence (hvalues : ∀ v ∈ values, v.Sound supply) (h : sequence values = .ok v) :
    v.Sound supply := by
  rw [sequence] at h
  split at h
  · next parts hparts =>
    cases h
    exact fun hforeign => Part.wellFormed_sequence_iff.mpr
      (Value.wellFormed_of_asParts hforeign hvalues (Checked.under_eq_ok_iff.mp hparts))
  · cases h

theorem sound_oneOf (hvalues : ∀ v ∈ values, v.Sound supply) (h : oneOf values = .ok v) :
    v.Sound supply := by
  rw [oneOf] at h
  split at h
  · next options hoptions =>
    cases h
    exact fun hforeign => Part.wellFormed_oneOf_iff.mpr
      (Value.wellFormed_of_asParts hforeign hvalues (Checked.under_eq_ok_iff.mp hoptions))
  · cases h

theorem sound_ref {name : String} (h : b.ref name = .ok v) : v.Sound supply := by
  rw [ref] at h
  split at h
  · cases h
  · next hblank =>
    cases h
    exact fun _ => Part.wellFormed_ref_iff.mpr fun mode =>
      Name.token_ne_empty mode (Bool.eq_false_iff.mpr hblank)

theorem sound_range {text : String} (h : b.range text = .ok v) : v.Sound supply := by
  obtain ⟨pattern, c, rfl, hpattern, -⟩ := range_eq_ok_iff.mp h
  exact fun _ => Part.wellFormed_range_iff.mpr hpattern

/-- A cardinality changes nothing that soundness asks for. -/
theorem sound_repeated {c : Cardinality} (hv : v.Sound supply) {result : Value × List Event}
    (h : b.repeated c v = .ok result) : result.1.Sound supply := by
  cases v with
  | part p =>
    cases p with
    | literal text => cases h
    | sequence parts old =>
      cases h
      exact fun hforeign => Part.wellFormed_sequence_iff.mpr
        (Part.wellFormed_sequence_iff.mp (hv hforeign))
    | oneOf options old =>
      cases h
      exact fun hforeign => Part.wellFormed_oneOf_iff.mpr
        (Part.wellFormed_oneOf_iff.mp (hv hforeign))
    | ref name old =>
      cases h
      exact fun hforeign => Part.wellFormed_ref_iff.mpr
        (Part.wellFormed_ref_iff.mp (hv hforeign))
    | range pattern old =>
      cases h
      exact fun hforeign => Part.wellFormed_range_iff.mpr
        (Part.wellFormed_range_iff.mp (hv hforeign))
  | bare old =>
    cases h
    exact hv
  | data d => cases h
  | deferred body => cases h

end Builder
end GrammarRules
