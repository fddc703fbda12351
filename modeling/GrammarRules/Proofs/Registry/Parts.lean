import Mathlib
import GrammarRules.Registry

/-!
# Registries of parts

Where all values of a registry are parts, it can be written and its references can be collected
without fail. `Registry.ofParts` is such a registry, `Registry.mentions` lists the names its parts
refer to, and `Registry.Closed` says that each of them is written like some name of the registry.
-/

namespace GrammarRules.Registry

variable {rules : List (String × Part)}

def ofParts (rules : List (String × Part)) : Registry :=
  ⟨rules.map fun (name, p) => (name, .part p)⟩

@[simp] theorem names_ofParts : (ofParts rules).names = rules.map Prod.fst := by
  simp [ofParts, names, Function.comp_def]

theorem put_ofParts {name : String} (h : name ∉ rules.map Prod.fst) (p : Part) :
    (ofParts rules).put name (.part p) = ofParts (rules ++ [(name, p)]) := by
  refine congrArg Registry.mk ?_
  simp only [ofParts]
  induction rules with
  | nil => rfl
  | cons rule rules ih =>
    obtain ⟨hname, hrules⟩ := List.ne_and_not_mem_of_not_mem_cons h
    simp only [List.map_cons, List.cons_append, putEntry, if_neg hname.symm, ih hrules]

def line (mode : Mode) (rule : String × Part) : String :=
  Name.token mode rule.1 ++ mode.operator ++ rule.2.render mode

theorem definitions_ofParts (mode : Mode) :
    definitions mode (ofParts rules).entries = .ok (rules.map (line mode)) := by
  induction rules with
  | nil => rfl
  | cons rule rules ih =>
    obtain ⟨name, p⟩ := rule
    simp only [ofParts] at ih
    simp only [ofParts, List.map_cons, definitions, ih]
    rfl

theorem render_ofParts (mode : Mode) :
    (ofParts rules).render mode = .ok ("\n".intercalate (rules.map (line mode))) := by
  rw [render, definitions_ofParts]
  rfl

/-- Whatever can be written holds parts alone. -/
theorem exists_ofParts_of_definitions {mode : Mode} {entries : List (String × Value)}
    {lines : List String} (h : definitions mode entries = .ok lines) :
    ∃ rules, entries = (ofParts rules).entries := by
  induction entries generalizing lines with
  | nil => exact ⟨[], rfl⟩
  | cons entry entries ih =>
    obtain ⟨name, value⟩ := entry
    cases value with
    | part p =>
      cases hrest : definitions mode entries with
      | error e =>
        simp only [definitions, hrest] at h
        cases h
      | ok rest =>
        obtain ⟨rules, rfl⟩ := ih hrest
        exact ⟨(name, p) :: rules, rfl⟩
    | bare c => cases h
    | data d => cases h
    | deferred body => cases h

theorem exists_ofParts_of_render {r : Registry} {mode : Mode} {text : String}
    (h : r.render mode = .ok text) : ∃ rules, r = ofParts rules := by
  rw [render] at h
  cases hlines : definitions mode r.entries with
  | error e =>
    rw [hlines] at h
    cases h
  | ok lines =>
    obtain ⟨rules, hrules⟩ := exists_ofParts_of_definitions hlines
    exact ⟨rules, congrArg Registry.mk hrules⟩

/-- The references of one rule that stand for none of the tokens in `defined`. -/
def missing (defined : List String) (rule : String × Part) : List (String × String) :=
  (rule.2.refs.filter fun ref => !defined.contains (Name.token .gbnf ref.name)).map
    fun ref => (rule.1, ref.name)

theorem missing_congr {defined defined' : List String} (h : ∀ t, t ∈ defined ↔ t ∈ defined') :
    missing defined = missing defined' := by
  funext rule
  simp only [missing, List.contains_eq_mem, h]

theorem danglingIn_ofParts (defined : List String) :
    danglingIn defined (ofParts rules).entries = .ok (rules.flatMap (missing defined)) := by
  induction rules with
  | nil => rfl
  | cons rule rules ih =>
    obtain ⟨name, p⟩ := rule
    simp only [ofParts] at ih
    simp only [ofParts, List.map_cons, danglingIn, ih]
    rfl

theorem dangling_ofParts :
    (ofParts rules).dangling = .ok (rules.flatMap (missing (ofParts rules).tokens)) :=
  danglingIn_ofParts _

def mentions (rules : List (String × Part)) : List String :=
  rules.flatMap fun rule => rule.2.refs.map Ref.name

def occurrences (rules : List (String × Part)) : List (String × String) :=
  rules.flatMap fun rule => rule.2.refs.map fun ref => (rule.1, ref.name)

theorem flatMap_missing (defined : List String) : rules.flatMap (missing defined) =
    (occurrences rules).filter fun pair => !defined.contains (Name.token .gbnf pair.2) := by
  rw [occurrences, List.filter_flatMap]
  refine List.flatMap_congr fun rule _ => ?_
  rw [missing, List.filter_map]
  rfl

theorem mentions_eq_map_occurrences : mentions rules = (occurrences rules).map Prod.snd := by
  rw [mentions, occurrences, List.map_flatMap]
  simp only [List.map_map]
  rfl

/-- Every token that the parts mention is the token of a rule. -/
def Closed (mode : Mode) (rules : List (String × Part)) : Prop :=
  ∀ name ∈ mentions rules,
    ∃ key ∈ rules.map Prod.fst, Name.token mode key = Name.token mode name

instance (mode : Mode) (rules : List (String × Part)) : Decidable (Closed mode rules) :=
  inferInstanceAs (Decidable (∀ name ∈ mentions rules,
    ∃ key ∈ rules.map Prod.fst, Name.token mode key = Name.token mode name))

theorem mem_tokens_ofParts (token : String) :
    token ∈ (ofParts rules).tokens ↔ ∃ key ∈ rules.map Prod.fst, Name.token .gbnf key = token := by
  rw [tokens, names_ofParts, List.mem_map]

theorem closed_gbnf_iff : Closed .gbnf rules ↔
    ∀ token ∈ (mentions rules).map (Name.token .gbnf), token ∈ (ofParts rules).tokens := by
  rw [List.forall_mem_map]
  exact forall₂_congr fun name _ => (mem_tokens_ofParts _).symm

theorem flatMap_missing_eq_nil_iff :
    rules.flatMap (missing (ofParts rules).tokens) = [] ↔ Closed .gbnf rules := by
  rw [flatMap_missing, List.filter_eq_nil_iff, closed_gbnf_iff, mentions_eq_map_occurrences,
    List.map_map, List.forall_mem_map]
  simp

end GrammarRules.Registry
