import GrammarRules.Proofs.Grammar.Closed
import GrammarRules.Proofs.Part.Readable

/-!
# Other spellings of the same names

A name may be spelled anew if its words stay, in lower case, and if it is the name of the root
exactly if it was. Rules whose names are spelled anew, each key and each reference on its own, are
written as the same text in either notation. The same references dangle, and the grammar is built as
it was before.
-/

namespace GrammarRules

structure Name.Respelled (old new : String) : Prop where
  kebab_eq : Name.kebab old = Name.kebab new
  root_iff : old = Name.root ↔ new = Name.root

theorem Name.Respelled.token_eq {old new : String} (h : Respelled old new) (mode : Mode) :
    token mode old = token mode new := by
  have hnormal : normalize mode old = normalize mode new := by
    rw [normalize_eq_iff, ← normalize_eq_iff .gbnf]
    exact h.kebab_eq
  by_cases hold : old = root
  · rw [hold, h.root_iff.mp hold]
  · rw [token, token, if_neg hold, if_neg (mt h.root_iff.mpr hold), hnormal]

theorem map_eq_map_of_forall₂ {α β γ : Type} {f : α → γ} {g : β → γ} {items : List α}
    {items' : List β} (h : List.Forall₂ (fun a b => f a = g b) items items') :
    items.map f = items'.map g := by
  rw [← List.forall₂_eq_eq_eq, List.forall₂_map_left_iff, List.forall₂_map_right_iff]
  exact h

namespace Part

/-- The same part with its references spelled anew, each on its own. -/
inductive Respelled : Part → Part → Prop
  | literal (text : String) : Respelled (.literal text) (.literal text)
  | sequence {parts parts' : List Part} (c : Option Cardinality)
      (h : List.Forall₂ Respelled parts parts') : Respelled (.sequence parts c) (.sequence parts' c)
  | oneOf {options options' : List Part} (c : Option Cardinality)
      (h : List.Forall₂ Respelled options options') :
      Respelled (.oneOf options c) (.oneOf options' c)
  | ref {name name' : String} (c : Option Cardinality) (h : Name.Respelled name name') :
      Respelled (.ref name c) (.ref name' c)
  | range (pattern : String) (c : Option Cardinality) :
      Respelled (.range pattern c) (.range pattern c)

namespace Respelled

variable {p q : Part}

/-- What holds at the leaves, and at a node if it holds of its parts one by one, holds of all. -/
@[elab_as_elim]
theorem tree_induction {P : Part → Part → Prop}
    (literal : ∀ text, P (.literal text) (.literal text))
    (sequence : ∀ parts parts' c, List.Forall₂ P parts parts' →
      P (.sequence parts c) (.sequence parts' c))
    (oneOf : ∀ options options' c, List.Forall₂ P options options' →
      P (.oneOf options c) (.oneOf options' c))
    (ref : ∀ name name' c, Name.Respelled name name' → P (.ref name c) (.ref name' c))
    (range : ∀ pattern c, P (.range pattern c) (.range pattern c)) (h : Respelled p q) : P p q :=
  @Respelled.rec (fun p q _ => P p q) (fun parts parts' _ => List.Forall₂ P parts parts') literal
    (fun c _ ih => sequence _ _ c ih) (fun c _ ih => oneOf _ _ c ih)
    (fun c h => ref _ _ c h) range .nil (fun _ _ hp hps => .cons hp hps) p q h

theorem chars_eq (h : Respelled p q) (mode : Mode) : p.chars mode = q.chars mode := by
  refine tree_induction (P := fun p q => p.chars mode = q.chars mode) ?literal ?sequence ?oneOf
    ?ref ?range h
  case literal => exact fun _ => rfl
  case sequence =>
    intro parts parts' c ih
    have hparts : charsOfAll mode parts = charsOfAll mode parts' := by
      rw [charsOfAll_eq_map, charsOfAll_eq_map, map_eq_map_of_forall₂ ih]
    cases c <;> rw [chars, chars, hparts]
  case oneOf =>
    intro options options' c ih
    have hoptions : charsOfAll mode options = charsOfAll mode options' := by
      rw [charsOfAll_eq_map, charsOfAll_eq_map, map_eq_map_of_forall₂ ih]
    rw [chars, chars, hoptions]
  case ref =>
    intro name name' c hname
    rw [chars, chars, hname.token_eq mode]
  case range => exact fun _ _ => rfl

theorem render_eq (h : Respelled p q) (mode : Mode) : p.render mode = q.render mode := by
  rw [render, render, h.chars_eq mode]

theorem forall₂_refs (h : Respelled p q) :
    List.Forall₂ (fun ref ref' : Ref => Name.Respelled ref.name ref'.name) p.refs q.refs := by
  let Refs := fun p q : Part =>
    List.Forall₂ (fun ref ref' : Ref => Name.Respelled ref.name ref'.name) p.refs q.refs
  have hall : ∀ parts parts', List.Forall₂ Refs parts parts' →
      List.Forall₂ (fun ref ref' : Ref => Name.Respelled ref.name ref'.name)
        (refsOfAll parts) (refsOfAll parts') := by
    intro parts parts' ih
    rw [refsOfAll_eq_flatMap, refsOfAll_eq_flatMap]
    exact List.rel_flatMap ih fun _ _ h => h
  refine tree_induction (P := Refs) ?literal ?sequence ?oneOf ?ref ?range h
  case literal => exact fun _ => .nil
  case sequence => exact fun parts parts' _ ih => hall parts parts' ih
  case oneOf => exact fun options options' _ ih => hall options options' ih
  case ref => exact fun _ _ _ hname => .cons hname .nil
  case range => exact fun _ _ => .nil

end Respelled
end Part

namespace Registry

variable {rules rules' : List (String × Part)}

def Respelled (rules rules' : List (String × Part)) : Prop :=
  List.Forall₂ (fun rule rule' => Name.Respelled rule.1 rule'.1 ∧ Part.Respelled rule.2 rule'.2)
    rules rules'

def flagged {α : Type} (flags : List Bool) (items : List α) : List α :=
  ((flags.zip items).filter Prod.fst).map Prod.snd

theorem flagged_map {α : Type} (f : α → Bool) (items : List α) :
    flagged (items.map f) items = items.filter f := by
  induction items with
  | nil => rfl
  | cons a items ih =>
    rw [flagged] at ih
    cases ha : f a <;> simp [flagged, ha, ih]

namespace Respelled

theorem map_line_eq (h : Respelled rules rules') (mode : Mode) :
    rules.map (line mode) = rules'.map (line mode) := by
  refine map_eq_map_of_forall₂ (h.imp fun rule rule' hrule => ?_)
  rw [line, line, hrule.1.token_eq mode, hrule.2.render_eq mode]

theorem tokens_eq (h : Respelled rules rules') :
    (ofParts rules).tokens = (ofParts rules').tokens := by
  rw [tokens, tokens, names_ofParts, names_ofParts, List.map_map, List.map_map]
  exact map_eq_map_of_forall₂ (h.imp fun _ _ hrule => hrule.1.token_eq .gbnf)

theorem forall₂_occurrences (h : Respelled rules rules') :
    List.Forall₂ (fun pair pair' => Name.Respelled pair.1 pair'.1 ∧ Name.Respelled pair.2 pair'.2)
      (occurrences rules) (occurrences rules') := by
  refine List.rel_flatMap h fun rule rule' hrule => ?_
  rw [List.forall₂_map_left_iff, List.forall₂_map_right_iff]
  exact hrule.2.forall₂_refs.imp fun _ _ href => ⟨hrule.1, href⟩

theorem root_mem_iff (h : Respelled rules rules') :
    Name.root ∈ rules.map Prod.fst ↔ Name.root ∈ rules'.map Prod.fst := by
  induction h with
  | nil => rfl
  | cons hrule _ ih =>
    rw [List.map_cons, List.map_cons, List.mem_cons, List.mem_cons, ih, eq_comm,
      hrule.1.root_iff, eq_comm]

/-- References are told to dangle or not by their tokens, which stay. -/
theorem exists_flags (h : Respelled rules rules') :
    ∃ flags, flags.length = (occurrences rules).length ∧
      (ofParts rules).dangling = .ok (flagged flags (occurrences rules)) ∧
      (ofParts rules').dangling = .ok (flagged flags (occurrences rules')) := by
  let dangles := fun pair : String × String =>
    !(ofParts rules).tokens.contains (Name.token .gbnf pair.2)
  have hflags : (occurrences rules).map dangles = (occurrences rules').map dangles :=
    map_eq_map_of_forall₂ (h.forall₂_occurrences.imp fun pair pair' hpair => by
      simp only [dangles, hpair.2.token_eq .gbnf])
  refine ⟨(occurrences rules).map dangles, List.length_map _, ?_, ?_⟩
  · rw [dangling_ofParts, flatMap_missing, flagged_map]
  · rw [dangling_ofParts, flatMap_missing, hflags, flagged_map, ← h.tokens_eq]

theorem closed_iff (h : Respelled rules rules') : Closed .gbnf rules ↔ Closed .gbnf rules' := by
  have hmentions : (mentions rules).map (Name.token .gbnf) =
      (mentions rules').map (Name.token .gbnf) := by
    rw [mentions_eq_map_occurrences, mentions_eq_map_occurrences, List.map_map, List.map_map]
    exact map_eq_map_of_forall₂
      (h.forall₂_occurrences.imp fun _ _ hpair => hpair.2.token_eq .gbnf)
  rw [closed_gbnf_iff, closed_gbnf_iff, hmentions, h.tokens_eq]

end Respelled
end Registry

namespace Grammar

open Registry

/-- Rules whose keys and references are spelled anew are written as the same text in either
notation, the references that dangle stand in the same places, and building gives the same texts. -/
theorem render_dangling_build_of_respelled (o : Options) (rules rules' : List (String × Part))
    (h : Registry.Respelled rules rules') :
    (∀ mode, (ofParts rules).render mode = (ofParts rules').render mode) ∧
    (List.Forall₂ (fun pair pair' => Name.Respelled pair.1 pair'.1 ∧ Name.Respelled pair.2 pair'.2)
        (occurrences rules) (occurrences rules') ∧
      ∃ flags, flags.length = (occurrences rules).length ∧
        (ofParts rules).dangling = .ok (flagged flags (occurrences rules)) ∧
        (ofParts rules').dangling = .ok (flagged flags (occurrences rules'))) ∧
    ∀ mode? text, build ⟨o, ofParts rules⟩ mode? = .ok text ↔
      build ⟨o, ofParts rules'⟩ mode? = .ok text := by
  refine ⟨fun mode => ?_, ⟨h.forall₂_occurrences, h.exists_flags⟩, fun mode? text => ?_⟩
  · rw [render_ofParts, render_ofParts, h.map_line_eq]
  · have hfinal : isFinal ⟨o, ofParts rules⟩ ↔ isFinal ⟨o, ofParts rules'⟩ := by
      rw [isFinal_iff, isFinal_iff, names_ofParts, names_ofParts]
      exact h.root_mem_iff
    rw [build, build, buildIn_eq_ok_iff rfl, buildIn_eq_ok_iff rfl, hfinal, h.closed_iff,
      h.map_line_eq]

def camelRules : List (String × Part) :=
  [("singleDigit", .range "[0-9]" none),
    (Name.root, .sequence [.ref "singleDigit" none, .oneOf [.ref "aRule" none, .ref "root" none]
      none] (some .optional))]

def snakeRules : List (String × Part) :=
  [("SINGLE_DIGIT", .range "[0-9]" none),
    (Name.root, .sequence [.ref "single_digit" none, .oneOf [.ref "a_Rule" none, .ref "root" none]
      none] (some .optional))]

theorem camelRules_built_as_snakeRules :
    Registry.Respelled camelRules snakeRules ∧
      build ⟨{ validate := false }, ofParts camelRules⟩ (some .ebnf) =
        .ok "single_digit: /[0-9]/\nstart: (single_digit (a_rule | start))?" ∧
      build ⟨{ validate := false }, ofParts snakeRules⟩ (some .ebnf) =
        .ok "single_digit: /[0-9]/\nstart: (single_digit (a_rule | start))?" := by
  have hdigit : Name.Respelled "singleDigit" "SINGLE_DIGIT" := ⟨by cbv, by decide⟩
  have hdigit' : Name.Respelled "singleDigit" "single_digit" := ⟨by cbv, by decide⟩
  have hrule : Name.Respelled "aRule" "a_Rule" := ⟨by cbv, by decide⟩
  have hroot : Name.Respelled Name.root Name.root := ⟨rfl, Iff.rfl⟩
  have hoptions : Part.Respelled (.oneOf [.ref "aRule" none, .ref "root" none] none)
      (.oneOf [.ref "a_Rule" none, .ref "root" none] none) :=
    .oneOf _ (.cons (.ref _ hrule) (.cons (.ref _ hroot) .nil))
  have h : Registry.Respelled camelRules snakeRules :=
    .cons ⟨hdigit, .range _ _⟩
      (.cons ⟨hroot, .sequence _ (.cons (.ref _ hdigit') (.cons hoptions .nil))⟩ .nil)
  have hsame := render_dangling_build_of_respelled { validate := false } camelRules snakeRules h
  have hbuild : build ⟨{ validate := false }, ofParts camelRules⟩ (some .ebnf) =
      .ok "single_digit: /[0-9]/\nstart: (single_digit (a_rule | start))?" := by cbv
  exact ⟨h, hbuild, (hsame.2.2 (some .ebnf) _).mp hbuild⟩

end Grammar
end GrammarRules
