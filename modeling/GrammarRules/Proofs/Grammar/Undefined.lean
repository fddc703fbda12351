import GrammarRules.Proofs.Grammar.Closed
import GrammarRules.Proofs.Name.Canonical
import GrammarRules.Proofs.Part.Place
import GrammarRules.Proofs.Registry.Targets

/-!
# Undefined references

A name is undefined in a registry if no name of the registry has the same words in lower case. The
references that dangle are those to undefined names, listed by their places: rule by rule, and in a
rule from left to right. Building a grammar that checks its references fails exactly if there are
any. The error lists their targets as they are spelled, sorted and each once, and blames the first
rule that holds one.
-/

namespace GrammarRules

namespace Registry

variable {rules : List (String × Part)}

/-- No rule has the words of the name, in lower case. -/
def Undefined (rules : List (String × Part)) (name : String) : Prop :=
  ∀ key ∈ rules.map Prod.fst,
    (Name.words key).map String.toLower ≠ (Name.words name).map String.toLower

theorem undefined_iff {name : String} :
    Undefined rules name ↔ Name.token .gbnf name ∉ (ofParts rules).tokens := by
  have hsame : ∀ key, Name.token .gbnf key = Name.token .gbnf name ↔
      (Name.words key).map String.toLower = (Name.words name).map String.toLower := by
    intro key
    rw [Name.token_gbnf, Name.token_gbnf, Name.kebab, Name.kebab, Name.normalize_eq_iff,
      Name.map_toLower_words_eq_iff]
  simp only [Undefined, mem_tokens_ofParts, hsame, not_exists, not_and, ne_eq]

/-- The rule and the target of the reference at a place in the rules, if there is one: the place
starts with the number of the rule and goes on with the path in its part. -/
def refAt? (rules : List (String × Part)) : List Nat → Option (String × String)
  | [] => none
  | i :: path =>
      rules[i]?.bind fun rule => (rule.2.refAt? path).map fun ref => (rule.1, ref.name)

def places (rules : List (String × Part)) : List (List Nat × String × String) :=
  numbered 0 (rules.map fun rule =>
    rule.2.places.map fun place => (place.1, rule.1, place.2.name))

theorem map_snd_places : (places rules).map Prod.snd = occurrences rules := by
  rw [places, map_snd_numbered, List.flatMap_map, occurrences]
  refine List.flatMap_congr fun rule _ => ?_
  rw [List.map_map, ← Part.map_snd_places, List.map_map]
  rfl

theorem pairwise_places : (places rules).Pairwise (·.1 < ·.1) := by
  refine pairwise_numbered (List.forall_mem_map.mpr fun rule _ => ?_)
  rw [List.pairwise_map]
  exact Part.pairwise_places rule.2

theorem mem_places_iff {place : List Nat} {pair : String × String} :
    (place, pair) ∈ places rules ↔ refAt? rules place = some pair := by
  rw [places, mem_numbered_map_iff]
  constructor
  · rintro ⟨i, path, rfl, rule, hrule, hmem⟩
    obtain ⟨⟨path', ref⟩, hplace, heq⟩ := List.mem_map.mp hmem
    cases heq
    rw [refAt?, hrule, Option.bind_some, Part.mem_places_iff.mp hplace]
    rfl
  · intro h
    cases place with
    | nil => cases h
    | cons i path =>
      obtain ⟨rule, hrule, href⟩ := Option.bind_eq_some_iff.mp h
      obtain ⟨ref, hpath, rfl⟩ := Option.map_eq_some_iff.mp href
      exact ⟨i, path, rfl, rule, hrule,
        List.mem_map.mpr ⟨(path, ref), Part.mem_places_iff.mpr hpath, rfl⟩⟩

/-- The pairs are the references to undefined names, each with its rule, in the order of their
places. -/
def ListsUndefined (rules : List (String × Part)) (pairs : List (String × String)) : Prop :=
  ∃ found : List (List Nat × String × String),
    pairs = found.map Prod.snd ∧ found.Pairwise (·.1 < ·.1) ∧
      ∀ place pair, (place, pair) ∈ found ↔
        refAt? rules place = some pair ∧ Undefined rules pair.2

theorem listsUndefined_missing :
    ListsUndefined rules (rules.flatMap (missing (ofParts rules).tokens)) := by
  let dangles := fun pair : String × String =>
    !(ofParts rules).tokens.contains (Name.token .gbnf pair.2)
  refine ⟨(places rules).filter fun found => dangles found.2, ?_, pairwise_places.filter _, ?_⟩
  · rw [flatMap_missing, ← map_snd_places, List.filter_map]
    rfl
  · intro place pair
    rw [List.mem_filter, mem_places_iff, undefined_iff]
    simp [dangles]

def HoldsUndefined (rules : List (String × Part)) (p : Part) : Prop :=
  ∃ path ref, p.refAt? path = some ref ∧ Undefined rules ref.name

theorem holdsUndefined_iff {rule : String × Part} :
    HoldsUndefined rules rule.2 ↔ missing (ofParts rules).tokens rule ≠ [] := by
  have hrefs : HoldsUndefined rules rule.2 ↔ ∃ ref ∈ rule.2.refs, Undefined rules ref.name := by
    simp only [HoldsUndefined, Part.mem_refs_iff]
    exact ⟨fun ⟨path, ref, h, hundefined⟩ => ⟨ref, ⟨path, h⟩, hundefined⟩,
      fun ⟨ref, ⟨path, h⟩, hundefined⟩ => ⟨path, ref, h, hundefined⟩⟩
  simp only [hrefs, undefined_iff, missing, ne_eq, List.map_eq_nil_iff, List.filter_eq_nil_iff]
  simp

/-- The first reference that is missing stands in the first rule that misses one. -/
theorem exists_first_of_flatMap_missing {defined : List String} {name target : String}
    {more : List (String × String)}
    (h : rules.flatMap (missing defined) = (name, target) :: more) :
    ∃ front p back, rules = front ++ (name, p) :: back ∧ missing defined (name, p) ≠ [] ∧
      ∀ rule ∈ front, missing defined rule = [] := by
  induction rules with
  | nil => cases h
  | cons rule rules ih =>
    rw [List.flatMap_cons] at h
    cases hmissing : missing defined rule with
    | nil =>
      rw [hmissing, List.nil_append] at h
      obtain ⟨front, p, back, rfl, hp, hfront⟩ := ih h
      exact ⟨rule :: front, p, back, rfl, hp, List.forall_mem_cons.mpr ⟨hmissing, hfront⟩⟩
    | cons pair pairs =>
      rw [hmissing, List.cons_append, List.cons.injEq] at h
      obtain ⟨rfl, -⟩ := h
      have hname : rule.1 = name := by
        have hmem : (name, target) ∈ missing defined rule := by simp [hmissing]
        obtain ⟨ref, -, heq⟩ := List.mem_map.mp hmem
        exact congrArg Prod.fst heq
      subst hname
      exact ⟨[], rule.2, rules, rfl, by simp [hmissing], List.forall_mem_nil _⟩

structure ReportsUndefined (rules : List (String × Part)) (mode : Mode)
    (pairs : List (String × String)) (e : GrammarError) : Prop where
  family : e.fault.family = .registry
  targets : ∃ names,
    e.fault.message = "Reference to undefined rule(s): " ++ ", ".intercalate names ∧
      names.Pairwise (· < ·) ∧ ∀ name, name ∈ names ↔ name ∈ pairs.map Prod.snd
  blamed : ∃ front rule back, rules = front ++ rule :: back ∧
    e.context = some ⟨rule.1, mode⟩ ∧ HoldsUndefined rules rule.2 ∧
      ∀ earlier ∈ front, ¬ HoldsUndefined rules earlier.2

end Registry

namespace Grammar

open Registry

variable {g : Grammar} {rules : List (String × Part)}

theorem exists_reportsUndefined (hrules : g.rules = .ofParts rules) (hfinal : g.isFinal)
    (hvalidate : g.options.validate) (mode : Mode)
    (h : rules.flatMap (missing (ofParts rules).tokens) ≠ []) :
    ∃ e, g.buildIn mode = .error (.grammar e) ∧
      ReportsUndefined rules mode (rules.flatMap (missing (ofParts rules).tokens)) e := by
  obtain ⟨⟨name, target⟩, more, hmissing⟩ := List.exists_cons_of_ne_nil h
  refine ⟨_, buildIn_eq_error hrules hfinal hvalidate mode hmissing, rfl, ?_, ?_⟩
  · exact ⟨_, rfl, pairwise_sortNames _, fun n => by rw [mem_sortNames, hmissing]⟩
  · obtain ⟨front, p, back, hfront, hp, hearlier⟩ := exists_first_of_flatMap_missing hmissing
    refine ⟨front, (name, p), back, hfront, rfl, holdsUndefined_iff.mpr hp, fun rule hrule => ?_⟩
    rw [holdsUndefined_iff, not_not]
    exact hearlier rule hrule

/-- The references that dangle are those to undefined names, by their places. A final grammar that
checks its references fails to build exactly if there are any, in either notation, and the error
reports them. -/
theorem undefined_references_reported (o : Options) (rules : List (String × Part)) :
    ∃ pairs, (ofParts rules).dangling = .ok pairs ∧ ListsUndefined rules pairs ∧
      (isFinal ⟨o, ofParts rules⟩ → o.validate → ∀ mode?,
        ((∃ e, build ⟨o, ofParts rules⟩ mode? = .error e) ↔ pairs ≠ []) ∧
        ∀ e, build ⟨o, ofParts rules⟩ mode? = .error e →
          ∃ e', e = .grammar e' ∧ ReportsUndefined rules (mode?.getD o.mode) pairs e') := by
  refine ⟨_, dangling_ofParts, listsUndefined_missing, fun hfinal hvalidate mode? => ?_⟩
  by_cases hmissing : rules.flatMap (missing (ofParts rules).tokens) = []
  · have hbuild : build ⟨o, ofParts rules⟩ mode? = .ok _ := (buildIn_eq_ok_iff rfl).mpr
      ⟨hfinal, fun _ => flatMap_missing_eq_nil_iff.mp hmissing, rfl⟩
    simp [hbuild, hmissing]
  · obtain ⟨e, hbuild, hreports⟩ :=
      exists_reportsUndefined (g := ⟨o, ofParts rules⟩) rfl hfinal hvalidate (mode?.getD o.mode)
        hmissing
    have hbuild : build ⟨o, ofParts rules⟩ mode? = .error (.grammar e) := hbuild
    refine ⟨by simp [hbuild, hmissing], fun e' he' => ⟨e, ?_, hreports⟩⟩
    rw [hbuild] at he'
    exact (Except.error.inj he').symm

def tornRules : List (String × Part) :=
  [("b_c", .ref "A" none),
    ("a", .sequence [.ref "zed" none, .oneOf [.ref "bC" none, .ref "Zed" none] none] none),
    (Name.root, .sequence [.ref "x" none, .ref "zed" (some .optional)] none)]

theorem tornRules_reported :
    let pairs := [("a", "zed"), ("a", "Zed"), (Name.root, "x"), (Name.root, "zed")]
    let e : GrammarError :=
      { fault := .undefinedRefs ["Zed", "x", "zed"], context := some ⟨"a", .ebnf⟩ }
    isFinal ⟨{}, ofParts tornRules⟩ ∧ (ofParts tornRules).dangling = .ok pairs ∧
      build ⟨{}, ofParts tornRules⟩ (some .ebnf) = .error (.grammar e) ∧
        ReportsUndefined tornRules .ebnf pairs e := by
  intro pairs e
  have hfinal : isFinal ⟨{}, ofParts tornRules⟩ := by cbv
  have hdangling : (ofParts tornRules).dangling = .ok pairs := by cbv
  have hbuild : build ⟨{}, ofParts tornRules⟩ (some .ebnf) = .error (.grammar e) := by cbv
  obtain ⟨pairs', hpairs, -, hreported⟩ := undefined_references_reported {} tornRules
  obtain rfl : pairs = pairs' := Except.ok.inj (hdangling.symm.trans hpairs)
  obtain ⟨e', he', hreports⟩ := (hreported hfinal rfl (some .ebnf)).2 _ hbuild
  obtain rfl : e = e' := Error.grammar.inj he'
  exact ⟨hfinal, hdangling, hbuild, hreports⟩

end Grammar
end GrammarRules
