import GrammarRules.Part.OfData
import GrammarRules.Proofs.Part.Readable
import GrammarRules.Proofs.Part.WellFormed

/-!
# What describes a part

A text describes a literal. Any other part is described by a record of its kind that has the text
of its cardinality, or nothing or null where it has none, its name or pattern, and descriptions of
its parts in order, where a missing list counts as an empty one. These are the only data that are
read as a part. Among the descriptions of a part is the one that is written for it, so that reading
and writing again drops all other fields and fills in the missing ones, once and for all.
-/

namespace GrammarRules

namespace Cardinality

theorem ofText?_text (c : Cardinality) : ofText? c.text = some c := by
  cases c <;> decide

theorem ofText?_eq_some_iff {s : String} {c : Cardinality} :
    ofText? s = some c ↔ s = c.text := by
  refine ⟨fun h => ?_, fun h => h ▸ ofText?_text c⟩
  unfold ofText? at h
  split at h
  · next glyph hglyph =>
    apply String.toList_injective
    rw [hglyph, text, glyph_of_ofGlyph? h, String.toList_singleton]
  · cases h

end Cardinality

namespace Part

/-- The fields give a cardinality by its text, and none by null or by having no such field. -/
def CardinalityGiven (fields : Data.Fields) : Option Cardinality → Prop
  | none => fields.lookup "cardinality" = none ∨ fields.lookup "cardinality" = some .null
  | some c => fields.lookup "cardinality" = some (.text c.text)

/-- The fields give a list, and the empty one also by having no such field. -/
def ListGiven (field : String) (fields : Data.Fields) (items : List Data) : Prop :=
  (fields.lookup field).getD (.list []) = .list items

/-- What describes a part, if `R` is what describes the parts right below it. -/
inductive NodeDescribed (R : Data → Part → Prop) : Data → Part → Prop
  | literal (text : String) : NodeDescribed R (.text text) (.literal text)
  | sequence {fields : Data.Fields} {items : List Data} {parts : List Part}
      {c : Option Cardinality} (kind : fields.lookup "kind" = some (.text "sequence"))
      (cardinality : CardinalityGiven fields c) (listed : ListGiven "parts" fields items)
      (each : List.Forall₂ R items parts) : NodeDescribed R (.record fields) (.sequence parts c)
  | oneOf {fields : Data.Fields} {items : List Data} {options : List Part}
      {c : Option Cardinality} (kind : fields.lookup "kind" = some (.text "one_of"))
      (cardinality : CardinalityGiven fields c) (listed : ListGiven "options" fields items)
      (each : List.Forall₂ R items options) : NodeDescribed R (.record fields) (.oneOf options c)
  | ref {fields : Data.Fields} {name : String} {c : Option Cardinality}
      (kind : fields.lookup "kind" = some (.text "ref")) (cardinality : CardinalityGiven fields c)
      (named : fields.lookup "name" = some (.text name)) :
      NodeDescribed R (.record fields) (.ref name c)
  | range {fields : Data.Fields} {pattern : String} {c : Option Cardinality}
      (kind : fields.lookup "kind" = some (.text "range")) (cardinality : CardinalityGiven fields c)
      (given : fields.lookup "pattern" = some (.text pattern)) :
      NodeDescribed R (.record fields) (.range pattern c)

inductive Describes : Data → Part → Prop
  | node {d : Data} {p : Part} (h : NodeDescribed Describes d p) : Describes d p

theorem describes_iff {d : Data} {p : Part} : Describes d p ↔ NodeDescribed Describes d p :=
  ⟨fun ⟨h⟩ => h, .node⟩

theorem forall₂_imp_of_mem {R S : Data → Part → Prop} {items : List Data} {parts : List Part}
    (hRS : ∀ q ∈ parts, ∀ e, R e q → S e q) (h : List.Forall₂ R items parts) :
    List.Forall₂ S items parts := by
  induction h with
  | nil => exact .nil
  | cons hd _ ih =>
    obtain ⟨hp, hps⟩ := List.forall_mem_cons.mp hRS
    exact .cons (hp _ hd) (ih hps)

theorem NodeDescribed.imp {R S : Data → Part → Prop} {d : Data} {p : Part}
    (hRS : ∀ q ∈ p.children, ∀ e, R e q → S e q) (h : NodeDescribed R d p) : NodeDescribed S d p := by
  cases h with
  | literal text => exact .literal text
  | sequence kind cardinality listed each =>
    exact .sequence kind cardinality listed (forall₂_imp_of_mem hRS each)
  | oneOf kind cardinality listed each =>
    exact .oneOf kind cardinality listed (forall₂_imp_of_mem hRS each)
  | ref kind cardinality named => exact .ref kind cardinality named
  | range kind cardinality given => exact .range kind cardinality given

section Reading

variable {field : String} {fields : Data.Fields} {d : Data} {p : Part}

theorem cardinalityOf_eq_ok_iff {c : Option Cardinality} :
    cardinalityOf fields = .ok c ↔ CardinalityGiven fields c := by
  rw [cardinalityOf]
  split
  · next h => cases c <;> simp [CardinalityGiven, h]
  · next h => cases c <;> simp [CardinalityGiven, h]
  · next glyph h =>
    cases c with
    | none => split <;> simp [CardinalityGiven, h, Checked.fail]
    | some c =>
      rw [CardinalityGiven, h, Option.some_inj, Data.text.injEq, ← Cardinality.ofText?_eq_some_iff]
      split <;> simp [*, Checked.fail]
  · next e hnone hnull htext =>
    cases c <;> simp_all [CardinalityGiven, Checked.fail]

theorem textOf_eq_ok_iff {text : String} :
    textOf field fields = .ok text ↔ fields.lookup field = some (.text text) := by
  rw [textOf]
  split
  · next h => simp [h, Checked.fail]
  · next h => simp [h]
  · next d htext h =>
    simpa [h, Checked.fail] using htext text

theorem partsFrom_eq_ok_iff {place : Nat} {items : List Data} {parts : List Part} :
    partsFrom place items = .ok parts ↔
      List.Forall₂ (fun e q => ofData e = .ok q) items parts := by
  induction items generalizing place parts with
  | nil => simp [partsFrom, eq_comm]
  | cons e es ih =>
    simp only [partsFrom, Checked.map₂_eq_ok_iff, Checked.under_eq_ok_iff, ih,
      List.forall₂_cons_left_iff, ofData, @eq_comm _ parts]

theorem itemsOf_eq (field : String) (fields : Data.Fields) :
    itemsOf field fields = (listOfData ((fields.lookup field).getD (.list []))).under field := by
  induction fields with
  | nil => rfl
  | cons entry fields ih =>
    obtain ⟨name, e⟩ := entry
    by_cases h : name = field
    · simp [itemsOf, h]
    · have hne : (field == name) = false := beq_false_of_ne (Ne.symm h)
      simp only [itemsOf, if_neg h, List.lookup_cons, hne, ih]

theorem itemsOf_eq_ok_iff {parts : List Part} :
    itemsOf field fields = .ok parts ↔ ∃ items, ListGiven field fields items ∧
      List.Forall₂ (fun e q => ofData e = .ok q) items parts := by
  rw [itemsOf_eq, Checked.under_eq_ok_iff]
  unfold ListGiven
  cases (fields.lookup field).getD (.list []) <;>
    simp [listOfData, Checked.fail, partsFrom_eq_ok_iff]

theorem ruleOfData_eq_ok_iff :
    ruleOfData d = .ok p ↔
      NodeDescribed (fun e q => ofData e = .ok q) d p ∧ ∀ text, p ≠ .literal text := by
  constructor
  · intro h
    cases d with
    | record fields =>
      rw [ruleOfData] at h
      split at h
      any_goals simp only [Checked.under_eq_ok_iff, Checked.map₂_eq_ok_iff, cardinalityOf_eq_ok_iff,
        itemsOf_eq_ok_iff, textOf_eq_ok_iff] at h
      · next hkind =>
        obtain ⟨c, parts, hc, ⟨items, hitems, hparts⟩, rfl⟩ := h
        exact ⟨.sequence hkind hc hitems hparts, by simp⟩
      · next hkind =>
        obtain ⟨c, options, hc, ⟨items, hitems, hoptions⟩, rfl⟩ := h
        exact ⟨.oneOf hkind hc hitems hoptions, by simp⟩
      · next hkind =>
        obtain ⟨c, name, hc, hname, rfl⟩ := h
        exact ⟨.ref hkind hc hname, by simp⟩
      · next hkind =>
        obtain ⟨c, pattern, hc, hpattern, rfl⟩ := h
        exact ⟨.range hkind hc hpattern, by simp⟩
      · cases h
      · cases h
    | _ => cases h
  · rintro ⟨h, hrule⟩
    cases h with
    | literal text => exact absurd rfl (hrule text)
    | sequence kind cardinality listed each =>
      simpa [ruleOfData, kind, cardinalityOf_eq_ok_iff, itemsOf_eq_ok_iff, cardinality] using
        ⟨_, listed, each⟩
    | oneOf kind cardinality listed each =>
      simpa [ruleOfData, kind, cardinalityOf_eq_ok_iff, itemsOf_eq_ok_iff, cardinality] using
        ⟨_, listed, each⟩
    | ref kind cardinality named =>
      simp [ruleOfData, kind, cardinalityOf_eq_ok_iff, textOf_eq_ok_iff, cardinality, named]
    | range kind cardinality given =>
      simp [ruleOfData, kind, cardinalityOf_eq_ok_iff, textOf_eq_ok_iff, cardinality, given]

theorem literalOr_eq_ok_iff {asRule : Checked Part} :
    literalOr d asRule = .ok p ↔
      (∃ text, d = .text text ∧ p = .literal text) ∨ (∀ text, d ≠ .text text) ∧ asRule = .ok p := by
  cases d <;> cases asRule <;> simp [literalOr, eq_comm]

theorem ofData_eq_ok_iff :
    ofData d = .ok p ↔ NodeDescribed (fun e q => ofData e = .ok q) d p := by
  rw [ofData, literalOr_eq_ok_iff, ruleOfData_eq_ok_iff]
  constructor
  · rintro (⟨text, rfl, rfl⟩ | ⟨-, h, -⟩)
    · exact .literal text
    · exact h
  · intro h
    by_cases hp : ∃ text, p = .literal text
    · obtain ⟨text, rfl⟩ := hp
      cases h
      exact .inl ⟨text, rfl, rfl⟩
    · refine .inr ⟨?_, h, not_exists.mp hp⟩
      rintro text rfl
      cases h
      exact hp ⟨text, rfl⟩

theorem ofData_eq_ok_iff_describes : ofData d = .ok p ↔ Describes d p := by
  induction p using children_induction generalizing d with
  | node p ih =>
    rw [ofData_eq_ok_iff, describes_iff]
    exact ⟨.imp fun q hq _ => (ih q hq).mp, .imp fun q hq _ => (ih q hq).mpr⟩

end Reading

theorem cardinalityGiven_of_lookup {fields : Data.Fields} {c : Option Cardinality}
    (h : fields.lookup "cardinality" = some (cardinalityData c)) : CardinalityGiven fields c := by
  cases c with
  | none => exact .inr h
  | some c => exact h

theorem forall₂_toDataAll (parts : List Part) :
    List.Forall₂ (fun e q => e = q.toData) (toDataAll parts) parts := by
  induction parts with
  | nil => exact .nil
  | cons p ps ih => exact .cons rfl ih

/-- What is written for a part describes it, by what is written for the parts below it. -/
theorem nodeDescribed_toData (p : Part) : NodeDescribed (fun e q => e = q.toData) p.toData p := by
  cases p with
  | literal text => exact .literal text
  | sequence parts c =>
    exact .sequence rfl (cardinalityGiven_of_lookup rfl) rfl (forall₂_toDataAll parts)
  | oneOf options c =>
    exact .oneOf rfl (cardinalityGiven_of_lookup rfl) rfl (forall₂_toDataAll options)
  | ref name c => exact .ref rfl (cardinalityGiven_of_lookup rfl) rfl
  | range pattern c => exact .range rfl (cardinalityGiven_of_lookup rfl) rfl

theorem describes_toData (p : Part) : Describes p.toData p := by
  induction p using children_induction with
  | node p ih =>
    rw [describes_iff]
    exact (nodeDescribed_toData p).imp fun q hq e (he : e = q.toData) => he ▸ ih q hq

theorem ofData_toData (p : Part) : ofData p.toData = .ok p :=
  ofData_eq_ok_iff_describes.mpr (describes_toData p)

/-- What is read as a rule is what describes it, and no rule is a literal. -/
theorem ruleOfData_eq_ok_iff_describes {d : Data} {p : Part} :
    ruleOfData d = .ok p ↔ Describes d p ∧ ∀ text, p ≠ .literal text := by
  rw [ruleOfData_eq_ok_iff, ← ofData_eq_ok_iff, ofData_eq_ok_iff_describes]

/-- Reading undoes writing, as a rule where the part is no literal, and so nothing that is written
or referred to changes. Exactly the descriptions of a part are read as that part, and each of them
may be replaced by the one written for the part, which is read as the same part again. -/
theorem written_description_canonical (p : Part) (d : Data) :
    (∃ q, ofData p.toData = .ok q ∧ ((∀ text, p ≠ .literal text) → ruleOfData p.toData = .ok q) ∧
      q = p ∧ (∀ mode, q.render mode = p.render mode) ∧ q.refs = p.refs) ∧
    (∀ q, ofData d = .ok q ↔ Describes d q) ∧
    ∀ q, ofData d = .ok q → ofData q.toData = .ok q ∧
      ∀ e, Describes e q ↔ ofData e = ofData q.toData := by
  refine ⟨⟨p, ofData_toData p, fun hp => ?_, rfl, fun _ => rfl, rfl⟩,
    fun q => ofData_eq_ok_iff_describes, fun q _ => ⟨ofData_toData q, fun e => ?_⟩⟩
  · exact ruleOfData_eq_ok_iff_describes.mpr ⟨describes_toData p, hp⟩
  · rw [ofData_toData, ofData_eq_ok_iff_describes]

def looseDigits : Data :=
  .record [("note", .int 3), ("kind", .text "sequence"),
    ("parts", .list [.text "no.", .record [("kind", .text "one_of")],
      .record [("pattern", .text "[0-9]"), ("kind", .text "range"), ("cardinality", .text "+")]])]

def digits : Part :=
  .sequence [.literal "no.", .oneOf [] none, .range "[0-9]" (some .oneOrMore)] none

theorem looseDigits_read_and_written :
    ofData looseDigits = .ok digits ∧ ofData digits.toData = .ok digits ∧
      ruleOfData digits.toData = .ok digits ∧ ofData looseDigits = ofData digits.toData := by
  have hread : ofData looseDigits = .ok digits := rfl
  obtain ⟨⟨q, -, hrule, rfl, -, -⟩, hdescribes, hagain⟩ :=
    written_description_canonical digits looseDigits
  obtain ⟨hwritten, hsame⟩ := hagain digits hread
  exact ⟨hread, hwritten, hrule nofun, (hsame looseDigits).mp ((hdescribes digits).mp hread)⟩

end Part
end GrammarRules
