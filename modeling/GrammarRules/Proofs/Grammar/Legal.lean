import GrammarRules.Proofs.Grammar.Lines
import GrammarRules.Proofs.Grammar.Misfit
import GrammarRules.Proofs.Name.Legal

/-!
# Names in grammars

A name is accepted if a definition of it or a reference to it is. Only blank names are refused, so
all tokens of a GBNF text are identifiers, and those of a text in Lark EBNF are identifiers exactly
if every name in the grammar has a letter for its first letter or digit.
-/

namespace GrammarRules

namespace Name

/-- Some grammar admits a definition of the name, or some builder a reference to it. -/
def Accepted (name : String) : Prop :=
  (∃ g : Grammar, g.admits name = .ok ()) ∨ ∃ (b : Builder) (v : Value), b.ref name = .ok v

theorem accepted_iff {name : String} : Accepted name ↔ isBlank name = false := by
  constructor
  · rintro (⟨g, hadmits⟩ | ⟨b, v, href⟩)
    · exact ((Grammar.admits_eq_ok_iff g name).mp hadmits).1
    · rw [Builder.ref] at href
      by_cases hblank : isBlank name
      · rw [if_pos hblank] at href
        cases href
      · exact Bool.eq_false_iff.mpr hblank
  · intro h
    refine Or.inr ⟨{}, .part (.ref name none), ?_⟩
    rw [Builder.ref, h]
    rfl

end Name

namespace Registry

/-- The names whose tokens are written: those of the rules, and those that the rules refer to. -/
def written (rules : List (String × Part)) : List String := rules.map Prod.fst ++ mentions rules

end Registry

namespace Program

open Name Registry

variable {α : Type}

/-- The token of an accepted name is an identifier of GBNF. In Lark EBNF it is of the same shape,
and an identifier exactly if the first ASCII letter or digit of the name is a letter. So in a grammar
of a run in which all references are accepted, every token of the GBNF text is an identifier, and
every token of the Lark EBNF text is one exactly if all names in the grammar start with a letter. -/
theorem accepted_names_legal_but_for_leading_digits (p : Program α) (o : Options) :
    (∀ name, Accepted name →
      (token .gbnf name).toList ∈ joinedRuns '-' ∧ (token .ebnf name).toList ∈ joinedRuns '_' ∧
      ((token .ebnf name).toList ∈ larkNames ↔ startsWithLetter name)) ∧
    ∀ g ∈ p.grammars o, ∀ rules, g.rules = .ofParts rules →
      (∀ name ∈ mentions rules, Accepted name) →
      (∀ name ∈ written rules, (token .gbnf name).toList ∈ joinedRuns '-') ∧
      ((∀ name ∈ written rules, (token .ebnf name).toList ∈ larkNames) ↔
        ∀ name ∈ written rules, startsWithLetter name) := by
  have hlegal : ∀ name, Accepted name →
      (token .gbnf name).toList ∈ joinedRuns '-' ∧ (token .ebnf name).toList ∈ joinedRuns '_' ∧
      ((token .ebnf name).toList ∈ larkNames ↔ startsWithLetter name) := by
    intro name hname
    rw [accepted_iff] at hname
    exact ⟨token_mem_joinedRuns .gbnf hname, token_mem_joinedRuns .ebnf hname,
      token_ebnf_mem_larkNames_iff hname⟩
  refine ⟨hlegal, fun g hg rules hrules hmentions => ?_⟩
  have hnames : ∀ name ∈ rules.map Prod.fst, Accepted name := by
    intro name hname
    rw [← names_ofParts, ← hrules] at hname
    exact accepted_iff.mpr (p.not_isBlank_of_mem_grammars g hg name hname)
  have hwritten : ∀ name ∈ written rules, Accepted name :=
    List.forall_mem_append.mpr ⟨hnames, hmentions⟩
  refine ⟨fun name hname => (hlegal name (hwritten name hname)).1, ?_⟩
  exact forall₂_congr fun name hname => (hlegal name (hwritten name hname)).2.2

def requestRules : Program Unit :=
  .define "XMLHttpRequest2" (fun _ => .done (.ok (.part (.literal "GET")))) fun _ =>
    .root (fun b => .done (b.ref "XMLHttpRequest2")) .done

theorem requestRules_legal :
    Accepted "XMLHttpRequest2" ∧ token .ebnf "XMLHttpRequest2" = "xml_http_request_2" ∧
      (token .gbnf "XMLHttpRequest2").toList ∈ joinedRuns '-' ∧
      ∀ name ∈ ["XMLHttpRequest2", Name.root, "XMLHttpRequest2"],
        (token .ebnf name).toList ∈ larkNames := by
  have hname : Accepted "XMLHttpRequest2" := accepted_iff.mpr (by cbv)
  have hrules : (Session.exec {} requestRules.run).2.grammar.rules =
      .ofParts [("XMLHttpRequest2", .literal "GET"), (Name.root, .ref "XMLHttpRequest2" none)] := by
    cbv
  obtain ⟨hnames, hgrammars⟩ := accepted_names_legal_but_for_leading_digits requestRules {}
  have htext := hgrammars _ requestRules.grammar_exec_mem_grammars _ hrules
    (List.forall_mem_singleton.mpr hname)
  have hrequest : startsWithLetter "XMLHttpRequest2" := by cbv
  have hroot : startsWithLetter Name.root := by cbv
  refine ⟨hname, by cbv, (hnames _ hname).1, htext.2.mpr ?_⟩
  exact List.forall_mem_cons.mpr
    ⟨hrequest, List.forall_mem_cons.mpr ⟨hroot, List.forall_mem_singleton.mpr hrequest⟩⟩

/-- A name with a digit in front is accepted by a definition and by a reference, and the text in
Lark EBNF then has a rule that is called by a number. -/
theorem leading_digit_accepted_not_legal :
    ({} : Grammar).admits "_1" = .ok () ∧ ({} : Builder).ref "_1" = .ok (.part (.ref "_1" none)) ∧
      (Grammar.madeBy [.define "_1" (.literal "x"), .root (.ref "_1")]).build (some .ebnf) =
        .ok "1: \"x\"\nstart: 1" ∧
      (token .ebnf "_1").toList ∉ larkNames := by
  have htoken : (token .ebnf "_1").toList = ['1'] := by cbv
  refine ⟨by cbv, by cbv, by cbv, ?_⟩
  rw [htoken, larkNames, mem_single_mul_kstar]
  rintro ⟨c, cs, heq, hc, -⟩
  obtain ⟨rfl, -⟩ := List.cons.inj heq
  exact absurd hc (by decide)

end Program
end GrammarRules
