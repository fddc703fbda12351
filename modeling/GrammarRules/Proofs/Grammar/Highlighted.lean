import GrammarRules.Proofs.Grammar.Lines
import GrammarRules.Proofs.Grammar.Misfit
import GrammarRules.Proofs.Text.Styled

/-!
# Highlighted definitions

Where no literal and no range holds a line break or a character that is taken out, the lines of a
text are its definitions, and each is highlighted as its name, its operator and its expression: the
first operator of a line is the one that the definition was written with, whatever its expression
holds.
-/

namespace GrammarRules

namespace Highlight

def isLost (c : Char) : Bool := Text.isLineBreak c || c = '\x07' || c = '\x08'

variable {c : Char}

theorem isLost_of_isControl (h : Styled.isControl c) : isLost c := by
  simp only [Styled.isControl, decide_eq_true_eq, List.mem_cons, List.not_mem_nil, or_false] at h
  rcases h with rfl | rfl | rfl | rfl | rfl <;> decide

/-- Nothing that is lost is written around literals and ranges. -/
theorem not_isNotation_of_isLost (h : isLost c) :
    Part.isNotation c = false ∧ ∀ mode : Mode, c ∉ mode.operator.toList := by
  have hwritten : ∀ d, isLost d = false → d ≠ c := by
    rintro d hd rfl
    rw [hd] at h
    cases h
  have hnotation : ∀ d ∈ " ::= ".toList ++ ": ".toList, d ≠ c := by
    have hall : (" ::= ".toList ++ ": ".toList).all fun d => !isLost d := by decide
    intro d hd
    apply hwritten
    simpa using List.all_eq_true.mp hall d hd
  refine ⟨?_, fun mode hmem => ?_⟩
  · simp only [isLost, Text.isLineBreak, Bool.or_eq_true, decide_eq_true_eq, List.mem_cons,
      List.not_mem_nil, or_false] at h
    rcases h with ((rfl | rfl | rfl | rfl | rfl | rfl | rfl | rfl | rfl | rfl) | rfl) | rfl <;>
      decide
  · cases mode with
    | gbnf => exact hnotation c (List.mem_append_left _ hmem) rfl
    | ebnf => exact hnotation c (List.mem_append_right _ hmem) rfl

end Highlight

theorem Part.render_eq_empty_iff {mode : Mode} {p : Part} :
    p.render mode = "" ↔ p.chars mode = [] := by
  rw [Part.render, String.ofList_eq_empty_iff]

namespace Registry

open Styled

variable {mode : Mode} {rule : String × Part} {rules : List (String × Part)}

/-- What of a definition is highlighted, and how: the token of its name and the operator as its
head, and its expression, if anything is written of it. -/
def highlighted (mode : Mode) (rule : String × Part) : List (String × Style) :=
  (Name.token mode rule.1, .head) :: (mode.operator, .head) ::
    if rule.2.render mode = "" then [] else [(rule.2.render mode, .expression)]

def linePieces (mode : Mode) (rule : String × Part) : List Piece :=
  (highlighted mode rule).map fun piece => ⟨piece.1.toList, some piece.2⟩

def textPieces (mode : Mode) (rules : List (String × Part)) : List Piece :=
  [⟨['\n'], none⟩].intercalate (rules.map (linePieces mode))

def Keeps (rule : String × Part) : Prop :=
  ∀ text ∈ rule.2.texts, ∀ c ∈ text.toList, Highlight.isLost c = false

theorem charsOf_linePieces (mode : Mode) (rule : String × Part) :
    charsOf (linePieces mode rule) = (line mode rule).toList := by
  rw [toList_line, linePieces, highlighted]
  by_cases hempty : rule.2.render mode = ""
  · rw [if_pos hempty, Part.render_eq_empty_iff.mp hempty]
    simp [charsOf]
  · rw [if_neg hempty]
    simp [charsOf, Part.render]

theorem charsOf_textPieces (mode : Mode) (rules : List (String × Part)) :
    charsOf (textPieces mode rules) = ("\n".intercalate (rules.map (line mode))).toList := by
  rw [toList_text, textPieces]
  cases rules with
  | nil => rfl
  | cons rule rules =>
    rw [List.map_cons, List.map_cons, Text.intercalate_cons, Text.intercalate_cons, charsOf_append,
      charsOf_linePieces, List.flatMap_map, List.flatMap_map, charsOf, List.flatMap_assoc]
    refine congrArg _ (List.flatMap_congr fun next _ => ?_)
    rw [List.flatMap_cons, ← charsOf_linePieces]
    rfl

theorem not_isLost_of_mem_line (h : Keeps rule) {c : Char} (hc : c ∈ (line mode rule).toList) :
    Highlight.isLost c = false := by
  refine Bool.of_not_eq_true fun hlost => ?_
  obtain ⟨hfree, hoperator⟩ := Highlight.not_isNotation_of_isLost hlost
  have hcount : 0 < (line mode rule).toList.count c := List.count_pos_iff.mpr hc
  have hnone : Part.countIn c rule.2.texts = 0 := by
    refine Part.countIn_eq_zero_iff.mpr fun text htext hmem => ?_
    rw [h text htext c hmem] at hlost
    cases hlost
  rw [count_line hfree (hoperator mode), hnone] at hcount
  exact Nat.lt_irrefl 0 hcount

theorem not_isControl_of_mem_line (mode : Mode) (h : Keeps rule) :
    ∀ c ∈ (line mode rule).toList, isControl c = false := by
  intro c hc
  refine Bool.of_not_eq_true fun hcontrol => ?_
  have hlost := Highlight.isLost_of_isControl hcontrol
  rw [not_isLost_of_mem_line h hc] at hlost
  cases hlost

theorem not_isLineBreak_of_mem_line (mode : Mode) (h : Keeps rule) :
    ∀ c ∈ (line mode rule).toList, Text.isLineBreak c = false := by
  intro c hc
  have hkept := not_isLost_of_mem_line h hc
  rw [Highlight.isLost, Bool.or_eq_false_iff, Bool.or_eq_false_iff] at hkept
  exact hkept.1.1

/-- One definition more. Its first operator stands after the name, since no token holds the start of
an operator. -/
theorem line_ofPieces (mode : Mode) (hname : Name.isBlank rule.1 = false) (h : Keeps rule)
    (pieces : List Piece) : Highlight.line mode (ofPieces pieces) (line mode rule).toList =
      ofPieces (pieces ++ linePieces mode rule) := by
  have hcontrol := not_isControl_of_mem_line mode h
  rw [toList_line, List.forall_mem_append, List.forall_mem_append] at hcontrol
  obtain ⟨⟨htoken, hoperator⟩, hexpression⟩ := hcontrol
  have htokenne : (Name.token mode rule.1).toList ≠ [] := by
    simpa using Name.token_ne_empty mode hname
  have hoperatorne : mode.operator.toList ≠ [] := by cases mode <;> decide
  rw [Highlight.line, cut?_line]
  simp only
  rw [append_ofPieces _ htokenne htoken, append_ofPieces _ hoperatorne hoperator, linePieces,
    highlighted]
  by_cases hempty : rule.2.render mode = ""
  · rw [if_pos hempty, Part.render_eq_empty_iff.mp hempty, List.append_assoc]
    rfl
  · have hchars : rule.2.chars mode ≠ [] := mt Part.render_eq_empty_iff.mpr hempty
    rw [if_neg hempty, append_ofPieces _ hchars hexpression, List.append_assoc, List.append_assoc,
      Part.render]
    simp

theorem linesAfter_ofPieces (hnames : ∀ rule ∈ rules, Name.isBlank rule.1 = false)
    (h : ∀ rule ∈ rules, Keeps rule) (pieces : List Piece) :
    Highlight.linesAfter mode (ofPieces pieces) (rules.map fun rule => (line mode rule).toList) =
      ofPieces (pieces ++ rules.flatMap fun rule => ⟨['\n'], none⟩ :: linePieces mode rule) := by
  induction rules generalizing pieces with
  | nil => simp [Highlight.linesAfter]
  | cons rule rules ih =>
    obtain ⟨hname, hnames⟩ := List.forall_mem_cons.mp hnames
    obtain ⟨hrule, hrules⟩ := List.forall_mem_cons.mp h
    have hnext := ih hnames hrules (pieces ++ [⟨['\n'], none⟩] ++ linePieces mode rule)
    rw [← line_ofPieces mode hname hrule, ← newline_ofPieces] at hnext
    rw [List.map_cons, List.flatMap_cons]
    refine hnext.trans ?_
    simp

/-- The text of rules under names that are not blank is highlighted definition by definition. -/
theorem highlight_text (hnames : ∀ rule ∈ rules, Name.isBlank rule.1 = false)
    (h : ∀ rule ∈ rules, Keeps rule) :
    Highlight.text mode ("\n".intercalate (rules.map (line mode))) =
      ofPieces (textPieces mode rules) := by
  have hlines : Text.lines ("\n".intercalate (rules.map (line mode))).toList =
      rules.map fun rule => (line mode rule).toList := by
    rw [toList_text]
    refine Text.lines_intercalate (List.forall_mem_map.mpr fun rule hrule hnil => ?_)
      (List.forall_mem_map.mpr fun rule hrule => not_isLineBreak_of_mem_line mode (h rule hrule))
    rw [toList_line, List.append_assoc, List.append_eq_nil_iff, String.toList_eq_nil_iff] at hnil
    exact Name.token_ne_empty mode (hnames rule hrule) hnil.1
  rw [Highlight.text, hlines, textPieces]
  cases rules with
  | nil => rfl
  | cons rule rules =>
    obtain ⟨hname, hnames⟩ := List.forall_mem_cons.mp hnames
    obtain ⟨hrule, hrules⟩ := List.forall_mem_cons.mp h
    -- the first line is the one without a line feed before it
    have hfirst := line_ofPieces mode hname hrule []
    rw [List.nil_append] at hfirst
    rw [List.map_cons, Highlight.ofLines]
    change Highlight.linesAfter mode (Highlight.line mode (ofPieces []) _) _ = _
    rw [hfirst, linesAfter_ofPieces hnames hrules, List.map_cons, Text.intercalate_cons,
      List.flatMap_map]

theorem ne_empty_of_mem_highlighted (hname : Name.isBlank rule.1 = false) :
    ∀ piece ∈ highlighted mode rule, piece.1 ≠ "" := by
  have hoperator : mode.operator ≠ "" := by cases mode <;> decide
  refine List.forall_mem_cons.mpr ⟨Name.token_ne_empty mode hname, ?_⟩
  refine List.forall_mem_cons.mpr ⟨hoperator, ?_⟩
  by_cases hempty : rule.2.render mode = ""
  · rw [if_pos hempty]
    exact List.forall_mem_nil _
  · rw [if_neg hempty]
    exact List.forall_mem_singleton.mpr hempty

theorem mem_textPieces {piece : Piece} (h : piece ∈ textPieces mode rules) :
    piece = ⟨['\n'], none⟩ ∨ ∃ rule ∈ rules, ∃ text style, (text, style) ∈ highlighted mode rule ∧
      piece = ⟨text.toList, some style⟩ := by
  rcases Text.mem_intercalate h with h | ⟨_, hpieces, h⟩
  · exact Or.inl (List.mem_singleton.mp h)
  · obtain ⟨rule, hrule, rfl⟩ := List.mem_map.mp hpieces
    obtain ⟨⟨text, style⟩, hmem, rfl⟩ := List.mem_map.mp h
    exact Or.inr ⟨rule, hrule, text, style, hmem, rfl⟩

theorem chars_ne_nil_of_mem_textPieces (hnames : ∀ rule ∈ rules, Name.isBlank rule.1 = false) :
    ∀ piece ∈ textPieces mode rules, piece.chars ≠ [] := by
  intro piece hpiece
  rcases mem_textPieces hpiece with rfl | ⟨rule, hrule, text, style, hmem, rfl⟩
  · exact List.cons_ne_nil _ _
  · simpa using ne_empty_of_mem_highlighted (hnames rule hrule) _ hmem

/-- The line feeds of a text stand between its definitions and have no style. -/
theorem feed_iff_of_mem_textPieces (mode : Mode) (h : ∀ rule ∈ rules, Keeps rule) :
    ∀ piece ∈ textPieces mode rules, ∀ c ∈ piece.chars, c = '\n' ↔ piece.style = none := by
  intro piece hpiece c hc
  rcases mem_textPieces hpiece with rfl | ⟨rule, hrule, text, style, hmem, rfl⟩
  · exact iff_of_true (List.mem_singleton.mp hc) rfl
  · have hstands : c ∈ charsOf (linePieces mode rule) :=
      List.mem_flatMap.mpr ⟨_, List.mem_map_of_mem hmem, hc⟩
    rw [charsOf_linePieces] at hstands
    have hbreak := not_isLineBreak_of_mem_line mode (h rule hrule) c hstands
    refine iff_of_false ?_ (Option.some_ne_none style)
    rintro rfl
    exact absurd hbreak (by decide)

theorem filterMap_linePieces (mode : Mode) (rule : String × Part) :
    ((linePieces mode rule).filterMap fun piece => piece.style.map (piece.chars, ·)) =
      (highlighted mode rule).map fun piece => (piece.1.toList, piece.2) := by
  rw [linePieces, List.filterMap_map, ← List.filterMap_eq_map]
  rfl

theorem filterMap_textPieces (mode : Mode) (rules : List (String × Part)) :
    ((textPieces mode rules).filterMap fun piece => piece.style.map (piece.chars, ·)) =
      (rules.flatMap (highlighted mode)).map fun piece => (piece.1.toList, piece.2) := by
  cases rules with
  | nil => rfl
  | cons rule rules =>
    rw [textPieces, List.map_cons, Text.intercalate_cons, List.filterMap_append,
      filterMap_linePieces, List.flatMap_map, List.filterMap_flatMap, List.flatMap_cons,
      List.map_append, List.map_flatMap]
    refine congrArg _ (List.flatMap_congr fun next _ => ?_)
    rw [List.filterMap_cons, filterMap_linePieces]
    rfl

/-- The pieces of the spans are what is highlighted of the definitions, in their order. -/
theorem map_spansFrom_textPieces (mode : Mode) (rules : List (String × Part)) :
    (spansFrom 0 (textPieces mode rules)).map (fun span =>
        (String.ofList ((charsOf (textPieces mode rules)).extract span.start span.stop),
          span.style)) =
      rules.flatMap (highlighted mode) := by
  have hextract := map_extract_spansFrom [] (textPieces mode rules)
  rw [filterMap_textPieces] at hextract
  have hstrings := congrArg (List.map fun piece => (String.ofList piece.1, piece.2)) hextract
  rw [List.map_map, List.map_map] at hstrings
  refine hstrings.trans ?_
  rw [List.map_congr_left fun piece _ => ?_, List.map_id']
  simp

end Registry

namespace Program

open Registry

variable {α : Type}

/-- The text of a grammar of a run is highlighted as what was written: for each definition in turn
the token of its name, the operator and, unless it is empty, the expression, with nothing between
them and a line feed after them. The text itself is not changed, and the spans, which follow one
another without overlap, cover all of it but the line feeds between definitions. -/
theorem highlighted_as_written (p : Program α) (o : Options) (g : Grammar) (hg : g ∈ p.grammars o)
    (rules : List (String × Part)) (hrules : g.rules = .ofParts rules)
    (hkept : ∀ rule ∈ rules, Keeps rule) (mode : Mode) :
    ∃ text, g.rules.render mode = .ok text ∧
      let styled := Highlight.text mode text
      styled.chars = text.toList ∧
      styled.spans = Styled.spansFrom 0 (textPieces mode rules) ∧
      styled.spans.map (fun span =>
          (String.ofList (styled.chars.extract span.start span.stop), span.style)) =
        rules.flatMap (highlighted mode) ∧
      (styled.spans.Pairwise fun a b => a.stop ≤ b.start) ∧
      (∀ span ∈ styled.spans, span.start < span.stop) ∧
      ∀ i, (∃ span ∈ styled.spans, span.start ≤ i ∧ i < span.stop) ↔
        ∃ c, styled.chars[i]? = some c ∧ c ≠ '\n' := by
  have hnames : ∀ rule ∈ rules, Name.isBlank rule.1 = false := by
    have h := p.not_isBlank_of_mem_grammars g hg
    rw [hrules, names_ofParts] at h
    exact List.forall_mem_map.mp h
  refine ⟨_, by rw [hrules, render_ofParts], ?_⟩
  rw [highlight_text hnames hkept]
  refine ⟨charsOf_textPieces mode rules, rfl, map_spansFrom_textPieces mode rules,
    Styled.pairwise_spansFrom 0 _, fun span => ?_, fun i => ?_⟩
  · exact Styled.start_lt_stop_of_mem_spansFrom (chars_ne_nil_of_mem_textPieces hnames)
  · have hcovered := Styled.covered_spansFrom_iff 0 (feed_iff_of_mem_textPieces mode hkept) i
    simpa [Styled.ofPieces] using hcovered

def operatorRules : List (String × Part) :=
  [("pairSign", .sequence [.literal "a ::= b: c", .range "[: ]" none] none),
    ("nothing", .sequence [] none), (Name.root, .ref "pairSign" none)]

def definingOperatorRules : Program Unit :=
  .define "pairSign" (fun _ =>
      .done (.ok (.part (.sequence [.literal "a ::= b: c", .range "[: ]" none] none)))) fun _ =>
    .define "nothing" (fun _ => .done (.ok (.part (.sequence [] none)))) fun _ =>
      .root (fun b => .done (b.ref "pairSign")) .done

theorem operatorRules_highlighted :
    (Session.exec {} definingOperatorRules.run).2.grammar.rules = .ofParts operatorRules ∧
    (Registry.ofParts operatorRules).render .ebnf =
      .ok "pair_sign: \"a ::= b: c\" /[: ]/\nnothing: \nstart: pair_sign" ∧
    (Highlight.text .ebnf
        "pair_sign: \"a ::= b: c\" /[: ]/\nnothing: \nstart: pair_sign").spans =
      [⟨0, 9, .head⟩, ⟨9, 11, .head⟩, ⟨11, 30, .expression⟩, ⟨31, 38, .head⟩, ⟨38, 40, .head⟩,
        ⟨41, 46, .head⟩, ⟨46, 48, .head⟩, ⟨48, 57, .expression⟩] := by
  have hrules : (Session.exec {} definingOperatorRules.run).2.grammar.rules =
      .ofParts operatorRules := by cbv
  have hrender : (Registry.ofParts operatorRules).render .ebnf =
      .ok "pair_sign: \"a ::= b: c\" /[: ]/\nnothing: \nstart: pair_sign" := by cbv
  have hkept : ∀ rule ∈ operatorRules, Keeps rule := by
    have hall : operatorRules.all fun rule => rule.2.texts.all fun text =>
        text.toList.all fun c => !Highlight.isLost c := by cbv
    simp only [List.all_eq_true, Bool.not_eq_true'] at hall
    exact hall
  obtain ⟨text, htext, -, hspans, -⟩ := highlighted_as_written definingOperatorRules {} _
    definingOperatorRules.grammar_exec_mem_grammars operatorRules hrules hkept .ebnf
  rw [hrules, hrender] at htext
  rw [← Except.ok.inj htext] at hspans
  refine ⟨hrules, hrender, hspans.trans ?_⟩
  decide +kernel

end Program
end GrammarRules
