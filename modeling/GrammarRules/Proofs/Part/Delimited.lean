import GrammarRules.Combinators
import GrammarRules.Proofs.Part.Lexeme
import GrammarRules.Proofs.Part.WellFormed
import GrammarRules.Proofs.Text.Pieces

/-!
# Delimited tokens

A delimited token ends at the first closing character that no backslash escapes, and a character
is escaped if an odd run of backslashes stands in front of it. A literal is written with its
backslashes as they are, and a range as it is given. So the token of a literal is its whole text
exactly if the runs of backslashes in front of its double quotes and at its end are even, wherever
the literal stands in a rule. A range is one class, to which its glyph applies as a whole, exactly
if the runs in front of the inner closing brackets are odd and the last one is even.
-/

namespace GrammarRules

namespace Text

def backslashes (cs : List Char) : Nat := (cs.rtakeWhile (· = '\\')).length

/-- Whether the character after `cs` is escaped, if `escaped` tells so of the first one of `cs`. -/
def escapes (escaped : Bool) (cs : List Char) : Bool :=
  cs.foldl (fun escaped c => c = '\\' && !escaped) escaped

theorem escapes_cons (escaped : Bool) (c : Char) (cs : List Char) :
    escapes escaped (c :: cs) = escapes (c = '\\' && !escaped) cs := rfl

theorem escapes_concat (escaped : Bool) (cs : List Char) (c : Char) :
    escapes escaped (cs ++ [c]) = (c = '\\' && !escapes escaped cs) := by
  rw [escapes, List.foldl_append]
  rfl

theorem backslashes_concat (cs : List Char) (c : Char) :
    backslashes (cs ++ [c]) = if c = '\\' then backslashes cs + 1 else 0 := by
  by_cases hc : c = '\\'
  · rw [backslashes, List.rtakeWhile_concat_pos _ _ _ (by simpa using hc), if_pos hc,
      List.length_append]
    rfl
  · rw [backslashes, List.rtakeWhile_concat_neg _ _ _ (by simpa using hc), if_neg hc]
    rfl

theorem escapes_iff_odd (cs : List Char) : escapes false cs ↔ Odd (backslashes cs) := by
  induction cs using List.reverseRecOn with
  | nil => simp [escapes, backslashes]
  | append_singleton cs c ih =>
    rw [escapes_concat, backslashes_concat]
    by_cases hc : c = '\\'
    · simp [hc, Nat.odd_add_one, ← ih]
    · simp [hc]

theorem escapes_eq_false_iff_even (cs : List Char) :
    escapes false cs = false ↔ Even (backslashes cs) := by
  rw [← Nat.not_odd_iff_even, ← escapes_iff_odd, Bool.not_eq_true]

/-- What holds in front of each `d` of a text holds at its start, if that is a `d`, and in front of
each `d` of the rest. -/
theorem forall_before_cons_iff {P : List Char → Prop} {c d : Char} {cs : List Char} :
    (∀ front back, c :: cs = front ++ d :: back → P front) ↔
      (c = d → P []) ∧ ∀ front back, cs = front ++ d :: back → P (c :: front) := by
  constructor
  · intro h
    refine ⟨?_, fun front back heq => h (c :: front) back (by rw [heq, List.cons_append])⟩
    rintro rfl
    exact h [] cs rfl
  · rintro ⟨hstart, hrest⟩ front back heq
    cases front with
    | nil => exact hstart (List.cons.inj heq).1
    | cons e front =>
      obtain ⟨rfl, htail⟩ := List.cons.inj heq
      exact hrest front back htail

/-- An even run of backslashes stands in front of each double quote and at the end. -/
def IsQuotable (cs : List Char) : Prop :=
  (∀ front back, cs = front ++ '"' :: back → Even (backslashes front)) ∧ Even (backslashes cs)

end Text

/-- A class whose first closing bracket that is not escaped is its last character. -/
def Range.IsSingle (cs : List Char) : Prop :=
  ∃ body, cs = '[' :: (body ++ [']']) ∧
    (∀ front back, body = front ++ ']' :: back → Odd (Text.backslashes front)) ∧
    Even (Text.backslashes body)

namespace Delimited

open Text

def opening : Delimited → Char
  | .quoted => '"'
  | .bracketed => '['
  | .slashed => '/'

/-- What stands in front of the first closing character that is not escaped, and what follows it.
`escaped` tells whether the first character of the text is escaped. -/
def cut? (d : Delimited) (escaped : Bool) : List Char → Option (List Char × List Char)
  | [] => none
  | c :: cs =>
      if c = d.closing ∧ escaped = false then some ([], cs)
      else (d.cut? (c = '\\' && !escaped) cs).map fun (body, rest) => (c :: body, rest)

def read? (d : Delimited) : List Char → Option (List Char × List Char)
  | [] => none
  | c :: cs =>
      if c = d.opening then
        (d.cut? false cs).map fun (body, rest) => (c :: (body ++ [d.closing]), rest)
      else none

theorem cut?_eq_append {d : Delimited} {escaped : Bool} {cs body rest : List Char}
    (h : d.cut? escaped cs = some (body, rest)) : cs = body ++ d.closing :: rest := by
  induction cs generalizing escaped body with
  | nil => cases h
  | cons c cs ih =>
    unfold cut? at h
    split at h
    · next hclosing =>
      cases h
      rw [hclosing.1, List.nil_append]
    · obtain ⟨⟨body', rest'⟩, hcut, heq⟩ := Option.map_eq_some_iff.mp h
      cases heq
      rw [ih hcut, List.cons_append]

theorem cut?_cons_eq_some_iff {d : Delimited} {escaped : Bool} {c : Char}
    (h : ¬ (c = d.closing ∧ escaped = false)) {cs body rest : List Char} :
    d.cut? escaped (c :: cs) = some (c :: body, rest) ↔
      d.cut? (c = '\\' && !escaped) cs = some (body, rest) := by
  rw [cut?, if_neg h]
  cases d.cut? (c = '\\' && !escaped) cs <;> simp [Prod.ext_iff]

/-- The text up to a closing character is cut there if the closing characters in it are escaped and
this one is not. -/
theorem cut?_append_closing_iff (d : Delimited) (escaped : Bool) (body rest : List Char) :
    d.cut? escaped (body ++ d.closing :: rest) = some (body, rest) ↔
      (∀ front back, body = front ++ d.closing :: back → escapes escaped front = true) ∧
        escapes escaped body = false := by
  induction body generalizing escaped with
  | nil => cases escaped <;> simp [cut?, escapes]
  | cons c body ih =>
    rw [forall_before_cons_iff, List.cons_append, escapes_cons]
    by_cases hend : c = d.closing ∧ escaped = false
    · simp [cut?, hend, escapes]
    · have hstart : c = d.closing → escapes escaped [] = true := fun hc =>
        Bool.of_not_eq_false fun hescaped => hend ⟨hc, hescaped⟩
      rw [cut?_cons_eq_some_iff hend, ih, and_iff_right hstart]
      rfl

/-- The text of a literal is cut at the quote after it if no quote of the literal is escaped, nor
the quote after it. -/
theorem cut?_escapeQuotes_iff (escaped : Bool) (cs rest : List Char) :
    quoted.cut? escaped (escapeQuotes cs ++ '"' :: rest) = some (escapeQuotes cs, rest) ↔
      (∀ front back, cs = front ++ '"' :: back → escapes escaped front = false) ∧
        escapes escaped cs = false := by
  induction cs generalizing escaped with
  | nil => cases escaped <;> simp [escapeQuotes, cut?, closing, escapes]
  | cons c cs ih =>
    rw [forall_before_cons_iff, escapeQuotes, escapes_cons]
    by_cases hquote : c = '"'
    · subst hquote
      rw [if_pos rfl, List.cons_append, List.cons_append]
      cases escaped with
      -- the backslash that is put in escapes the quote
      | false =>
        have hstart : '"' = '"' → escapes false [] = false := fun _ => rfl
        rw [cut?_cons_eq_some_iff (by decide), cut?_cons_eq_some_iff (by decide), ih,
          and_iff_right hstart]
        rfl
      -- it is itself escaped, and the quote ends the token
      | true => simp [cut?, closing, escapes]
    · have hkept : ¬ (c = quoted.closing ∧ escaped = false) := fun h => hquote h.1
      rw [if_neg hquote, List.cons_append, cut?_cons_eq_some_iff hkept, ih,
        and_iff_right fun hc => absurd hc hquote]
      rfl

/-- A token that is read starts with its opening character and ends with its closing one, and is cut
off the text after the former. -/
theorem read?_eq_some_iff {d : Delimited} {cs token rest : List Char} :
    d.read? cs = some (token, rest) ↔ ∃ body, token = d.opening :: (body ++ [d.closing]) ∧
      cs = d.opening :: (body ++ d.closing :: rest) ∧
      d.cut? false (body ++ d.closing :: rest) = some (body, rest) := by
  cases cs with
  | nil => simp [read?]
  | cons c cs =>
    rw [read?]
    constructor
    · intro h
      split at h
      · next hopening =>
        obtain ⟨⟨body, rest'⟩, hcut, heq⟩ := Option.map_eq_some_iff.mp h
        cases heq
        have hcs := cut?_eq_append hcut
        rw [hcs] at hcut
        exact ⟨body, by rw [hopening], by rw [hopening, hcs], hcut⟩
      · cases h
    · rintro ⟨body, rfl, heq, hcut⟩
      obtain ⟨rfl, rfl⟩ := List.cons.inj heq
      rw [if_pos rfl, hcut]
      rfl

/-- A text is one token, whatever follows it, exactly if it is cut right after its opening character
in front of its last. -/
theorem read?_append_iff {d : Delimited} {cs rest : List Char} :
    d.read? (cs ++ rest) = some (cs, rest) ↔ ∃ body, cs = d.opening :: (body ++ [d.closing]) ∧
      d.cut? false (body ++ d.closing :: rest) = some (body, rest) := by
  rw [read?_eq_some_iff]
  refine exists_congr fun body => and_congr_right fun hcs => ?_
  rw [hcs, List.cons_append, List.append_assoc, List.singleton_append]
  exact and_iff_right rfl

/-- A written literal is one token, whatever follows it, exactly if its text is quotable. -/
theorem read?_quotedChars_iff (cs rest : List Char) :
    quoted.read? (quotedChars cs ++ rest) = some (quotedChars cs, rest) ↔ IsQuotable cs := by
  have hcut := cut?_escapeQuotes_iff false cs rest
  simp only [escapes_eq_false_iff_even] at hcut
  rw [read?_append_iff, IsQuotable, ← hcut]
  constructor
  · rintro ⟨body, htoken, hbody⟩
    have heq : escapeQuotes cs = body := List.append_cancel_right (List.cons.inj htoken).2
    rwa [heq]
  · intro h
    exact ⟨escapeQuotes cs, rfl, h⟩

/-- A text is one class, whatever follows it, exactly if its first closing bracket that is not
escaped is its last character. -/
theorem read?_bracketed_iff (cs rest : List Char) :
    bracketed.read? (cs ++ rest) = some (cs, rest) ↔ Range.IsSingle cs := by
  rw [read?_append_iff, Range.IsSingle]
  refine exists_congr fun body => and_congr_right fun _ => ?_
  rw [cut?_append_closing_iff, escapes_eq_false_iff_even]
  simp only [escapes_iff_odd]
  rfl

instance : DecidablePred IsQuotable := fun cs => decidable_of_iff _ (read?_quotedChars_iff cs [])

instance : DecidablePred Range.IsSingle := fun cs => decidable_of_iff _ (read?_bracketed_iff cs [])

end Delimited

namespace Part

open Delimited

theorem infix_intercalate_charsOfAll {mode : Mode} (separator : List Char) {parts : List Part}
    (h : ∀ p ∈ parts, ∀ q ∈ p.nodes, q.chars mode <:+: p.chars mode) :
    ∀ q ∈ nodesOfAll parts, q.chars mode <:+: separator.intercalate (charsOfAll mode parts) := by
  rw [forall_mem_nodesOfAll, charsOfAll_eq_map]
  intro p hp q hq
  exact (h p hp q hq).trans (Text.infix_intercalate (List.mem_map_of_mem hp))

/-- The text of each part inside a part stands in the text of that part. -/
theorem infix_chars_of_mem_nodes (mode : Mode) (p : Part) :
    ∀ q ∈ p.nodes, q.chars mode <:+: p.chars mode := by
  induction p with
  | literal text => simp [nodes]
  | sequence parts c ih =>
    refine List.forall_mem_cons.mpr ⟨List.infix_rfl, fun q hq => ?_⟩
    have hinside := infix_intercalate_charsOfAll [' '] ih q hq
    cases c with
    | none => exact hinside
    | some c => exact List.infix_cons (hinside.trans List.infix_append_left)
  | oneOf options c ih =>
    refine List.forall_mem_cons.mpr ⟨List.infix_rfl, fun q hq => ?_⟩
    have hinside := infix_intercalate_charsOfAll [' ', '|', ' '] ih q hq
    exact List.infix_cons (hinside.trans List.infix_append_left)
  | ref name c => simp [nodes]
  | range pattern c => simp [nodes]

/-- A written literal is one token exactly if even runs of backslashes stand in front of the double
quotes of its text and at the end. A literal stands in the text of every rule it belongs to, at any
depth, and wherever it stands there, what is read from its opening quote is the literal, and what
follows is left, exactly in this case. -/
theorem literal_token_iff_backslashes_even (text : String) :
    (quoted.read? (Text.quote text).toList = some ((Text.quote text).toList, []) ↔
      Text.IsQuotable text.toList) ∧
    ∀ (p : Part) (mode : Mode), .literal text ∈ p.nodes →
      (Text.quote text).toList <:+: (p.render mode).toList ∧
      ∀ before after, (p.render mode).toList = before ++ (Text.quote text).toList ++ after →
        (quoted.read? ((p.render mode).toList.drop before.length) =
            some ((Text.quote text).toList, after) ↔
          Text.IsQuotable text.toList) := by
  have hread := Delimited.read?_quotedChars_iff text.toList
  rw [Text.quote, String.toList_ofList]
  constructor
  · have hself := hread []
    rwa [List.append_nil] at hself
  · intro p mode hp
    have hstands := infix_chars_of_mem_nodes mode p _ hp
    rw [chars] at hstands
    rw [render, String.toList_ofList]
    refine ⟨hstands, fun before after heq => ?_⟩
    rw [heq, List.append_assoc, List.drop_left, hread after]

/-- A literal with two backslashes in front of a quote and two at its end, inside a choice. -/
theorem quotable_literal_read_in_choice :
    let p := oneOf [.sequence [.literal "a\\\\\"b\\\\", .ref "x" none] (some .optional)] none
    .literal "a\\\\\"b\\\\" ∈ p.nodes ∧
      (p.render .ebnf).toList =
        "((".toList ++ (Text.quote "a\\\\\"b\\\\").toList ++ " x)?)".toList ∧
      quoted.read? ((p.render .ebnf).toList.drop 2) =
        some ((Text.quote "a\\\\\"b\\\\").toList, " x)?)".toList) := by
  intro p
  have hp : .literal "a\\\\\"b\\\\" ∈ p.nodes := by simp [p, nodes, nodesOfAll]
  have hrender : (p.render .ebnf).toList =
      "((".toList ++ (Text.quote "a\\\\\"b\\\\").toList ++ " x)?)".toList := by cbv
  have hread := (literal_token_iff_backslashes_even "a\\\\\"b\\\\").2 p .ebnf hp
  exact ⟨hp, hrender, (hread.2 "((".toList " x)?)".toList hrender).mpr (by decide)⟩

/-- A backslash at the end of a literal, or in front of a double quote, makes the closing quote of
the literal or that quote part of something else: the literal is no token, and in a sequence it
takes in what follows it. -/
theorem backslash_moves_end_of_literal :
    (quoted.read? (Text.quote "\\").toList = none ∧
      quoted.read? (Text.quote "\\\"").toList = some ("\"\\\\\"".toList, ['"'])) ∧
    ∀ mode, ((sequence [.literal "\\", .literal "x"] none).render mode = "\"\\\" \"x\"" ∧
      quoted.read? "\"\\\" \"x\"".toList = some ("\"\\\" \"".toList, "x\"".toList)) := by
  refine ⟨⟨by decide, by decide⟩, fun mode => ?_⟩
  cases mode <;> decide

end Part

namespace Builder

open Delimited

/-- The pattern of an accepted range stands in brackets, and in GBNF the range is written as its
pattern and the glyph of its cardinality, whatever cardinality it is given. What is read as one
class is the whole pattern, so that the glyph applies to it, exactly if odd runs of backslashes stand
in front of the closing brackets inside it and an even one in front of the last. -/
theorem range_single_class_iff (b : Builder) (text : String) (v : Value)
    (h : b.range text = .ok v) :
    ∃ pattern c, v = .part (.range pattern c) ∧ Range.IsBracketed pattern.toList ∧
      text.toList = pattern.toList ++ Part.glyphChars c ∧
      (∀ (b' : Builder) (c' : Cardinality),
        ∃ events, b'.repeated c' v = .ok (.part (.range pattern (some c')), events)) ∧
      ∀ c', ((Part.range pattern c').render .gbnf).toList =
          pattern.toList ++ Part.glyphChars c' ∧
        (bracketed.read? ((Part.range pattern c').render .gbnf).toList =
            some (pattern.toList, Part.glyphChars c') ↔
          Range.IsSingle pattern.toList) := by
  unfold range at h
  split at h
  · next p hp =>
    cases h
    obtain ⟨pattern, c, rfl, hpattern, htext⟩ := Range.ofText?_spec hp
    refine ⟨pattern, c, rfl, hpattern, htext, fun b' c' => ⟨_, rfl⟩, fun c' => ?_⟩
    have hwritten : ((Part.range pattern c').render .gbnf).toList =
        pattern.toList ++ Part.glyphChars c' := by
      rw [Part.render, String.toList_ofList]
      rfl
    rw [hwritten]
    exact ⟨rfl, Delimited.read?_bracketed_iff pattern.toList (Part.glyphChars c')⟩
  · cases h

/-- A class with an escaped bracket and an escaped backslash at its end. -/
theorem range_escaped_bracket_single_class :
    range {} "[^\\]\\\\]+" = .ok (.part (.range "[^\\]\\\\]" (some .oneOrMore))) ∧
      bracketed.read? "[^\\]\\\\]+".toList = some ("[^\\]\\\\]".toList, ['+']) := by
  have hrange : range {} "[^\\]\\\\]+" =
      .ok (.part (.range "[^\\]\\\\]" (some .oneOrMore))) := by cbv
  refine ⟨hrange, ?_⟩
  obtain ⟨pattern, c, heq, -, -, -, hread⟩ := range_single_class_iff {} _ _ hrange
  cases heq
  have hsingle : Range.IsSingle "[^\\]\\\\]".toList := by decide
  exact (hread (some .oneOrMore)).2.mpr hsingle

/-- A glyph behind two classes applies to what follows the first, and a class whose last bracket is
escaped does not end at all. -/
theorem range_not_single_class :
    (range {} "[a]b]+" = .ok (.part (.range "[a]b]" (some .oneOrMore))) ∧
      (Part.range "[a]b]" (some .oneOrMore)).render .gbnf = "[a]b]+" ∧
      bracketed.read? "[a]b]+".toList = some ("[a]".toList, "b]+".toList)) ∧
    range {} "[a\\]" = .ok (.part (.range "[a\\]" none)) ∧
      bracketed.read? "[a\\]".toList = none := by
  refine ⟨⟨by cbv, by cbv, by decide⟩, by cbv, by decide⟩

end Builder
end GrammarRules
