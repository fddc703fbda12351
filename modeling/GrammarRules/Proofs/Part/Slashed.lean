import GrammarRules.Proofs.Part.Delimited
import GrammarRules.Proofs.Part.RangeLiteral

/-!
# Ranges between slashes

A pattern is written between slashes with a backslash in front of each slash that is not escaped.
What is written is read by the same scanner as the pattern: it stays in step with it, so that each
slash is escaped, nothing is left to escape, and without the backslashes in front of slashes it is
the pattern without them. A range ends with its bracket, and so the slash after it is not escaped
either: the first slash that is not escaped is the closing one.
-/

namespace GrammarRules

namespace Text

/-- An odd run of backslashes stands in front of each slash. -/
def SlashesEscaped (cs : List Char) : Prop :=
  ∀ front back, cs = front ++ '/' :: back → Odd (backslashes front)

/-- A text without the backslashes that escape a slash. `escaped` tells whether the first character
of the text is escaped. -/
def bareSlashesFrom (escaped : Bool) : List Char → List Char
  | [] => []
  | c :: cs =>
      let rest := bareSlashesFrom (c = '\\' && !escaped) cs
      if c = '\\' ∧ escaped = false ∧ cs.head? = some '/' then rest else c :: rest

def bareSlashes (pattern : String) : String :=
  String.ofList (bareSlashesFrom false pattern.toList)

variable {escaped : Bool} {c : Char}

theorem escapeSlashesFrom_slash (cs : List Char) :
    escapeSlashesFrom false ('/' :: cs) = '\\' :: '/' :: escapeSlashesFrom false cs := rfl

theorem escapeSlashesFrom_cons (h : ¬ (c = '/' ∧ escaped = false)) (cs : List Char) :
    escapeSlashesFrom escaped (c :: cs) = c :: escapeSlashesFrom (c = '\\' && !escaped) cs := by
  have hkept : ¬ (c = '/' && !escaped) = true := by simpa using h
  rw [escapeSlashesFrom, if_neg hkept]

theorem bareSlashesFrom_cons (h : ¬ (c = '\\' ∧ escaped = false)) (cs : List Char) :
    bareSlashesFrom escaped (c :: cs) = c :: bareSlashesFrom false cs := by
  have hnext : (c = '\\' && !escaped) = false := by simpa using h
  rw [bareSlashesFrom, if_neg fun hdrop => h ⟨hdrop.1, hdrop.2.1⟩, hnext]

/-- An escaped character is kept, and so is a slash in front of which no backslash is put. -/
theorem head?_escapeSlashesFrom_true (cs : List Char) :
    (escapeSlashesFrom true cs).head? = cs.head? := by
  cases cs with
  | nil => rfl
  | cons c cs => rw [escapeSlashesFrom_cons (by simp), List.head?_cons, List.head?_cons]

/-- The character after a text is escaped exactly if the one after its written form is. -/
theorem escapes_escapeSlashesFrom (escaped : Bool) (cs : List Char) :
    escapes escaped (escapeSlashesFrom escaped cs) = escapes escaped cs := by
  induction cs generalizing escaped with
  | nil => rfl
  | cons c cs ih =>
    by_cases hslash : c = '/' ∧ escaped = false
    · obtain ⟨rfl, rfl⟩ := hslash
      rw [escapeSlashesFrom_slash, escapes_cons, escapes_cons, escapes_cons]
      exact ih false
    · rw [escapeSlashesFrom_cons hslash, escapes_cons, escapes_cons, ih]

theorem escapes_before_slash (escaped : Bool) (cs : List Char) :
    ∀ front back, escapeSlashesFrom escaped cs = front ++ '/' :: back →
      escapes escaped front = true := by
  induction cs generalizing escaped with
  | nil => simp [escapeSlashesFrom]
  | cons c cs ih =>
    by_cases hslash : c = '/' ∧ escaped = false
    · obtain ⟨rfl, rfl⟩ := hslash
      rw [escapeSlashesFrom_slash, forall_before_cons_iff, forall_before_cons_iff]
      exact ⟨fun h => absurd h (by decide), fun _ => rfl, ih false⟩
    · rw [escapeSlashesFrom_cons hslash, forall_before_cons_iff]
      exact ⟨fun hc => Bool.of_not_eq_false fun hescaped => hslash ⟨hc, hescaped⟩, ih _⟩

/-- What has no slash to escape is written as it is. -/
theorem escapeSlashesFrom_eq_self {cs : List Char}
    (h : ∀ front back, cs = front ++ '/' :: back → escapes escaped front = true) :
    escapeSlashesFrom escaped cs = cs := by
  induction cs generalizing escaped with
  | nil => rfl
  | cons c cs ih =>
    obtain ⟨hstart, hrest⟩ := forall_before_cons_iff.mp h
    have hkept : ¬ (c = '/' ∧ escaped = false) := by
      rintro ⟨hc, rfl⟩
      exact absurd (hstart hc) Bool.false_ne_true
    rw [escapeSlashesFrom_cons hkept, ih hrest]

theorem bareSlashesFrom_escapeSlashesFrom (escaped : Bool) (cs : List Char) :
    bareSlashesFrom escaped (escapeSlashesFrom escaped cs) = bareSlashesFrom escaped cs := by
  induction cs generalizing escaped with
  | nil => rfl
  | cons c cs ih =>
    by_cases hslash : c = '/' ∧ escaped = false
    -- the backslash that is put in is taken out again
    · obtain ⟨rfl, rfl⟩ := hslash
      have hfirst : bareSlashesFrom false ('\\' :: '/' :: escapeSlashesFrom false cs) =
          bareSlashesFrom true ('/' :: escapeSlashesFrom false cs) := rfl
      rw [escapeSlashesFrom_slash, hfirst, bareSlashesFrom_cons (by decide),
        bareSlashesFrom_cons (by decide), ih]
    · rw [escapeSlashesFrom_cons hslash]
      by_cases hback : c = '\\' ∧ escaped = false
      -- the same character stands after a backslash, a slash or not
      · obtain ⟨rfl, rfl⟩ := hback
        have hnext : (decide ('\\' = '\\') && !false) = true := rfl
        rw [bareSlashesFrom, bareSlashesFrom, hnext, head?_escapeSlashesFrom_true, ih]
      · have hnext : (c = '\\' && !escaped) = false := by simpa using hback
        rw [bareSlashesFrom_cons hback, bareSlashesFrom_cons hback, hnext, ih]

end Text

namespace Delimited

open Text

/-- What is written between slashes is one token, whatever follows it, exactly if an even run of
backslashes stands at the end of the pattern. -/
theorem read?_slashed_iff (cs rest : List Char) :
    slashed.read? ('/' :: (escapeSlashesFrom false cs ++ '/' :: rest)) =
        some ('/' :: (escapeSlashesFrom false cs ++ ['/']), rest) ↔
      Even (backslashes cs) := by
  have hcut : slashed.cut? false (escapeSlashesFrom false cs ++ '/' :: rest) =
        some (escapeSlashesFrom false cs, rest) ↔ Even (backslashes cs) := by
    rw [← escapes_eq_false_iff_even, ← escapes_escapeSlashesFrom]
    refine (cut?_append_closing_iff slashed false _ rest).trans ?_
    exact and_iff_right (escapes_before_slash false cs)
  rw [← hcut, read?_eq_some_iff]
  constructor
  · rintro ⟨body, htoken, -, hbody⟩
    have heq : escapeSlashesFrom false cs = body :=
      List.append_cancel_right (List.cons.inj htoken).2
    rwa [heq]
  · intro h
    exact ⟨_, rfl, rfl, h⟩

end Delimited

theorem Range.IsBracketed.even_backslashes {cs : List Char} (h : Range.IsBracketed cs) :
    Even (Text.backslashes cs) := by
  obtain ⟨body, rfl⟩ := h
  rw [← List.cons_append, Text.backslashes_concat, if_neg (by decide)]
  exact Even.zero

namespace Builder

open Delimited Text

/-- Each slash of a written pattern is escaped, a written pattern is written as it is, and without
the backslashes that escape a slash it is what the pattern itself is without them. For an accepted
range and any cardinality, the first slash that is not escaped after the opening one is the closing
slash, and the glyph comes right after it. -/
theorem slashes_escaped_and_range_delimited (b : Builder) (text : String) :
    (SlashesEscaped (escapeSlashes text).toList ∧
      escapeSlashes (escapeSlashes text) = escapeSlashes text ∧
      bareSlashes (escapeSlashes text) = bareSlashes text) ∧
    ∀ v, b.range text = .ok v → ∃ pattern c, v = .part (.range pattern c) ∧
      text.toList = pattern.toList ++ Part.glyphChars c ∧
      ∀ c', ((Part.range pattern c').render .ebnf).toList =
          '/' :: ((escapeSlashes pattern).toList ++ '/' :: Part.glyphChars c') ∧
        slashed.read? ((Part.range pattern c').render .ebnf).toList =
          some ('/' :: ((escapeSlashes pattern).toList ++ ['/']), Part.glyphChars c') := by
  have hescaped := escapes_before_slash false text.toList
  constructor
  · refine ⟨fun front back heq => ?_, ?_, ?_⟩
    · rw [escapeSlashes, String.toList_ofList] at heq
      exact (escapes_iff_odd front).mp (hescaped front back heq)
    · rw [escapeSlashes, escapeSlashes, String.toList_ofList, escapeSlashesFrom_eq_self hescaped]
    · rw [bareSlashes, bareSlashes, escapeSlashes, String.toList_ofList,
        bareSlashesFrom_escapeSlashesFrom]
  · intro v hv
    obtain ⟨pattern, c, rfl, hpattern, rfl⟩ := range_eq_ok_iff.mp hv
    refine ⟨pattern, c, rfl, Part.toList_render_range_gbnf pattern c, fun c' => ?_⟩
    have hwritten : ((Part.range pattern c').render .ebnf).toList =
        '/' :: ((escapeSlashes pattern).toList ++ '/' :: Part.glyphChars c') := by
      rw [Part.render, Part.chars, Part.patternChars, escapeSlashes, String.toList_ofList,
        String.toList_ofList, List.cons_append, List.append_assoc, List.singleton_append]
    rw [hwritten, escapeSlashes, String.toList_ofList]
    exact ⟨rfl, (read?_slashed_iff _ _).mpr hpattern.even_backslashes⟩

/-- A class with a slash, an escaped slash, a slash behind an escaped backslash, and an escaped
backslash at its end. -/
theorem range_with_slashes_delimited :
    range {} "[/\\/\\\\/\\\\]+" = .ok (.part (.range "[/\\/\\\\/\\\\]" (some .oneOrMore))) ∧
      (Part.range "[/\\/\\\\/\\\\]" (some .optional)).render .ebnf =
        "/[\\/\\/\\\\\\/\\\\]/?" ∧
      slashed.read? "/[\\/\\/\\\\\\/\\\\]/?".toList =
        some ("/[\\/\\/\\\\\\/\\\\]/".toList, ['?']) := by
  have hrange : range {} "[/\\/\\\\/\\\\]+" =
      .ok (.part (.range "[/\\/\\\\/\\\\]" (some .oneOrMore))) := by cbv
  have hrender : (Part.range "[/\\/\\\\/\\\\]" (some .optional)).render .ebnf =
      "/[\\/\\/\\\\\\/\\\\]/?" := by cbv
  refine ⟨hrange, hrender, ?_⟩
  obtain ⟨pattern, c, heq, -, hwritten⟩ :=
    (slashes_escaped_and_range_delimited {} _).2 _ hrange
  cases heq
  have hread := (hwritten (some .optional)).2
  rw [hrender] at hread
  exact hread

end Builder
end GrammarRules
