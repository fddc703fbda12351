import GrammarRules.Proofs.Part.Lexeme
import GrammarRules.Proofs.Registry.Parts

/-!
# What a written part mentions

The names in a text are its name lexemes, each with the cardinality whose glyph comes right after
it. In the text of a readable part they are the tokens of its references, from left to right and as
often as they occur. So the check of references looks at all that the text mentions, and at nothing
else.
-/

namespace GrammarRules

namespace Lexeme

def glyph? : List Lexeme → Option Cardinality
  | .mark c :: _ => Cardinality.ofGlyph? c
  | _ => none

def mentioned : List Lexeme → List (String × Option Cardinality)
  | [] => []
  | .name token :: rest => (token, glyph? rest) :: mentioned rest
  | .literal _ :: rest | .range _ :: rest | .mark _ :: rest => mentioned rest

theorem mentioned_marks (cs : List Char) (rest : List Lexeme) :
    mentioned (cs.map .mark ++ rest) = mentioned rest := by
  induction cs with
  | nil => rfl
  | cons c cs ih => exact ih

theorem glyph?_glyphLexemes (c : Option Cardinality) {rest : List Lexeme} (h : glyph? rest = none) :
    glyph? (Part.glyphLexemes c ++ rest) = c := by
  cases c with
  | none => exact h
  | some c => exact Cardinality.ofGlyph?_glyph c

end Lexeme

def Ref.mention (mode : Mode) (ref : Ref) : String × Option Cardinality :=
  (Name.token mode ref.name, ref.cardinality)

namespace Part

open Lexeme

variable {mode : Mode} {parts : List Part}

/-- Between marks that are no glyphs the parts mention their references one after the other. -/
theorem mentioned_intercalate (separator : List Char)
    (hseparator : ∀ rest, glyph? (separator.map .mark ++ rest) = none)
    (hparts : ∀ p ∈ parts, ∀ rest, glyph? rest = none →
      mentioned (p.lexemes mode ++ rest) = p.refs.map (Ref.mention mode) ++ mentioned rest)
    (rest : List Lexeme) (hrest : glyph? rest = none) :
    mentioned ((separator.map .mark).intercalate (lexemesOfAll mode parts) ++ rest) =
      (refsOfAll parts).map (Ref.mention mode) ++ mentioned rest := by
  induction parts with
  | nil => rfl
  | cons p ps ih =>
    obtain ⟨hp, hps⟩ := List.forall_mem_cons.mp hparts
    cases ps with
    | nil => simpa [lexemesOfAll, refsOfAll] using hp rest hrest
    | cons q qs =>
      have hnext := ih hps
      simp only [lexemesOfAll, refsOfAll, List.intercalate_cons_cons, List.append_assoc,
        List.map_append] at hnext ⊢
      rw [hp _ (hseparator _), mentioned_marks, hnext]

/-- The lexemes of a part mention its references, whatever comes after them but a glyph. -/
theorem mentioned_lexemes (mode : Mode) (p : Part) (rest : List Lexeme)
    (hrest : glyph? rest = none) :
    mentioned (p.lexemes mode ++ rest) = p.refs.map (Ref.mention mode) ++ mentioned rest := by
  induction p generalizing rest with
  | literal text => rfl
  | sequence parts c ih =>
    have hinside := mentioned_intercalate [' '] (fun _ => rfl) ih
    cases c with
    | none => exact hinside rest hrest
    | some c =>
      rw [lexemes, refs, List.cons_append, mentioned, List.append_assoc]
      exact hinside (.mark ')' :: .mark c.glyph :: rest) rfl
  | oneOf options c ih =>
    have hinside := mentioned_intercalate [' ', '|', ' '] (fun _ => rfl) ih
      (.mark ')' :: (glyphLexemes c ++ rest)) rfl
    rw [mentioned, glyphLexemes, mentioned_marks] at hinside
    rw [lexemes, refs, List.cons_append, mentioned, List.append_assoc, List.cons_append]
    exact hinside
  | ref name c =>
    rw [lexemes, List.cons_append, mentioned, glyph?_glyphLexemes c hrest, glyphLexemes,
      mentioned_marks]
    rfl
  | range pattern c =>
    rw [lexemes, List.cons_append, mentioned, glyphLexemes, mentioned_marks]
    rfl

/-- The names that the text of a readable part holds outside of literals and ranges, each with the
glyph after it, are the tokens of its references with their cardinalities, from left to right. So
the check of references looks up the names that the text in GBNF mentions, no more and no fewer. -/
theorem names_mentioned_are_references (mode : Mode) {p : Part} (h : p.Readable) :
    mentioned (Lexeme.ofChars (p.render mode).toList) =
      p.refs.map (fun ref => (Name.token mode ref.name, ref.cardinality)) ∧
    ∀ key defined, ∃ pairs,
      Registry.danglingIn defined [(key, .part p)] = .ok pairs ∧
        pairs.map (fun pair => Name.token .gbnf pair.2) =
          ((mentioned (Lexeme.ofChars (p.render .gbnf).toList)).map Prod.fst).filter
            (· ∉ defined) := by
  have hmentioned : ∀ mode, mentioned (Lexeme.ofChars (p.render mode).toList) =
      p.refs.map (Ref.mention mode) := by
    intro mode
    have hlexemes := mentioned_lexemes mode p [] rfl
    rw [ofChars_render mode h]
    simpa [mentioned] using hlexemes
  refine ⟨hmentioned mode, fun key defined => ?_⟩
  have hdangling := @Registry.danglingIn_ofParts [(key, p)] defined
  refine ⟨_, hdangling, ?_⟩
  simp [hmentioned, Registry.missing, Ref.mention, List.filter_map, Function.comp_def]

/-- Names inside a literal or a range are not mentioned. -/
theorem names_mentioned_beside_literal_and_range :
    let p : Part := .sequence [.literal "dateYear \"x", .oneOf [.ref "dateYear" (some .optional),
      .range "[a-z/]" (some .zeroOrMore)] none, .ref "root" none] (some .oneOrMore)
    p.Readable ∧
      mentioned (Lexeme.ofChars (p.render .ebnf).toList) =
        [("date_year", some .optional), ("start", none)] := by
  intro p
  have hyear : ∃ c ∈ "dateYear".toList, c.isAlphanum := ⟨'d', by decide, by decide⟩
  have hroot : ∃ c ∈ "root".toList, c.isAlphanum := ⟨'r', by decide, by decide⟩
  have hclass : IsClass "[a-z/]".toList := ⟨['a', '-', 'z', '/'], by decide, by simp⟩
  have hliteral : '\\' ∉ "dateYear \"x".toList := by decide
  have hreadable : p.Readable := ⟨hliteral, ⟨hyear, hclass, trivial⟩, hroot, trivial⟩
  refine ⟨hreadable, ?_⟩
  rw [(names_mentioned_are_references .ebnf hreadable).1]
  cbv

end Part
end GrammarRules
