import GrammarRules.Proofs.Part.Readable

/-!
# The lexemes of written parts

A written part is read from left to right by a machine that only knows which lexeme it is in:
a literal, a range, a name as far as it goes, or none, where every other character is a mark of its
own. On the text of a readable part it finds the lexemes of the part, in either notation.
-/

namespace GrammarRules

inductive Lexeme where
  | literal (text : String)
  | range (pattern : String)
  | name (token : String)
  | mark (c : Char)
  deriving DecidableEq, Repr

/-- What ends at its closing character, unless there is a backslash in front of that. -/
inductive Delimited where
  | quoted
  | bracketed
  | slashed
  deriving DecidableEq, Repr

namespace Delimited

def closing : Delimited → Char
  | .quoted => '"'
  | .bracketed => ']'
  | .slashed => '/'

def ofOpening? (c : Char) : Option Delimited :=
  if c = '"' then some .quoted
  else if c = '[' then some .bracketed
  else if c = '/' then some .slashed
  else none

def lexeme (d : Delimited) (body : List Char) : Lexeme :=
  match d with
  | .quoted => .literal (String.ofList body)
  | .bracketed => .range (String.ofList ('[' :: (body ++ [']'])))
  | .slashed => .range (String.ofList body)

def escape (d : Delimited) (body : List Char) : List Char :=
  body.flatMap fun c => if c = d.closing then ['\\', c] else [c]

theorem escape_of_not_mem {d : Delimited} {body : List Char} (h : d.closing ∉ body) :
    d.escape body = body := by
  induction body with
  | nil => rfl
  | cons c cs ih =>
    obtain ⟨hc, hcs⟩ := List.ne_and_not_mem_of_not_mem_cons h
    have htail := ih hcs
    rw [escape] at htail
    rw [escape, List.flatMap_cons, if_neg hc.symm, htail, List.singleton_append]

end Delimited

/-- Where a reader of lexemes is, with the part of the lexeme that it has read. -/
inductive Scan where
  | between
  | name (read : List Char)
  | within (d : Delimited) (read : List Char)
  | escaped (d : Delimited) (read : List Char)

namespace Scan

def start (c : Char) : List Lexeme × Scan :=
  match Delimited.ofOpening? c with
  | some d => ([], .within d [])
  | none => if Name.isTokenChar c then ([], .name [c]) else ([.mark c], .between)

def next : Scan → Char → List Lexeme × Scan
  | .between, c => start c
  | .name read, c =>
      if Name.isTokenChar c then ([], .name (read ++ [c]))
      else (.name (String.ofList read) :: (start c).1, (start c).2)
  | .within d read, c =>
      if c = '\\' then ([], .escaped d read)
      else if c = d.closing then ([d.lexeme read], .between)
      else ([], .within d (read ++ [c]))
  | .escaped d read, c => ([], .within d (read ++ [c]))

def lexemes : Scan → List Char → List Lexeme
  | .name read, [] => [.name (String.ofList read)]
  | _, [] => []
  | scan, c :: cs => (scan.next c).1 ++ (scan.next c).2.lexemes cs

end Scan

def Lexeme.ofChars (cs : List Char) : List Lexeme := Scan.between.lexemes cs

namespace Part

def glyphLexemes (cardinality : Option Cardinality) : List Lexeme :=
  (glyphChars cardinality).map .mark

mutual

def lexemes (mode : Mode) : Part → List Lexeme
  | .literal text => [.literal text]
  | .sequence parts none => [.mark ' '].intercalate (lexemesOfAll mode parts)
  | .sequence parts (some c) =>
      .mark '(' :: ([.mark ' '].intercalate (lexemesOfAll mode parts) ++ [.mark ')', .mark c.glyph])
  | .oneOf options cardinality =>
      .mark '(' :: ([.mark ' ', .mark '|', .mark ' '].intercalate (lexemesOfAll mode options) ++
        .mark ')' :: glyphLexemes cardinality)
  | .ref name cardinality => .name (Name.token mode name) :: glyphLexemes cardinality
  | .range pattern cardinality => .range pattern :: glyphLexemes cardinality

def lexemesOfAll (mode : Mode) : List Part → List (List Lexeme)
  | [] => []
  | p :: ps => lexemes mode p :: lexemesOfAll mode ps

end

end Part

namespace Lexeme

open Scan

/-- The text goes on with something that does not prolong a name. -/
def EndsName (cs : List Char) : Prop := ∀ c ∈ cs.head?, Name.isTokenChar c = false

theorem endsName_nil : EndsName [] := fun _ h => nomatch h

theorem endsName_cons {c : Char} (cs : List Char) (h : Name.isTokenChar c = false) :
    EndsName (c :: cs) := by
  intro d hd
  rwa [← Option.some.inj hd]

def IsMark (c : Char) : Prop := Delimited.ofOpening? c = none ∧ Name.isTokenChar c = false

instance (c : Char) : Decidable (IsMark c) := inferInstanceAs (Decidable (_ ∧ _))

theorem ofChars_mark {c : Char} (h : IsMark c) (rest : List Char) :
    ofChars (c :: rest) = .mark c :: ofChars rest := by
  simp [ofChars, Scan.lexemes, next, start, h.1, h.2]

theorem ofChars_marks {cs : List Char} (h : ∀ c ∈ cs, IsMark c) (rest : List Char) :
    ofChars (cs ++ rest) = cs.map .mark ++ ofChars rest := by
  induction cs with
  | nil => rfl
  | cons c cs ih =>
    obtain ⟨hc, hcs⟩ := List.forall_mem_cons.mp h
    rw [List.cons_append, ofChars_mark hc, ih hcs]
    rfl

theorem lexemes_name {cs : List Char} (hcs : ∀ c ∈ cs, Name.isTokenChar c) {rest : List Char}
    (hrest : EndsName rest) (read : List Char) :
    (Scan.name read).lexemes (cs ++ rest) = .name (String.ofList (read ++ cs)) :: ofChars rest := by
  induction cs generalizing read with
  | nil =>
    cases rest with
    | nil => simp [Scan.lexemes, ofChars]
    | cons c rest =>
      have hc : Name.isTokenChar c = false := hrest c rfl
      simp [Scan.lexemes, next, hc, ofChars]
  | cons c cs ih =>
    obtain ⟨hc, hcs⟩ := List.forall_mem_cons.mp hcs
    simp only [List.cons_append, Scan.lexemes, next, if_pos hc, List.nil_append]
    rw [ih hcs, List.append_assoc, List.singleton_append]

theorem lexemes_within (d : Delimited) {cs : List Char} (hcs : '\\' ∉ cs) (rest read : List Char) :
    (Scan.within d read).lexemes (d.escape cs ++ d.closing :: rest) =
      d.lexeme (read ++ cs) :: ofChars rest := by
  induction cs generalizing read with
  | nil =>
    have hclosing : d.closing ≠ '\\' := by cases d <;> decide
    simp [Delimited.escape, Scan.lexemes, next, hclosing, ofChars]
  | cons c cs ih =>
    obtain ⟨hc, hcs⟩ := List.ne_and_not_mem_of_not_mem_cons hcs
    have hnext := ih hcs (read ++ [c])
    rw [List.append_assoc, List.singleton_append] at hnext
    rw [← hnext, Delimited.escape, List.flatMap_cons]
    by_cases hclosing : c = d.closing
    · simp [hclosing, Scan.lexemes, next, Delimited.escape]
    · simp [hclosing, Scan.lexemes, next, hc.symm, Delimited.escape]

theorem ofChars_quoted {cs : List Char} (h : '\\' ∉ cs) (rest : List Char) :
    ofChars (Text.quotedChars cs ++ rest) = .literal (String.ofList cs) :: ofChars rest := by
  have hescape : Text.escapeQuotes cs = Delimited.quoted.escape cs := by
    clear h
    induction cs with
    | nil => rfl
    | cons c cs ih =>
      rw [Text.escapeQuotes, ih, Delimited.escape, Delimited.escape, List.flatMap_cons]
      by_cases hc : c = '"' <;> simp [hc, Delimited.closing]
  have hwithin := lexemes_within .quoted h rest []
  rw [Text.quotedChars, hescape, List.cons_append, List.append_assoc]
  exact hwithin

theorem escapeSlashesFrom_eq_escape {cs : List Char} (h : '\\' ∉ cs) :
    Text.escapeSlashesFrom false cs = Delimited.slashed.escape cs := by
  induction cs with
  | nil => rfl
  | cons c cs ih =>
    obtain ⟨hc, hcs⟩ := List.ne_and_not_mem_of_not_mem_cons h
    simp only [Text.escapeSlashesFrom, decide_eq_false hc.symm, Bool.false_and, ih hcs]
    rw [Delimited.escape, Delimited.escape, List.flatMap_cons]
    by_cases hslash : c = '/' <;> simp [hslash, Delimited.closing]

theorem ofChars_pattern (mode : Mode) {pattern : String} (h : Part.IsClass pattern.toList)
    (rest : List Char) :
    ofChars (Part.patternChars mode pattern ++ rest) = .range pattern :: ofChars rest := by
  obtain ⟨body, hpattern, hbody⟩ := h
  have hback : '\\' ∉ body := fun hmem => (hbody _ hmem).2.2 rfl
  have hofList : String.ofList ('[' :: (body ++ [']'])) = pattern := by
    rw [← hpattern, String.ofList_toList]
  cases mode with
  -- the brackets delimit the lexeme
  | gbnf =>
    have hclosing : Delimited.bracketed.closing ∉ body := fun hmem => (hbody _ hmem).2.1 rfl
    have hwithin := lexemes_within .bracketed hback rest []
    rw [Delimited.escape_of_not_mem hclosing] at hwithin
    rw [Part.patternChars, hpattern, List.cons_append, List.append_assoc, ← hofList]
    exact hwithin
  -- the slashes do, and the brackets belong to the body
  | ebnf =>
    have hback : '\\' ∉ pattern.toList := by
      rw [hpattern]
      simp [hback]
    have hwithin := lexemes_within .slashed hback rest []
    rw [Part.patternChars, escapeSlashesFrom_eq_escape hback, List.cons_append, List.append_assoc]
    rw [List.nil_append, Delimited.lexeme, String.ofList_toList] at hwithin
    exact hwithin

/-- No character of a name opens another lexeme. -/
theorem ofOpening?_eq_none {c : Char} (h : Name.isTokenChar c) : Delimited.ofOpening? c = none := by
  by_contra hopen
  have hc : c = '"' ∨ c = '[' ∨ c = '/' := by
    simp only [Delimited.ofOpening?] at hopen
    split_ifs at hopen with hquote hbracket hslash
    · exact Or.inl hquote
    · exact Or.inr (Or.inl hbracket)
    · exact Or.inr (Or.inr hslash)
    · exact absurd rfl hopen
  rcases hc with rfl | rfl | rfl <;> exact absurd h (by decide)

theorem ofChars_token (mode : Mode) {name : String} (h : ∃ c ∈ name.toList, c.isAlphanum)
    {rest : List Char} (hrest : EndsName rest) :
    ofChars ((Name.token mode name).toList ++ rest) =
      .name (Name.token mode name) :: ofChars rest := by
  have hne := Name.token_ne_empty mode ((Name.not_isBlank_iff name).mpr h)
  have hchars : ∀ c ∈ (Name.token mode name).toList, Name.isTokenChar c :=
    fun c hc => Name.isTokenChar_of_mem_token mode hc
  cases hcs : (Name.token mode name).toList with
  | nil => exact absurd (String.toList_eq_nil_iff.mp hcs) hne
  | cons c cs =>
    rw [hcs] at hchars
    obtain ⟨hc, hcs'⟩ := List.forall_mem_cons.mp hchars
    have hstart : start c = ([], .name [c]) := by
      simp [start, ofOpening?_eq_none hc, hc]
    have hname := lexemes_name hcs' hrest [c]
    rw [ofChars, List.cons_append, Scan.lexemes, next, hstart, List.nil_append, hname,
      List.singleton_append, ← hcs, String.ofList_toList]

theorem isMark_glyph (cardinality : Cardinality) : IsMark cardinality.glyph := by
  cases cardinality <;> decide

theorem isMark_of_mem_blank : ∀ c ∈ [' '], IsMark c :=
  List.forall_mem_singleton.mpr (by decide)

theorem isMark_of_mem_bar : ∀ c ∈ [' ', '|', ' '], IsMark c :=
  List.forall_mem_cons.mpr ⟨by decide, List.forall_mem_cons.mpr ⟨by decide, isMark_of_mem_blank⟩⟩

theorem isMark_of_mem_glyphChars {cardinality : Option Cardinality} {c : Char}
    (h : c ∈ Part.glyphChars cardinality) : IsMark c := by
  cases cardinality with
  | none => simp [Part.glyphChars] at h
  | some cardinality =>
    rw [List.mem_singleton.mp h]
    exact isMark_glyph cardinality

theorem endsName_glyphChars (cardinality : Option Cardinality) {rest : List Char}
    (h : EndsName rest) : EndsName (Part.glyphChars cardinality ++ rest) := by
  cases cardinality with
  | none => exact h
  | some cardinality => exact endsName_cons rest (isMark_glyph cardinality).2

theorem ofChars_glyph (cardinality : Option Cardinality) (rest : List Char) :
    ofChars (Part.glyphChars cardinality ++ rest) =
      Part.glyphLexemes cardinality ++ ofChars rest :=
  ofChars_marks (fun _ => isMark_of_mem_glyphChars) rest

theorem ofChars_intercalate (mode : Mode) {separator : List Char} (hne : separator ≠ [])
    (hmark : ∀ c ∈ separator, IsMark c) {parts : List Part}
    (hparts : ∀ p ∈ parts, ∀ rest, EndsName rest →
      ofChars (p.chars mode ++ rest) = p.lexemes mode ++ ofChars rest)
    {rest : List Char} (hrest : EndsName rest) :
    ofChars (separator.intercalate (Part.charsOfAll mode parts) ++ rest) =
      (separator.map .mark).intercalate (Part.lexemesOfAll mode parts) ++ ofChars rest := by
  induction parts with
  | nil => rfl
  | cons p ps ih =>
    obtain ⟨hp, hps⟩ := List.forall_mem_cons.mp hparts
    cases ps with
    | nil => simpa [Part.charsOfAll, Part.lexemesOfAll] using hp rest hrest
    | cons q qs =>
      have hseparator : ∀ cs, EndsName (separator ++ cs) := by
        obtain ⟨c, cs, rfl⟩ := List.exists_cons_of_ne_nil hne
        exact fun _ => endsName_cons _ (hmark c List.mem_cons_self).2
      have hnext := ih hps
      simp only [Part.charsOfAll, Part.lexemesOfAll, List.intercalate_cons_cons,
        List.append_assoc] at hnext ⊢
      rw [hp _ (hseparator _), ofChars_marks hmark, hnext]

end Lexeme

namespace Part

open Lexeme

/-- The text of a readable part is read as the lexemes of the part, whatever comes after it. -/
theorem ofChars_chars (mode : Mode) {p : Part} (h : p.Readable) {rest : List Char}
    (hrest : EndsName rest) :
    Lexeme.ofChars (p.chars mode ++ rest) = p.lexemes mode ++ Lexeme.ofChars rest := by
  induction p generalizing rest with
  | literal text =>
    rw [chars, lexemes, ofChars_quoted h, String.ofList_toList, List.singleton_append]
  | sequence parts c ih =>
    have hparts := fun p hp rest => @ih p hp (allReadable_iff.mp h p hp) rest
    cases c with
    | none => exact ofChars_intercalate mode (by simp) isMark_of_mem_blank hparts hrest
    | some c =>
      have hclose : IsMark ')' := by decide
      have hinside := ofChars_intercalate mode (by simp) isMark_of_mem_blank hparts
        (endsName_cons (c.glyph :: rest) hclose.2)
      have hopen : IsMark '(' := by decide
      rw [chars, lexemes, List.cons_append, List.append_assoc, ofChars_mark hopen]
      simp only [List.cons_append, List.nil_append, List.append_assoc]
      rw [hinside, ofChars_mark hclose, ofChars_mark (isMark_glyph c)]
      rfl
  | oneOf options c ih =>
    have hoptions := fun p hp rest => @ih p hp (allReadable_iff.mp h p hp) rest
    have hclose : IsMark ')' := by decide
    have hinside := ofChars_intercalate mode (by simp) isMark_of_mem_bar hoptions
      (endsName_cons (glyphChars c ++ rest) hclose.2)
    have hopen : IsMark '(' := by decide
    rw [chars, lexemes, List.cons_append, List.append_assoc, ofChars_mark hopen]
    simp only [List.cons_append, List.append_assoc]
    rw [hinside, ofChars_mark hclose, ofChars_glyph]
    rfl
  | ref name c =>
    rw [chars, lexemes, List.append_assoc, ofChars_token mode h (endsName_glyphChars c hrest),
      ofChars_glyph, List.cons_append]
  | range pattern c =>
    rw [chars, lexemes, List.append_assoc, ofChars_pattern mode h, ofChars_glyph, List.cons_append]

theorem ofChars_render (mode : Mode) {p : Part} (h : p.Readable) :
    Lexeme.ofChars (p.render mode).toList = p.lexemes mode := by
  have hchars := ofChars_chars mode h endsName_nil
  rw [List.append_nil] at hchars
  rw [render, String.toList_ofList, hchars, Lexeme.ofChars, Scan.lexemes, List.append_nil]
  exact fun _ => nofun

end Part
end GrammarRules
