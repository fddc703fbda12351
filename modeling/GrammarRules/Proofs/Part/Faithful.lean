import GrammarRules.Proofs.Part.Item
import GrammarRules.Proofs.Part.Lexeme

/-!
# Texts tell normal forms

The lexemes of a part are read into items by a machine with a stack: an opening parenthesis pushes
the list that was being read, a closing one makes a group of what was read since and puts it into
that list. A blank starts an empty item, which the next lexeme fills. The machine reads the lexemes
of a part into its normal form. So two readable parts are written alike exactly if they have the
same normal form.
-/

namespace GrammarRules

def Item.withCardinality (c : Cardinality) : Item → Item
  | .name token _ => .name token (some c)
  | .range pattern _ => .range pattern (some c)
  | .group alternatives _ => .group alternatives (some c)
  | item => item

/-- A group that is being read: its alternatives so far, and the items of the one in progress. -/
structure Frame where
  closed : List (List Item) := []
  items : List Item := [.empty]

namespace Frame

variable (f : Frame)

def alternatives : List (List Item) := f.closed ++ [f.items]

def fill (item : Item) : Frame := { f with items := f.items.dropLast ++ [item] }

def blank : Frame := { f with items := f.items ++ [.empty] }

-- the blank in front of the bar has started an item that is none
def bar : Frame := ⟨f.closed ++ [f.items.dropLast], []⟩

def repeated (c : Cardinality) : Frame :=
  { f with items := f.items.dropLast ++ (f.items.getLast?.map (Item.withCardinality c)).toList }

end Frame

/-- A reader of lexemes: the group in progress, and those around it from the inside out. -/
structure Reader where
  frame : Frame := {}
  outer : List Frame := []

namespace Reader

variable (r : Reader) (closed : List (List Item)) (items : List Item) (outer : List Frame)

def mark (c : Char) : Reader :=
  if c = ' ' then { r with frame := r.frame.blank }
  else if c = '|' then { r with frame := r.frame.bar }
  else if c = '(' then ⟨{}, r.frame :: r.outer⟩
  else if c = ')' then
    match r.outer with
    | [] => r
    | f :: outer => ⟨f.fill (.group r.frame.alternatives none), outer⟩
  else
    match Cardinality.ofGlyph? c with
    | some c => { r with frame := r.frame.repeated c }
    | none => r

def next : Lexeme → Reader
  | .literal text => { r with frame := r.frame.fill (.literal text) }
  | .range pattern => { r with frame := r.frame.fill (.range pattern none) }
  | .name token => { r with frame := r.frame.fill (.name token none) }
  | .mark c => r.mark c

def readAll (lexemes : List Lexeme) : Reader := lexemes.foldl next r

theorem readAll_append (lexemes lexemes' : List Lexeme) :
    r.readAll (lexemes ++ lexemes') = (r.readAll lexemes).readAll lexemes' :=
  List.foldl_append

theorem readAll_cons (lexeme : Lexeme) (lexemes : List Lexeme) :
    r.readAll (lexeme :: lexemes) = (r.next lexeme).readAll lexemes := rfl

theorem readAll_nil : r.readAll [] = r := rfl

theorem next_blank : next ⟨⟨closed, items⟩, outer⟩ (.mark ' ') =
    ⟨⟨closed, items ++ [.empty]⟩, outer⟩ := rfl

theorem next_bar : next ⟨⟨closed, items ++ [.empty]⟩, outer⟩ (.mark '|') =
    ⟨⟨closed ++ [items], []⟩, outer⟩ := by
  simp [next, mark, Frame.bar]

theorem next_open : r.next (.mark '(') = ⟨⟨[], [.empty]⟩, r.frame :: r.outer⟩ := rfl

theorem next_close (f : Frame) :
    next ⟨f, ⟨closed, items ++ [.empty]⟩ :: outer⟩ (.mark ')') =
      ⟨⟨closed, items ++ [.group f.alternatives none]⟩, outer⟩ := by
  simp [next, mark, Frame.fill]

theorem next_glyph (item : Item) (c : Cardinality) :
    next ⟨⟨closed, items ++ [item]⟩, outer⟩ (.mark c.glyph) =
      ⟨⟨closed, items ++ [item.withCardinality c]⟩, outer⟩ := by
  cases c <;> simp [next, mark, Cardinality.glyph, Cardinality.ofGlyph?, Frame.repeated]

theorem readAll_glyphLexemes (item : Item) (c : Option Cardinality) :
    readAll ⟨⟨closed, items ++ [item]⟩, outer⟩ (Part.glyphLexemes c) =
      ⟨⟨closed, items ++ [c.elim item item.withCardinality]⟩, outer⟩ := by
  cases c with
  | none => rfl
  | some c => exact next_glyph closed items outer item c

theorem next_name (token : String) :
    next ⟨⟨closed, items ++ [.empty]⟩, outer⟩ (.name token) =
      ⟨⟨closed, items ++ [.name token none]⟩, outer⟩ := by
  simp [next, Frame.fill]

theorem next_range (pattern : String) :
    next ⟨⟨closed, items ++ [.empty]⟩, outer⟩ (.range pattern) =
      ⟨⟨closed, items ++ [.range pattern none]⟩, outer⟩ := by
  simp [next, Frame.fill]

theorem next_literal (text : String) :
    next ⟨⟨closed, items ++ [.empty]⟩, outer⟩ (.literal text) =
      ⟨⟨closed, items ++ [.literal text]⟩, outer⟩ := by
  simp [next, Frame.fill]

/-- The lexemes are read in place of an empty item as `given`, wherever the item stands. -/
def ReadsAs (lexemes : List Lexeme) (given : List Item) : Prop :=
  ∀ closed items outer, readAll ⟨⟨closed, items ++ [.empty]⟩, outer⟩ lexemes =
    ⟨⟨closed, items ++ given⟩, outer⟩

variable {mode : Mode} {parts : List Part}

theorem readsAs_sequence (h : ∀ p ∈ parts, ReadsAs (p.lexemes mode) (p.normal mode)) :
    ReadsAs ([.mark ' '].intercalate (Part.lexemesOfAll mode parts))
      (Item.orEmpty (Part.normalOfAll mode parts)).flatten := by
  intro closed items outer
  induction parts generalizing items with
  | nil => rfl
  | cons p ps ih =>
    obtain ⟨hp, hps⟩ := List.forall_mem_cons.mp h
    cases ps with
    | nil => simpa [Part.lexemesOfAll, Part.normalOfAll, Item.orEmpty] using hp closed items outer
    | cons q qs =>
      have hnext := ih hps (items ++ p.normal mode)
      simp only [Part.lexemesOfAll, Part.normalOfAll, Item.orEmpty, List.flatten_cons,
        List.intercalate_cons_cons, List.append_assoc] at hnext ⊢
      rw [readAll_append, hp closed items outer, List.singleton_append, readAll_cons, next_blank,
        List.append_assoc, hnext]

/-- What is read between the bars are the alternatives of the group in progress. -/
theorem readAll_options (h : ∀ p ∈ parts, ReadsAs (p.lexemes mode) (p.normal mode))
    (closed : List (List Item)) (outer : List Frame) :
    ∃ f : Frame, f.alternatives = closed ++ Item.orEmpty (Part.normalOfAll mode parts) ∧
      readAll ⟨⟨closed, [.empty]⟩, outer⟩
        ([.mark ' ', .mark '|', .mark ' '].intercalate (Part.lexemesOfAll mode parts)) =
          ⟨f, outer⟩ := by
  induction parts generalizing closed with
  | nil => exact ⟨⟨closed, [.empty]⟩, rfl, rfl⟩
  | cons p ps ih =>
    obtain ⟨hp, hps⟩ := List.forall_mem_cons.mp h
    have hfirst := hp closed [] outer
    rw [List.nil_append, List.nil_append] at hfirst
    cases ps with
    | nil =>
      refine ⟨⟨closed, p.normal mode⟩, rfl, ?_⟩
      simpa [Part.lexemesOfAll] using hfirst
    | cons q qs =>
      obtain ⟨f, hf, hread⟩ := ih hps (closed ++ [p.normal mode])
      refine ⟨f, ?_, ?_⟩
      · rw [hf]
        simp [Item.orEmpty, Part.normalOfAll]
      · simp only [Part.lexemesOfAll, List.intercalate_cons_cons, List.append_assoc] at hread ⊢
        -- blank, bar and blank leave an alternative that has its empty item, as at the start
        rw [readAll_append, hfirst, readAll_append]
        simp only [readAll_cons, readAll_nil, next_blank, next_bar]
        exact hread

theorem readsAs_group {inside : List Lexeme} {alternatives : List (List Item)}
    (h : ∀ outer, ∃ f : Frame, f.alternatives = alternatives ∧
      readAll ⟨⟨[], [.empty]⟩, outer⟩ inside = ⟨f, outer⟩) (c : Option Cardinality) :
    ReadsAs (.mark '(' :: (inside ++ .mark ')' :: Part.glyphLexemes c))
      [.group alternatives c] := by
  intro closed items outer
  obtain ⟨f, hf, hread⟩ := h (⟨closed, items ++ [.empty]⟩ :: outer)
  rw [readAll_cons, next_open, readAll_append, hread, readAll_cons, next_close,
    readAll_glyphLexemes, hf]
  cases c <;> rfl

/-- The lexemes of a part are read into its normal form. -/
theorem readsAs_normal (mode : Mode) (p : Part) : ReadsAs (p.lexemes mode) (p.normal mode) := by
  induction p with
  | literal text => exact fun closed items outer => next_literal closed items outer text
  | sequence parts c ih =>
    have hinside := readsAs_sequence ih
    cases c with
    | none => exact hinside
    | some c =>
      refine readsAs_group (fun outer => ⟨⟨[], _⟩, rfl, ?_⟩) (some c)
      exact hinside [] [] outer
  | oneOf options c ih => exact readsAs_group (readAll_options ih []) c
  | ref name c =>
    intro closed items outer
    rw [Part.lexemes, readAll_cons, next_name, readAll_glyphLexemes]
    cases c <;> rfl
  | range pattern c =>
    intro closed items outer
    rw [Part.lexemes, readAll_cons, next_range, readAll_glyphLexemes]
    cases c <;> rfl

end Reader

def Item.ofText (text : String) : List Item :=
  (Reader.readAll {} (Lexeme.ofChars text.toList)).frame.items

namespace Part

theorem ofText_render (mode : Mode) {p : Part} (h : p.Readable) :
    Item.ofText (p.render mode) = p.normal mode := by
  have hread := Reader.readsAs_normal mode p [] [] []
  rw [Item.ofText, ofChars_render mode h]
  exact congrArg (fun r : Reader => r.frame.items) hread

/-- Two readable parts are written alike exactly if they have the same normal form. -/
theorem render_eq_iff_normal_eq (mode : Mode) {a b : Part} (ha : a.Readable) (hb : b.Readable) :
    a.render mode = b.render mode ↔ a.normal mode = b.normal mode := by
  constructor
  · intro h
    rw [← ofText_render mode ha, h, ofText_render mode hb]
  · intro h
    rw [render, render, ← written_normal, ← written_normal, h]

/-- A sequence with a cardinality is written like a choice of one option. -/
theorem repeated_sequence_written_as_choice :
    let parts : List Part := [.ref "Foo" none, .sequence [] none, .range "[0-9]" (some .optional)]
    (∀ p ∈ parts, p.Readable) ∧
      (Part.sequence parts (some .oneOrMore)).render .ebnf =
        (Part.oneOf [.sequence parts none] (some .oneOrMore)).render .ebnf := by
  intro parts
  have hclass : IsClass "[0-9]".toList := ⟨['0', '-', '9'], by decide, by simp⟩
  have hname : ∃ c ∈ "Foo".toList, c.isAlphanum := ⟨'F', by decide, by decide⟩
  have hparts : AllReadable parts := ⟨hname, trivial, hclass, trivial⟩
  have hrepeated : (Part.sequence parts (some .oneOrMore)).Readable := hparts
  have hchoice : (Part.oneOf [.sequence parts none] (some .oneOrMore)).Readable := ⟨hparts, trivial⟩
  exact ⟨allReadable_iff.mp hparts, (render_eq_iff_normal_eq .ebnf hrepeated hchoice).mpr rfl⟩

end Part
end GrammarRules
