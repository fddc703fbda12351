import GrammarRules.Proofs.Session.Exec

/-!
# Cardinalities put on one after the other

Of the cardinalities that a builder puts on a node only the last counts. What the node is and holds
stays, nothing of an earlier cardinality is left, and the node is written as the same text with the
glyph of the last one after it. A builder that warns gives one warning for each step that replaces a
cardinality by a different one.
-/

namespace GrammarRules

namespace Part

def IsNode : Part → Prop
  | .literal _ => False
  | .sequence .. | .oneOf .. | .ref .. | .range .. => True

def withCardinality (c : Option Cardinality) : Part → Part
  | .literal text => .literal text
  | .sequence parts _ => .sequence parts c
  | .oneOf options _ => .oneOf options c
  | .ref name _ => .ref name c
  | .range pattern _ => .range pattern c

/-- What is written of a node before the glyph of its cardinality, the same in front of each. A
sequence is put in parentheses for the glyph, a choice stands in them anyway. -/
def grouped (mode : Mode) : Part → List Char
  | .literal text => Text.quotedChars text.toList
  | .sequence parts _ => '(' :: ([' '].intercalate (parts.map (chars mode)) ++ [')'])
  | .oneOf options _ => '(' :: ([' ', '|', ' '].intercalate (options.map (chars mode)) ++ [')'])
  | .ref name _ => (Name.token mode name).toList
  | .range pattern _ => patternChars mode pattern

theorem chars_withCardinality {p : Part} (hp : p.IsNode) (mode : Mode) (c : Cardinality) :
    (p.withCardinality (some c)).chars mode = p.grouped mode ++ [c.glyph] := by
  cases p with
  | literal text => exact hp.elim
  | sequence parts old =>
    simp only [withCardinality, grouped, chars, charsOfAll_eq_map, List.cons_append,
      List.append_assoc, List.nil_append]
  | oneOf options old =>
    simp only [withCardinality, grouped, chars, charsOfAll_eq_map, List.cons_append,
      List.append_assoc, List.nil_append]
    rfl
  | ref name old => rfl
  | range pattern old => rfl

end Part

/-- The changes that a node goes through whose cardinality is `old` at first: each cardinality put
on it that differs from the one it has at the time, behind that one. -/
def Cardinality.changes (old : Option Cardinality) (cs : List Cardinality) :
    List (Cardinality × Cardinality) :=
  ((old :: cs.map some).zip cs).filterMap fun
    | (some before, new) => if before = new then none else some (before, new)
    | (none, _) => none

theorem Cardinality.changes_cons (old : Option Cardinality) (c : Cardinality)
    (cs : List Cardinality) : changes old (c :: cs) = changes old [c] ++ changes (some c) cs := by
  unfold changes
  rw [List.map_cons, List.zip_cons_cons, ← List.singleton_append, List.filterMap_append]
  rfl

namespace Builder

variable (b : Builder)

def warnings (changes : List (Cardinality × Cardinality)) : List Event :=
  if b.warn then changes.map fun (old, new) => .cardinalityReplaced old new b.rule else []

def place : String :=
  match b.rule with
  | none => ""
  | some name => if name = "" then "" else " in rule '" ++ name ++ "'"

theorem warnings_append (changes changes' : List (Cardinality × Cardinality)) :
    b.warnings (changes ++ changes') = b.warnings changes ++ b.warnings changes' := by
  unfold warnings
  split
  · exact List.map_append
  · rfl

theorem replacing_eq_warnings (old : Option Cardinality) (c : Cardinality) :
    b.replacing old c = b.warnings (Cardinality.changes old [c]) := by
  unfold replacing warnings
  cases old with
  | none => simp [Cardinality.changes]
  | some before =>
    by_cases hsame : before = c
    · simp [Cardinality.changes, hsame]
    · simp [Cardinality.changes, hsame]

/-- One cardinality put on a node. -/
theorem repeated_withCardinality {p : Part} (hp : p.IsNode) (old : Option Cardinality)
    (c : Cardinality) : b.repeated c (.part (p.withCardinality old)) =
      .ok (.part (p.withCardinality (some c)), b.warnings (Cardinality.changes old [c])) := by
  rw [← replacing_eq_warnings]
  cases p with
  | literal text => exact hp.elim
  | _ => rfl

/-- What is logged of a change. -/
theorem message_cardinalityReplaced (old new : Cardinality) :
    (Event.cardinalityReplaced old new b.rule).message =
      "Rule had cardinality '" ++ old.text ++ "' which was overwritten by '" ++ new.text ++ "'" ++
        b.place := rfl

end Builder

namespace Session

def repeatedAll (b : Builder) (cs : List Cardinality) (value : Value) : Run Value :=
  cs.foldlM (fun value c => repeated b c value) value

/-- By induction on the cardinalities: the node goes on with the first of them for its own. -/
theorem exec_repeatedAll (b : Builder) {p : Part} (hp : p.IsNode) (old : Option Cardinality)
    (cs : List Cardinality) (s : Session) :
    s.exec (repeatedAll b cs (.part (p.withCardinality old))) =
      (.ok (.part (p.withCardinality (cs.getLast?.or old))),
        s.noted (b.warnings (Cardinality.changes old cs))) := by
  induction cs generalizing old s with
  | nil =>
    have hnone : b.warnings (Cardinality.changes old []) = [] := by
      simp [Cardinality.changes, Builder.warnings]
    rw [hnone, noted_nil]
    rfl
  | cons c cs ih =>
    have hlast : (c :: cs).getLast?.or old = cs.getLast?.or (some c) := by
      rw [List.getLast?_cons]
      cases cs.getLast? <;> rfl
    have hstep : s.exec (repeated b c (.part (p.withCardinality old))) =
        (.ok (.part (p.withCardinality (some c))),
          s.noted (b.warnings (Cardinality.changes old [c]))) := by
      rw [exec_repeated, b.repeated_withCardinality hp]
      rfl
    have hnext := ih (some c) (s.noted (b.warnings (Cardinality.changes old [c])))
    unfold repeatedAll at hnext ⊢
    rw [List.foldlM_cons, exec_bind, hstep]
    simp only
    rw [hnext, hlast, noted_noted, ← Builder.warnings_append, ← Cardinality.changes_cons]

/-- A node on which cardinalities were put keeps the last alone, whatever it had before, and is
written as it is without one, a sequence in parentheses, with the glyph of the last after it. The
warnings are one for each change, which tells the two glyphs and the rule of the builder, and none
if the builder does not warn. -/
theorem last_cardinality_counts (b : Builder) (p : Part) (hp : p.IsNode)
    (old : Option Cardinality) (cs : List Cardinality) (last : Cardinality) (s : Session) :
    let changes := Cardinality.changes old (cs ++ [last])
    s.exec (repeatedAll b (cs ++ [last]) (.part (p.withCardinality old))) =
      (.ok (.part (p.withCardinality (some last))), s.noted (b.warnings changes)) ∧
    (∀ mode, (p.withCardinality (some last)).render mode =
      String.ofList (p.grouped mode ++ [last.glyph])) ∧
    (b.warnings changes).map (fun e => (e.level, e.message)) =
      if b.warn then changes.map fun (before, new) =>
        (.warning, "Rule had cardinality '" ++ before.text ++ "' which was overwritten by '" ++
          new.text ++ "'" ++ b.place)
      else [] := by
  intro changes
  refine ⟨?_, fun mode => ?_, ?_⟩
  · rw [exec_repeatedAll b hp, List.getLast?_concat, Option.some_or]
  · rw [Part.render, Part.chars_withCardinality hp]
  · unfold Builder.warnings
    split
    · rw [List.map_map]
      refine List.map_congr_left fun change _ => ?_
      exact congrArg (Prod.mk _) (b.message_cardinalityReplaced change.1 change.2)
    · rfl

/-- The glyph of a range literal is replaced, then put on again, which is no change, and replaced
once more. -/
theorem digits_keep_last_of_four :
    (Builder.range {} "[0-9]+" = .ok (.part (.range "[0-9]" (some .oneOrMore)))) ∧
    Session.exec {} (repeatedAll { rule := some "digits" } [.optional, .optional, .zeroOrMore]
        (.part (.range "[0-9]" (some .oneOrMore)))) =
      (.ok (.part (.range "[0-9]" (some .zeroOrMore))),
        { events := [.cardinalityReplaced .oneOrMore .optional (some "digits"),
          .cardinalityReplaced .optional .zeroOrMore (some "digits")] }) ∧
    (Part.range "[0-9]" (some .zeroOrMore)).render .ebnf = "/[0-9]/*" ∧
    (Event.cardinalityReplaced .oneOrMore .optional (some "digits")).message =
      "Rule had cardinality '+' which was overwritten by '?' in rule 'digits'" := by
  have h := last_cardinality_counts { rule := some "digits" } (.range "[0-9]" none) trivial
    (some .oneOrMore) [.optional, .optional] .zeroOrMore {}
  exact ⟨by cbv, h.1, h.2.1 .ebnf, by decide⟩

end Session
end GrammarRules
