import GrammarRules.Proofs.Console.Printed

/-!
# Texts put together from styled pieces

A styled text is put together from pieces, some of which have a style. Its spans then are the places
of these pieces: they hold what the pieces hold, they come one after the other, and where only line
feeds have no style, they cover everything else.
-/

namespace GrammarRules.Styled

structure Piece where
  chars : List Char
  style : Option Style

def charsOf (pieces : List Piece) : List Char := pieces.flatMap Piece.chars

/-- The places of the pieces with a style, in a text in which the first piece stands at `start`. -/
def spansFrom (start : Nat) : List Piece → List Span
  | [] => []
  | ⟨cs, none⟩ :: pieces => spansFrom (start + cs.length) pieces
  | ⟨cs, some style⟩ :: pieces =>
      ⟨start, start + cs.length, style⟩ :: spansFrom (start + cs.length) pieces

def ofPieces (pieces : List Piece) : Styled := ⟨charsOf pieces, spansFrom 0 pieces⟩

variable {start : Nat} {pieces : List Piece} {span : Span}

theorem charsOf_append (pieces pieces' : List Piece) :
    charsOf (pieces ++ pieces') = charsOf pieces ++ charsOf pieces' :=
  List.flatMap_append

theorem spansFrom_append (start : Nat) (pieces pieces' : List Piece) :
    spansFrom start (pieces ++ pieces') =
      spansFrom start pieces ++ spansFrom (start + (charsOf pieces).length) pieces' := by
  induction pieces generalizing start with
  | nil => rfl
  | cons piece pieces ih =>
    obtain ⟨cs, _ | style⟩ := piece
    · simp only [List.cons_append, spansFrom, ih, charsOf, List.flatMap_cons, List.length_append,
        Nat.add_assoc]
    · simp only [List.cons_append, spansFrom, ih, charsOf, List.flatMap_cons, List.length_append,
        Nat.add_assoc]

/-- Adding a piece that is kept as it is. -/
theorem append_ofPieces (pieces : List Piece) {cs : List Char} (hne : cs ≠ [])
    (hcs : ∀ c ∈ cs, isControl c = false) (style : Style) :
    (ofPieces pieces).append cs style = ofPieces (pieces ++ [⟨cs, some style⟩]) := by
  have hempty : cs.isEmpty = false := by simpa using hne
  rw [append, hempty, visible_eq_self_iff.mpr hcs]
  simp [ofPieces, spansFrom_append, charsOf, spansFrom]

theorem newline_ofPieces (pieces : List Piece) :
    (ofPieces pieces).newline = ofPieces (pieces ++ [⟨['\n'], none⟩]) := by
  simp [newline, ofPieces, spansFrom_append, charsOf, spansFrom]

/-- The spans hold what the pieces with a style hold, in their order. -/
theorem map_extract_spansFrom (before : List Char) (pieces : List Piece) :
    (spansFrom before.length pieces).map
        (fun span => ((before ++ charsOf pieces).extract span.start span.stop, span.style)) =
      pieces.filterMap fun piece => piece.style.map (piece.chars, ·) := by
  induction pieces generalizing before with
  | nil => rfl
  | cons piece pieces ih =>
    obtain ⟨cs, style?⟩ := piece
    have hrest := ih (before ++ cs)
    rw [List.length_append, List.append_assoc] at hrest
    change (spansFrom (before.length + cs.length) pieces).map (fun span =>
      ((before ++ charsOf (⟨cs, style?⟩ :: pieces)).extract span.start span.stop, span.style)) = _
      at hrest
    cases style? with
    | none => exact hrest
    | some style =>
      have hfirst : (before ++ charsOf (⟨cs, some style⟩ :: pieces)).extract before.length
          (before.length + cs.length) = cs := by
        rw [List.extract_eq_take_drop, Nat.add_sub_cancel_left, List.drop_left]
        exact List.take_left
      rw [spansFrom, List.map_cons, hfirst, hrest]
      rfl

theorem le_start_of_mem_spansFrom (h : span ∈ spansFrom start pieces) : start ≤ span.start := by
  induction pieces generalizing start with
  | nil => cases h
  | cons piece pieces ih =>
    obtain ⟨cs, _ | style⟩ := piece
    · have hrest := ih h
      omega
    · rcases List.mem_cons.mp h with rfl | h
      · exact le_rfl
      · have hrest := ih h
        omega

theorem pairwise_spansFrom (start : Nat) (pieces : List Piece) :
    (spansFrom start pieces).Pairwise fun a b => a.stop ≤ b.start := by
  induction pieces generalizing start with
  | nil => exact List.Pairwise.nil
  | cons piece pieces ih =>
    obtain ⟨cs, _ | style⟩ := piece
    · exact ih _
    · exact List.pairwise_cons.mpr ⟨fun span hspan => le_start_of_mem_spansFrom hspan, ih _⟩

theorem start_lt_stop_of_mem_spansFrom (hne : ∀ piece ∈ pieces, piece.chars ≠ [])
    (h : span ∈ spansFrom start pieces) : span.start < span.stop := by
  induction pieces generalizing start with
  | nil => cases h
  | cons piece pieces ih =>
    obtain ⟨hpiece, hpieces⟩ := List.forall_mem_cons.mp hne
    obtain ⟨cs, _ | style⟩ := piece
    · exact ih hpieces h
    · rcases List.mem_cons.mp h with rfl | h
      · have hlength : 0 < cs.length := List.length_pos_of_ne_nil hpiece
        change start < start + cs.length
        omega
      · exact ih hpieces h

/-- A place that is not in the front of a text, which stands at `start`, is behind it. -/
theorem exists_getElem?_append_iff {P : Char → Prop} (front back : List Char) {i : Nat}
    (h : ¬(start ≤ i ∧ i < start + front.length)) :
    (start ≤ i ∧ ∃ c, (front ++ back)[i - start]? = some c ∧ P c) ↔
      start + front.length ≤ i ∧ ∃ c, back[i - (start + front.length)]? = some c ∧ P c := by
  by_cases hle : start + front.length ≤ i
  · have hindex : i - start - front.length = i - (start + front.length) := by omega
    have hstart : start ≤ i := by omega
    rw [List.getElem?_append_right (by omega), hindex]
    simp only [hle, hstart, true_and]
  · have hstart : ¬start ≤ i := by omega
    simp only [hle, hstart, false_and]

/-- Where the pieces without a style are the line feeds, the spans cover all other characters. By
induction on the pieces: a place is in the first one or behind it. -/
theorem covered_spansFrom_iff (start : Nat)
    (hfeeds : ∀ piece ∈ pieces, ∀ c ∈ piece.chars, c = '\n' ↔ piece.style = none) (i : Nat) :
    (∃ span ∈ spansFrom start pieces, span.start ≤ i ∧ i < span.stop) ↔
      start ≤ i ∧ ∃ c, (charsOf pieces)[i - start]? = some c ∧ c ≠ '\n' := by
  induction pieces generalizing start with
  | nil => simp [spansFrom, charsOf]
  | cons piece pieces ih =>
    obtain ⟨hpiece, hpieces⟩ := List.forall_mem_cons.mp hfeeds
    obtain ⟨cs, style?⟩ := piece
    have hrest := ih (start + cs.length) hpieces
    change _ ↔ start ≤ i ∧ ∃ c, (cs ++ charsOf pieces)[i - start]? = some c ∧ c ≠ '\n'
    by_cases hfirst : start ≤ i ∧ i < start + cs.length
    · have hlt : i - start < cs.length := by omega
      have hmem : cs[i - start] ∈ cs := List.getElem_mem hlt
      rw [List.getElem?_append_left hlt, List.getElem?_eq_getElem hlt]
      cases style? with
      | none =>
        have hfeed : cs[i - start] = '\n' := (hpiece _ hmem).mpr rfl
        have hnone : ¬∃ span ∈ spansFrom (start + cs.length) pieces,
            span.start ≤ i ∧ i < span.stop := by
          rw [hrest]
          omega
        simp [spansFrom, hnone, hfeed]
      | some style =>
        have hother : cs[i - start] ≠ '\n' := fun heq => nomatch (hpiece _ hmem).mp heq
        simp [spansFrom, hfirst, hother]
    · rw [exists_getElem?_append_iff cs (charsOf pieces) hfirst, ← hrest]
      cases style? with
      | none => rfl
      | some style => simp [spansFrom, hfirst]

end GrammarRules.Styled
