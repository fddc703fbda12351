import GrammarRules.Proofs.Part.Readable

/-!
# Normal forms

The normal form of a part is a list of items. The parts of a sequence without a cardinality stand
in the list itself, a sequence with one is a group of one alternative, and a choice is a group with
an alternative for each option. An empty item stands for a sequence without parts, and it is the
only alternative of a choice without options. The text of a part is the text of its normal form.
-/

namespace GrammarRules

inductive Item where
  | empty
  | literal (text : String)
  | name (token : String) (cardinality : Option Cardinality)
  | range (pattern : String) (cardinality : Option Cardinality)
  | group (alternatives : List (List Item)) (cardinality : Option Cardinality)

namespace Item

def orEmpty : List (List Item) → List (List Item)
  | [] => [[.empty]]
  | lists => lists

mutual

def chars (mode : Mode) : Item → List Char
  | .empty => []
  | .literal text => Text.quotedChars text.toList
  | .name token cardinality => token.toList ++ Part.glyphChars cardinality
  | .range pattern cardinality => Part.patternChars mode pattern ++ Part.glyphChars cardinality
  | .group alternatives cardinality =>
      '(' :: ([' ', '|', ' '].intercalate (charsOfLists mode alternatives) ++
        ')' :: Part.glyphChars cardinality)

def charsOfAll (mode : Mode) : List Item → List (List Char)
  | [] => []
  | item :: items => item.chars mode :: charsOfAll mode items

def charsOfLists (mode : Mode) : List (List Item) → List (List Char)
  | [] => []
  | items :: lists => [' '].intercalate (charsOfAll mode items) :: charsOfLists mode lists

end

def written (mode : Mode) (items : List Item) : List Char :=
  [' '].intercalate (charsOfAll mode items)

theorem written_cons (mode : Mode) (item : Item) {items : List Item} (h : items ≠ []) :
    written mode (item :: items) = item.chars mode ++ ' ' :: written mode items := by
  obtain ⟨item', rest, rfl⟩ := List.exists_cons_of_ne_nil h
  simp [written, charsOfAll, List.intercalate_cons_cons]

theorem written_append (mode : Mode) {items items' : List Item} (h : items ≠ [])
    (h' : items' ≠ []) :
    written mode (items ++ items') = written mode items ++ ' ' :: written mode items' := by
  induction items with
  | nil => exact absurd rfl h
  | cons item items ih =>
    by_cases hnil : items = []
    · rw [hnil, List.singleton_append, written_cons mode item h']
      simp [written, charsOfAll]
    · rw [List.cons_append, written_cons mode item (by simp [hnil]), ih hnil,
        written_cons mode item hnil, List.append_assoc, List.cons_append]

theorem charsOfLists_eq_map (mode : Mode) (lists : List (List Item)) :
    charsOfLists mode lists = lists.map (written mode) := by
  induction lists with
  | nil => rfl
  | cons items lists ih => simp only [charsOfLists, ih, List.map_cons, written]

theorem written_flatten (mode : Mode) {lists : List (List Item)} (h : ∀ items ∈ lists, items ≠ []) :
    written mode lists.flatten = [' '].intercalate (lists.map (written mode)) := by
  induction lists with
  | nil => rfl
  | cons items lists ih =>
    obtain ⟨hitems, hlists⟩ := List.forall_mem_cons.mp h
    cases lists with
    | nil => simp
    | cons items' lists =>
      have hne : (items' :: lists).flatten ≠ [] := by
        simp [(List.forall_mem_cons.mp hlists).1]
      rw [List.flatten_cons, written_append mode hitems hne, ih hlists, List.map_cons,
        List.map_cons, List.map_cons, List.intercalate_cons_cons, List.append_assoc,
        List.singleton_append]

theorem orEmpty_ne_nil (lists : List (List Item)) : orEmpty lists ≠ [] := by
  cases lists <;> simp [orEmpty]

theorem ne_nil_of_mem_orEmpty {lists : List (List Item)} (h : ∀ items ∈ lists, items ≠ [])
    {items : List Item} (hmem : items ∈ orEmpty lists) : items ≠ [] := by
  cases lists with
  | nil => simp [List.mem_singleton.mp hmem]
  | cons _ _ => exact h items hmem

theorem flatten_orEmpty_ne_nil {lists : List (List Item)} (h : ∀ items ∈ lists, items ≠ []) :
    (orEmpty lists).flatten ≠ [] := by
  obtain ⟨items, rest, heq⟩ := List.exists_cons_of_ne_nil (orEmpty_ne_nil lists)
  have hitems : items ≠ [] := ne_nil_of_mem_orEmpty h (by simp [heq])
  simp [heq, hitems]

/-- An alternative that holds the empty item alone is written as nothing, like no alternative. -/
theorem intercalate_written_orEmpty (mode : Mode) (separator : List Char)
    (lists : List (List Item)) :
    separator.intercalate ((orEmpty lists).map (written mode)) =
      separator.intercalate (lists.map (written mode)) := by
  cases lists with
  | nil => simp [orEmpty, written, charsOfAll, chars]
  | cons _ _ => rfl

end Item

namespace Part

mutual

def normal (mode : Mode) : Part → List Item
  | .literal text => [.literal text]
  | .sequence parts none => (Item.orEmpty (normalOfAll mode parts)).flatten
  | .sequence parts (some c) =>
      [.group [(Item.orEmpty (normalOfAll mode parts)).flatten] (some c)]
  | .oneOf options cardinality => [.group (Item.orEmpty (normalOfAll mode options)) cardinality]
  | .ref name cardinality => [.name (Name.token mode name) cardinality]
  | .range pattern cardinality => [.range pattern cardinality]

def normalOfAll (mode : Mode) : List Part → List (List Item)
  | [] => []
  | p :: ps => p.normal mode :: normalOfAll mode ps

end

theorem normalOfAll_eq_map (mode : Mode) (parts : List Part) :
    normalOfAll mode parts = parts.map (normal mode) := by
  induction parts with
  | nil => rfl
  | cons p ps ih => simp [normalOfAll, ih]

theorem normal_ne_nil (mode : Mode) (p : Part) : p.normal mode ≠ [] := by
  induction p with
  | literal text => simp [normal]
  | sequence parts c ih =>
    cases c with
    | none =>
      rw [normal, normalOfAll_eq_map]
      exact Item.flatten_orEmpty_ne_nil (by simpa using ih)
    | some c => simp [normal]
  | oneOf options c ih => simp [normal]
  | ref name c => simp [normal]
  | range pattern c => simp [normal]

/-- What stands between the blanks of a sequence is its parts, or the items of its parts. -/
theorem written_flatten_normal (mode : Mode) {parts : List Part}
    (h : ∀ p ∈ parts, Item.written mode (p.normal mode) = p.chars mode) :
    Item.written mode (Item.orEmpty (normalOfAll mode parts)).flatten =
      [' '].intercalate (charsOfAll mode parts) := by
  have hne : ∀ items ∈ normalOfAll mode parts, items ≠ [] := by
    rw [normalOfAll_eq_map]
    simpa using fun p _ => normal_ne_nil mode p
  rw [Item.written_flatten mode fun items hmem => Item.ne_nil_of_mem_orEmpty hne hmem,
    Item.intercalate_written_orEmpty, normalOfAll_eq_map, charsOfAll_eq_map, List.map_map]
  exact congrArg _ (List.map_congr_left h)

/-- The text of a part is the text of its normal form. -/
theorem written_normal (mode : Mode) (p : Part) :
    Item.written mode (p.normal mode) = p.chars mode := by
  induction p with
  | literal text => simp [normal, Item.written, Item.charsOfAll, Item.chars, chars]
  | sequence parts c ih =>
    have hparts := written_flatten_normal mode ih
    cases c with
    | none => rw [normal, chars, hparts]
    | some c =>
      rw [normal, chars, ← hparts]
      simp [Item.written, Item.charsOfAll, Item.chars, Item.charsOfLists, glyphChars]
  | oneOf options c ih =>
    have hoptions : [' ', '|', ' '].intercalate
        (Item.charsOfLists mode (Item.orEmpty (normalOfAll mode options))) =
          [' ', '|', ' '].intercalate (charsOfAll mode options) := by
      rw [Item.charsOfLists_eq_map, Item.intercalate_written_orEmpty, normalOfAll_eq_map,
        charsOfAll_eq_map, List.map_map]
      exact congrArg _ (List.map_congr_left ih)
    rw [normal, chars, ← hoptions]
    simp [Item.written, Item.charsOfAll, Item.chars]
  | ref name c => simp [normal, Item.written, Item.charsOfAll, Item.chars, chars]
  | range pattern c => simp [normal, Item.written, Item.charsOfAll, Item.chars, chars]

end Part
end GrammarRules
