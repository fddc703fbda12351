import GrammarRules.Proofs.Part.Readable

/-!
# Places of references

A place in a part is the path to it: the numbers of the children that lead there from the top.
Places are ordered like words in a dictionary, so that what stands to the left comes first.
`Part.places` lists the references of a part with their places. It lists every place of a reference,
in increasing order, and the references it lists are those of `Part.refs`.
-/

namespace GrammarRules

section Numbered

variable {α : Type}

/-- What was found in several things, with the number of the thing, from `i` on, in front of the
path inside it. -/
def numbered (i : Nat) : List (List (List Nat × α)) → List (List Nat × α)
  | [] => []
  | found :: more => found.map (fun place => (i :: place.1, place.2)) ++ numbered (i + 1) more

theorem map_snd_numbered (i : Nat) (all : List (List (List Nat × α))) :
    (numbered i all).map Prod.snd = all.flatMap (List.map Prod.snd) := by
  induction all generalizing i with
  | nil => rfl
  | cons found more ih =>
    rw [numbered, List.map_append, ih, List.flatMap_cons, List.map_map]
    rfl

theorem mem_numbered_iff {i : Nat} {all : List (List (List Nat × α))} {path : List Nat} {a : α} :
    (path, a) ∈ numbered i all ↔
      ∃ j rest found, path = (i + j) :: rest ∧ all[j]? = some found ∧ (rest, a) ∈ found := by
  induction all generalizing i with
  | nil => simp [numbered]
  | cons found more ih =>
    rw [numbered, List.mem_append, ih]
    constructor
    · rintro (h | ⟨j, rest, found', hpath, hfound, hmem⟩)
      · obtain ⟨place, hmem, heq⟩ := List.mem_map.mp h
        cases heq
        exact ⟨0, place.1, found, rfl, rfl, hmem⟩
      · exact ⟨j + 1, rest, found', by rw [hpath]; congr 1; omega, hfound, hmem⟩
    · rintro ⟨j, rest, found', rfl, hfound, hmem⟩
      cases j with
      | zero =>
        obtain rfl : found = found' := by simpa using hfound
        exact .inl (List.mem_map.mpr ⟨(rest, a), hmem, rfl⟩)
      | succ j => exact .inr ⟨j, rest, found', by congr 1; omega, hfound, hmem⟩

theorem mem_numbered_map_iff {β : Type} {f : β → List (List Nat × α)} {items : List β}
    {path : List Nat} {a : α} :
    (path, a) ∈ numbered 0 (items.map f) ↔
      ∃ i rest, path = i :: rest ∧ ∃ b, items[i]? = some b ∧ (rest, a) ∈ f b := by
  simp only [mem_numbered_iff, Nat.zero_add, List.getElem?_map, Option.map_eq_some_iff]
  constructor
  · rintro ⟨i, rest, _, hpath, ⟨b, hb, rfl⟩, hmem⟩
    exact ⟨i, rest, hpath, b, hb, hmem⟩
  · rintro ⟨i, rest, hpath, b, hb, hmem⟩
    exact ⟨i, rest, f b, hpath, ⟨b, hb, rfl⟩, hmem⟩

theorem pairwise_numbered {i : Nat} {all : List (List (List Nat × α))}
    (h : ∀ found ∈ all, found.Pairwise (·.1 < ·.1)) : (numbered i all).Pairwise (·.1 < ·.1) := by
  induction all generalizing i with
  | nil => exact .nil
  | cons found more ih =>
    obtain ⟨hfound, hmore⟩ := List.forall_mem_cons.mp h
    rw [numbered, List.pairwise_append]
    refine ⟨?_, ih hmore, ?_⟩
    · rw [List.pairwise_map]
      exact hfound.imp fun hlt => List.cons_lt_cons_iff.mpr (.inr ⟨rfl, hlt⟩)
    · rintro ⟨path, a⟩ ha ⟨path', b⟩ hb
      obtain ⟨place, -, heq⟩ := List.mem_map.mp ha
      obtain ⟨j, rest, -, rfl, -, -⟩ := mem_numbered_iff.mp hb
      cases heq
      exact List.cons_lt_cons_iff.mpr (.inl (by omega))

end Numbered

namespace Part

def at? (p : Part) : List Nat → Option Part
  | [] => some p
  | i :: path => p.children[i]?.bind fun q => q.at? path

def refAt? (p : Part) (path : List Nat) : Option Ref :=
  match p.at? path with
  | some (.ref name cardinality) => some ⟨name, cardinality⟩
  | _ => none

theorem refAt?_cons (p : Part) (i : Nat) (path : List Nat) :
    p.refAt? (i :: path) = p.children[i]?.bind fun q => q.refAt? path := by
  cases h : p.children[i]? <;> simp [refAt?, at?, h]

mutual

def places : Part → List (List Nat × Ref)
  | .literal _ => []
  | .sequence parts _ => numbered 0 (placesOfAll parts)
  | .oneOf options _ => numbered 0 (placesOfAll options)
  | .ref name cardinality => [([], ⟨name, cardinality⟩)]
  | .range _ _ => []

def placesOfAll : List Part → List (List (List Nat × Ref))
  | [] => []
  | p :: ps => p.places :: placesOfAll ps

end

theorem placesOfAll_eq_map (parts : List Part) : placesOfAll parts = parts.map places := by
  induction parts with
  | nil => rfl
  | cons p ps ih => rw [placesOfAll, ih, List.map_cons]

theorem map_snd_places (p : Part) : p.places.map Prod.snd = p.refs := by
  have hall : ∀ parts : List Part, (∀ p ∈ parts, p.places.map Prod.snd = p.refs) →
      (numbered 0 (placesOfAll parts)).map Prod.snd = refsOfAll parts := by
    intro parts ih
    rw [map_snd_numbered, placesOfAll_eq_map, List.flatMap_map, refsOfAll_eq_flatMap]
    exact List.flatMap_congr ih
  induction p with
  | literal text => rfl
  | sequence parts c ih => exact hall parts ih
  | oneOf options c ih => exact hall options ih
  | ref name c => rfl
  | range pattern c => rfl

theorem pairwise_places (p : Part) : p.places.Pairwise (·.1 < ·.1) := by
  have hall : ∀ parts : List Part, (∀ p ∈ parts, p.places.Pairwise (·.1 < ·.1)) →
      (numbered 0 (placesOfAll parts)).Pairwise (·.1 < ·.1) := by
    intro parts ih
    rw [placesOfAll_eq_map]
    exact pairwise_numbered (List.forall_mem_map.mpr ih)
  induction p with
  | literal text => exact .nil
  | sequence parts c ih => exact hall parts ih
  | oneOf options c ih => exact hall options ih
  | ref name c => exact List.pairwise_singleton _ _
  | range pattern c => exact .nil

theorem mem_numbered_placesOfAll_iff {parts : List Part} {path : List Nat} {ref : Ref}
    (h : ∀ p ∈ parts, ∀ path, (path, ref) ∈ p.places ↔ p.refAt? path = some ref) :
    (path, ref) ∈ numbered 0 (placesOfAll parts) ↔
      ∃ i rest, path = i :: rest ∧ (parts[i]?.bind fun q => q.refAt? rest) = some ref := by
  rw [placesOfAll_eq_map, mem_numbered_map_iff]
  simp only [Option.bind_eq_some_iff]
  refine exists₂_congr fun i rest => and_congr_right fun _ => exists_congr fun q => ?_
  exact and_congr_right fun hq => h q (List.mem_of_getElem? hq) rest

/-- Every place of a reference is listed, with the reference that stands there. -/
theorem mem_places_iff {p : Part} {path : List Nat} {ref : Ref} :
    (path, ref) ∈ p.places ↔ p.refAt? path = some ref := by
  induction p generalizing path with
  | literal text => cases path <;> simp [places, refAt?, at?, children]
  | sequence parts c ih =>
    refine (mem_numbered_placesOfAll_iff fun p hp _ => ih p hp).trans ?_
    cases path with
    | nil => simp [refAt?, at?]
    | cons i path => simp [refAt?_cons, children]
  | oneOf options c ih =>
    refine (mem_numbered_placesOfAll_iff fun p hp _ => ih p hp).trans ?_
    cases path with
    | nil => simp [refAt?, at?]
    | cons i path => simp [refAt?_cons, children]
  | ref name c => cases path <;> simp [places, refAt?, at?, children, eq_comm]
  | range pattern c => cases path <;> simp [places, refAt?, at?, children]

theorem mem_refs_iff {p : Part} {ref : Ref} : ref ∈ p.refs ↔ ∃ path, p.refAt? path = some ref := by
  rw [← map_snd_places, List.mem_map]
  constructor
  · rintro ⟨⟨path, _⟩, hmem, rfl⟩
    exact ⟨path, mem_places_iff.mp hmem⟩
  · rintro ⟨path, h⟩
    exact ⟨(path, ref), mem_places_iff.mpr h, rfl⟩

end Part
end GrammarRules
