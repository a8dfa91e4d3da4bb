import Calculator.Proofs.Scanning.Tokenization

/-!
# Origins of a condensed text

The origins of the bytes of a condensed text never decrease (`pairwise_origins_ofChars`). An implied
`*` has the origin of the character behind it, and no other character has that, so the text and the
origins tell which products were implied and what was typed, and where (`same_ofChars_iff`).
-/

namespace Calculator

namespace Glyph

/-- The bytes of a glyph follow its offset. -/
lemma mem_origins_iff {g : Glyph} {byte : Nat} :
    byte ∈ g.origins ↔ g.offset ≤ byte ∧ byte < g.offset + g.char.utf8Size :=
  List.mem_range'_1

/-- The bytes of a glyph do not come from behind later ones. -/
lemma Leads.origins_le {g h : Glyph} (lead : Leads g h) :
    ∀ x ∈ g.origins, ∀ y ∈ h.origins, x ≤ y := by
  intro x hx y hy
  rw [mem_origins_iff] at hx hy
  rcases lead with before | ⟨offset, rfl, rfl⟩
  · omega
  · have star : (implied offset).char.utf8Size = 1 := rfl
    have same : (implied offset).offset = (typed ⟨'(', offset⟩).offset := rfl
    omega

/-- The character of the glyph and where it comes from. -/
def place (g : Glyph) : Placed where
  char := g.char
  offset := g.offset

/-- A typed character has its own place. -/
lemma place_typed (p : Placed) : place (typed p) = p := rfl

/-- A place is a character and an offset. -/
lemma place_eq_iff {g h : Glyph} : g.place = h.place ↔ g.char = h.char ∧ g.offset = h.offset := by
  rw [place, place, Placed.mk.injEq]

/-- Each character comes from where its first byte does. -/
lemma map_place_eq {l m : List Glyph} (chars : l.map char = m.map char)
    (origins : l.flatMap Glyph.origins = m.flatMap Glyph.origins) : l.map place = m.map place := by
  induction l generalizing m with
  | nil =>
    cases List.map_eq_nil_iff.1 chars.symm
    rfl
  | cons g l ih =>
    obtain ⟨h, m, rfl, same, rest⟩ := List.map_eq_cons_iff.1 chars.symm
    have len : g.origins.length = h.origins.length := by
      rw [Glyph.origins, Glyph.origins, List.length_range', List.length_range', same]
    obtain ⟨first, later⟩ := List.append_inj origins len
    have offset : g.offset = h.offset := by
      have head := congrArg List.head? first
      rw [Glyph.origins, Glyph.origins, List.head?_range', List.head?_range',
        if_neg (Char.utf8Size_pos _).ne', if_neg (Char.utf8Size_pos _).ne'] at head
      exact Option.some.inj head
    rw [List.map_cons, List.map_cons, ih rest.symm later, place, place, same, offset]

/-- A typed character is no implied `*`, for what follows has another place. -/
lemma not_map_place_eq {p q : Placed} {l : List Glyph} {before : Option Char} {m : List Placed}
    (later : ∀ r ∈ m, q.Before r)
    (h : (implied p.offset :: typed p :: l).map place =
      (typed q :: supplyProducts before m).map place) :
    False := by
  obtain ⟨first, rest⟩ := List.cons.inj h
  obtain ⟨g, _, e, second, -⟩ := List.map_eq_cons_iff.1 rest.symm
  obtain ⟨r, mem, offset⟩ := exists_mem_of_mem_supplyProducts (e ▸ List.mem_cons_self)
  have lt := (later r mem).offset_lt
  rw [place_eq_iff] at first second
  rw [← offset, second.2] at lt
  exact absurd first.2 (Nat.ne_of_gt lt)

/-- Characters and their places tell what was typed. -/
lemma eq_of_map_place_supplyProducts {b b' : Option Char} {l m : List Placed}
    (hl : l.Pairwise Placed.Before) (hm : m.Pairwise Placed.Before)
    (h : (supplyProducts b l).map place = (supplyProducts b' m).map place) : l = m := by
  induction l generalizing b b' m with
  | nil =>
    cases m with
    | nil => rfl
    | cons q m =>
      rw [supplyProducts, supplyProducts] at h
      split at h <;> cases h
  | cons p l ih =>
    cases m with
    | nil =>
      rw [supplyProducts, supplyProducts] at h
      split at h <;> cases h
    | cons q m =>
      obtain ⟨laterl, hl⟩ := List.pairwise_cons.1 hl
      obtain ⟨laterm, hm⟩ := List.pairwise_cons.1 hm
      rw [supplyProducts, supplyProducts] at h
      -- a product implied on one side only would leave two glyphs typed at one offset
      split at h
      · split at h
        · obtain ⟨-, rest⟩ := List.cons.inj h
          obtain ⟨same, rest⟩ := List.cons.inj rest
          rw [place_typed, place_typed] at same
          rw [same, ih hl hm rest]
        · exact (not_map_place_eq laterm h).elim
      · split at h
        · exact (not_map_place_eq laterl h.symm).elim
        · obtain ⟨same, rest⟩ := List.cons.inj h
          rw [place_typed, place_typed] at same
          rw [same, ih hl hm rest]

end Glyph

namespace Condensed

/-- The origins of a condensed text never decrease. -/
lemma pairwise_origins_ofChars (l : List Char) : (ofChars l).origins.Pairwise (· ≤ ·) := by
  refine List.pairwise_flatMap.2 ⟨fun g _ => List.pairwise_le_range', ?_⟩
  exact (Glyph.pairwise_leads (pairwise_offset_typed l)).imp fun lead => lead.origins_le

/-- The characters that are no blanks, each with the number of bytes before it. -/
def visible (l : List Char) : List (Nat × Char) :=
  (l.zipIdx.filter fun (c, _) => !Text.isBlank c).map fun (c, i) => (Text.byteLength (l.take i), c)

/-- The character at index `i` is placed behind those before it. -/
lemma getElem?_ofChars (offset : Nat) (l : List Char) (i : Nat) :
    (Placed.ofChars offset l)[i]? =
      l[i]?.map fun c => ⟨c, offset + Text.byteLength (l.take i)⟩ := by
  induction l generalizing offset i with
  | nil => rfl
  | cons c l ih =>
    cases i with
    | zero => rfl
    | succ i => simp [Placed.ofChars, ih, Nat.add_assoc]

/-- Places are counted from the beginning of the text. -/
lemma ofChars_eq_map_zipIdx (l : List Char) :
    Placed.ofChars 0 l = l.zipIdx.map fun (c, i) => ⟨c, Text.byteLength (l.take i)⟩ := by
  refine List.ext_getElem? fun i => ?_
  rw [getElem?_ofChars, List.getElem?_map, List.getElem?_zipIdx, Option.map_map]
  simp [Function.comp_def]

/-- What was typed, with characters and places in pairs. -/
lemma map_typed_eq_visible (l : List Char) :
    (typed l).map (fun p => (p.offset, p.char)) = visible l := by
  rw [typed, ofChars_eq_map_zipIdx, List.filter_map, List.map_map]
  rfl

/-- The pairs tell what was typed. -/
lemma typed_eq_iff {a b : List Char} : typed a = typed b ↔ visible a = visible b := by
  have injective : Function.Injective fun p : Placed => (p.offset, p.char) := by
    intro ⟨c, i⟩ ⟨d, j⟩ same
    cases same
    rfl
  rw [← map_typed_eq_visible, ← map_typed_eq_visible, List.map_inj_right injective]

/-- Text and origins tell what was typed. -/
lemma typed_eq_of_same {a b : List Char} (h : (ofChars a).Same (ofChars b)) :
    typed a = typed b := by
  have places : (ofChars a).glyphs.map Glyph.place = (ofChars b).glyphs.map Glyph.place :=
    Glyph.map_place_eq h.1 h.2
  exact Glyph.eq_of_map_place_supplyProducts (pairwise_offset_typed a)
    (pairwise_offset_typed b) places

/-- Condensed texts are the same with the same origins if and only if the same characters that are
no blanks were typed in the same places. -/
theorem same_ofChars_iff (a b : List Char) :
    ((ofChars a).Same (ofChars b) ↔ visible a = visible b) ∧
      ((ofChars a).Same (ofChars b) ↔ ofChars a = ofChars b) := by
  have glyphs (h : typed a = typed b) : ofChars a = ofChars b := by
    rw [ofChars, ofChars, h]
  have same (h : ofChars a = ofChars b) : (ofChars a).Same (ofChars b) := by
    rw [h]
    exact ⟨rfl, rfl⟩
  rw [← typed_eq_iff]
  exact ⟨⟨typed_eq_of_same, fun h => same (glyphs h)⟩, fun h => glyphs (typed_eq_of_same h), same⟩

end Condensed

end Calculator
