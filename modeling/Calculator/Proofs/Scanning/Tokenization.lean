import Calculator.Proofs.Scanning.Pieces

/-!
# Tokenization

An expression is scanned for one item for each piece of its condensed text, and the span of an item
is where its piece comes from (`tokenization_ofChars`). Glyphs come from ever later places of the
expression, but for an implied `*`, which has the place of the `(` behind it (`Glyph.Precedes`). So
these two are the only items that share a span.
-/

namespace Calculator

open Text

/-- The items are what the text of `c` is cut into. -/
structure Tokenization (c : Condensed) (items : List Item) : Prop where
  /-- The pieces make up the text. -/
  complete : (pieces c.toChars).flatten = c.toChars
  /-- Every piece is read as one item. -/
  reading : List.Forall₂ Item.Reading (pieces c.toChars) items
  /-- No numeral ends where another one begins. -/
  apart : items.IsChain fun item next => ¬(item.isNumeral = true ∧ next.isNumeral = true)
  /-- An item spans what its piece comes from. -/
  range : ∀ i item, items[i]? = some item →
    c.span? (byteLength ((pieces c.toChars).take i).flatten)
      (byteLength ((pieces c.toChars).take (i + 1)).flatten) = some item.span
  /-- No item starts before an earlier one. -/
  ordered : items.Pairwise fun item later => item.span.offset ≤ later.span.offset
  /-- Two items share a span if they are an implied `*` and the `(` that implies it. -/
  shared : ∀ i j item later, i < j → items[i]? = some item → items[j]? = some later →
    (item.span = later.span ↔
      j = i + 1 ∧ ∃ offset, c.pieces[i]? = some [.implied offset] ∧
        c.pieces[j]? = some [.typed ⟨'(', offset⟩])

/-- Where a byte of a glyph comes from. -/
lemma getElem?_origins {c : Condensed} {done g rest k} (e : c.glyphs = done ++ g :: rest)
    (lt : k < g.char.utf8Size) :
    c.origins[byteLength (done.map Glyph.char) + k]? = some (g.offset + k) := by
  have len : (done.flatMap Glyph.origins).length = byteLength (done.map Glyph.char) :=
    Condensed.length_origins ⟨done⟩
  have inside : k < g.origins.length := by
    rwa [Glyph.origins, List.length_range']
  rw [Condensed.origins, e, List.flatMap_append, List.flatMap_cons, ← len,
    List.getElem?_append_right (Nat.le_add_right _ _), Nat.add_sub_cancel_left,
    List.getElem?_append_left inside, Glyph.origins, List.getElem?_range' lt, Nat.one_mul]

/-- The bytes of successive glyphs come from the span that these cover. -/
lemma span?_eq_cover {c : Condensed} {done piece rest} (e : c.glyphs = done ++ piece ++ rest)
    (ne : piece ≠ []) :
    c.span? (byteLength (done.map Glyph.char)) (byteLength ((done ++ piece).map Glyph.char)) =
      some ((piece.head ne).cover (piece.getLast ne)) := by
  have hl := Char.utf8Size_pos (piece.getLast ne).char
  have hf := Char.utf8Size_pos (piece.head ne).char
  have first : c.glyphs = done ++ piece.head ne :: (piece.tail ++ rest) := by
    rw [e, List.append_assoc, ← List.cons_append, List.cons_head_tail]
  have last : c.glyphs = (done ++ piece.dropLast) ++ piece.getLast ne :: rest := by
    conv_lhs => rw [e, ← List.dropLast_concat_getLast ne]
    simp
  have bytes : byteLength ((done ++ piece).map Glyph.char) =
      byteLength ((done ++ piece.dropLast).map Glyph.char) + (piece.getLast ne).char.utf8Size := by
    conv_lhs => rw [← List.dropLast_concat_getLast ne]
    simp [Nat.add_assoc]
  have lt : byteLength (done.map Glyph.char) < byteLength ((done ++ piece).map Glyph.char) := by
    rw [bytes, List.map_append, byteLength_append]
    omega
  -- the origins that are looked up are those of the first byte and of the last one
  have start := getElem?_origins first hf
  have stop := getElem?_origins last (Nat.sub_one_lt_of_lt hl)
  rw [Nat.add_zero, Nat.add_zero] at start
  rw [← Nat.add_sub_assoc hl, ← bytes] at stop
  have ends : (piece.getLast ne).offset + ((piece.getLast ne).char.utf8Size - 1) + 1 =
      (piece.getLast ne).offset + (piece.getLast ne).char.utf8Size := by omega
  rw [Condensed.span?, if_pos lt, start, stop]
  simp only [Option.bind_eq_bind, Option.bind_some, Option.pure_def, ends, Glyph.cover]

/-- The character ends where the other one starts, or before that. -/
def Placed.Before (p q : Placed) : Prop :=
  p.offset + p.char.utf8Size ≤ q.offset

/-- A character before another has a smaller offset. -/
lemma Placed.Before.offset_lt {p q : Placed} (h : p.Before q) : p.offset < q.offset :=
  Nat.lt_of_lt_of_le (Nat.lt_add_of_pos_right (Char.utf8Size_pos p.char)) h

/-- The characters of an expression come from ever later places. -/
lemma pairwise_offset_ofChars (offset : Nat) (l : List Char) :
    (∀ p ∈ Placed.ofChars offset l, offset ≤ p.offset) ∧
      (Placed.ofChars offset l).Pairwise Placed.Before := by
  induction l generalizing offset with
  | nil => exact ⟨by simp [Placed.ofChars], .nil⟩
  | cons c l ih =>
    obtain ⟨later, ordered⟩ := ih (offset + c.utf8Size)
    rw [Placed.ofChars]
    refine ⟨fun p mem => ?_, .cons later ordered⟩
    rcases List.mem_cons.1 mem with rfl | mem
    · exact Nat.le_refl _
    · exact Nat.le_of_add_right_le (later p mem)

/-- Typed characters come from ever later places. -/
lemma pairwise_offset_typed (l : List Char) : (Condensed.typed l).Pairwise Placed.Before :=
  (pairwise_offset_ofChars 0 l).2.sublist List.filter_sublist

namespace Glyph

/-- The glyph comes from an earlier place or is implied by the other one. -/
def Precedes (g h : Glyph) : Prop :=
  g.offset < h.offset ∨ ∃ offset, g = .implied offset ∧ h = .typed ⟨'(', offset⟩

/-- A glyph that precedes has no greater offset. -/
lemma Precedes.offset_le {g h : Glyph} (p : Precedes g h) : g.offset ≤ h.offset := by
  rcases p with lt | ⟨offset, rfl, rfl⟩
  · exact Nat.le_of_lt lt
  · exact Nat.le_refl _

/-- Each glyph has the place of a typed character. -/
lemma exists_mem_of_mem_supplyProducts {before l} {g : Glyph} (h : g ∈ supplyProducts before l) :
    ∃ p ∈ l, g.offset = p.offset := by
  induction l generalizing before with
  | nil => cases h
  | cons p l ih =>
    rw [supplyProducts] at h
    split at h
    · rcases List.mem_cons.1 h with rfl | h
      · exact ⟨p, List.mem_cons_self, rfl⟩
      · rcases List.mem_cons.1 h with rfl | h
        · exact ⟨p, List.mem_cons_self, rfl⟩
        · obtain ⟨q, mem, e⟩ := ih h
          exact ⟨q, List.mem_cons_of_mem _ mem, e⟩
    · rcases List.mem_cons.1 h with rfl | h
      · exact ⟨p, List.mem_cons_self, rfl⟩
      · obtain ⟨q, mem, e⟩ := ih h
        exact ⟨q, List.mem_cons_of_mem _ mem, e⟩

/-- The glyph ends before the other one or is implied by it. -/
def Leads (g h : Glyph) : Prop :=
  g.offset + g.char.utf8Size ≤ h.offset ∨ ∃ offset, g = .implied offset ∧ h = .typed ⟨'(', offset⟩

/-- What leads precedes. -/
lemma Leads.precedes {g h : Glyph} (lead : Leads g h) : Precedes g h :=
  lead.imp_left (Nat.lt_of_lt_of_le (Nat.lt_add_of_pos_right (Char.utf8Size_pos g.char)))

/-- Writing out products keeps the order. -/
lemma pairwise_leads {before : Option Char} {l : List Placed} (h : l.Pairwise Placed.Before) :
    (supplyProducts before l).Pairwise Leads := by
  induction h generalizing before with
  | nil => exact .nil
  | @cons p l later _ ih =>
    have after : ∀ g : Glyph, g.offset = p.offset → g.char.utf8Size = p.char.utf8Size →
        ∀ h ∈ supplyProducts (some p.char) l, Leads g h := by
      intro g offset size h mem
      obtain ⟨q, hq, eq⟩ := exists_mem_of_mem_supplyProducts mem
      exact .inl (by rw [offset, size, eq]; exact later q hq)
    rw [supplyProducts]
    split
    · next hp =>
      have size : (implied p.offset).char.utf8Size = p.char.utf8Size := by
        rw [hp.1]
        rfl
      refine .cons (fun h mem => ?_) (.cons (after _ rfl rfl) ih)
      rcases List.mem_cons.1 mem with rfl | mem
      · refine .inr ⟨p.offset, rfl, ?_⟩
        rw [← hp.1]
      · exact after _ rfl size h mem
    · exact .cons (after _ rfl rfl) ih

/-- Glyphs precede those behind them. -/
lemma pairwise_supplyProducts {before : Option Char} {l : List Placed}
    (h : l.Pairwise Placed.Before) :
    (supplyProducts before l).Pairwise Precedes :=
  (pairwise_leads h).imp Leads.precedes

end Glyph

section
variable {l : List Glyph} {i j : Nat} {item later : Item}

/-- An item is read from the piece at its place. -/
lemma exists_piece (h : (Item.scan l)[i]? = some item) :
    ∃ piece, (l.splitBy Glyph.joined)[i]? = some piece ∧ Item.Covers piece item := by
  obtain ⟨len, covers⟩ := List.forall₂_iff_get.1 (Item.forall₂_scan l)
  obtain ⟨hi, rfl⟩ := List.getElem?_eq_some_iff.1 h
  have hi' : i < (l.splitBy Glyph.joined).length := by rwa [len]
  exact ⟨_, List.getElem?_eq_getElem hi', covers i hi' hi⟩

/-- No numeral is scanned directly behind another one. -/
lemma isChain_scan (l : List Glyph) :
    (Item.scan l).IsChain fun item next => ¬(item.isNumeral = true ∧ next.isNumeral = true) := by
  rw [List.isChain_iff_getElem]
  intro i hi ⟨numeral, numeral'⟩
  obtain ⟨piece, hp, covers⟩ := exists_piece (List.getElem?_eq_getElem (Nat.lt_of_succ_lt hi))
  obtain ⟨next, hn, covers'⟩ := exists_piece (List.getElem?_eq_getElem hi)
  obtain ⟨lt, rfl⟩ := List.getElem?_eq_some_iff.1 hp
  obtain ⟨lt', rfl⟩ := List.getElem?_eq_some_iff.1 hn
  obtain ⟨ne, ne', apart⟩ :=
    List.isChain_iff_getElem.1 (List.isChain_getLast_head_splitBy _ l) i lt'
  have last := covers.reading.isNumeral_eq _ (List.mem_map_of_mem (List.getLast_mem ne))
  have head := covers'.reading.isNumeral_eq _ (List.mem_map_of_mem (List.head_mem ne'))
  rw [numeral] at last
  rw [numeral'] at head
  rw [Glyph.joined, joined, last, head] at apart
  cases apart

/-- An earlier item comes from earlier glyphs. -/
lemma precedes_of_lt (ordered : l.Pairwise Glyph.Precedes) (lt : i < j) {piece next : List Glyph}
    (hi : (l.splitBy Glyph.joined)[i]? = some piece)
    (hj : (l.splitBy Glyph.joined)[j]? = some next) :
    ∀ g ∈ piece, ∀ h ∈ next, g.Precedes h := by
  rw [← List.flatten_splitBy Glyph.joined l, List.pairwise_flatten] at ordered
  obtain ⟨li, rfl⟩ := List.getElem?_eq_some_iff.1 hi
  obtain ⟨lj, rfl⟩ := List.getElem?_eq_some_iff.1 hj
  exact List.pairwise_iff_getElem.1 ordered.2 i j li lj lt

/-- A piece that starts with an implied `*` is that `*`. -/
lemma eq_singleton_of_head {piece : List Glyph} (hp : (l.splitBy Glyph.joined)[i]? = some piece)
    (ne : piece ≠ []) (h : Item.inNumeral (piece.head ne) = false) : piece = [piece.head ne] := by
  have chain := List.isChain_of_mem_splitBy (List.mem_of_getElem? hp)
  match piece with
  | [g] => rfl
  | g :: g' :: rest =>
    have joined : Glyph.joined g g' = true := (List.isChain_cons_cons.1 chain).1
    have : Item.inNumeral g = true := (Bool.and_eq_true_iff.1 joined).1
    rw [List.head_cons, this] at h
    cases h

/-- An item starts where its piece does. -/
lemma Item.Covers.offset_eq {piece : List Glyph} (h : Item.Covers piece item) :
    ∃ ne : piece ≠ [], item.span.offset = (piece.head ne).offset := by
  obtain ⟨ne, e⟩ := h.span
  exact ⟨ne, by rw [e]; rfl⟩

/-- Items that share a span are an implied `*` and its `(`. -/
lemma eq_succ_of_span_eq (ordered : l.Pairwise Glyph.Precedes) (lt : i < j)
    (hi : (Item.scan l)[i]? = some item) (hj : (Item.scan l)[j]? = some later)
    (e : item.span = later.span) :
    j = i + 1 ∧ ∃ offset, (l.splitBy Glyph.joined)[i]? = some [.implied offset] ∧
      (l.splitBy Glyph.joined)[j]? = some [.typed ⟨'(', offset⟩] := by
  obtain ⟨piece, hp, covers⟩ := exists_piece hi
  obtain ⟨next, hn, covers'⟩ := exists_piece hj
  obtain ⟨ne, start⟩ := covers.offset_eq
  obtain ⟨ne', start'⟩ := covers'.offset_eq
  have same : (piece.head ne).offset = (next.head ne').offset := by
    rw [← start, ← start', e]
  have precedes := precedes_of_lt ordered lt hp hn _ (List.head_mem ne) _ (List.head_mem ne')
  rcases precedes with less | ⟨offset, implied, opening⟩
  · omega
  · have star : piece = [.implied offset] := by
      rw [← implied]
      exact eq_singleton_of_head hp ne (by rw [implied]; rfl)
    have paren : next = [.typed ⟨'(', offset⟩] := by
      rw [← opening]
      exact eq_singleton_of_head hn ne' (by rw [opening]; rfl)
    subst star paren
    refine ⟨?_, offset, hp, hn⟩
    by_contra apart
    -- a glyph between the two would be the `(` of the one and the `*` of the other
    have between : i + 1 < j := by omega
    obtain ⟨hj', _⟩ := List.getElem?_eq_some_iff.1 hn
    have hm := List.getElem?_eq_getElem (Nat.lt_trans between hj')
    obtain ⟨g, rest, em⟩ := List.exists_cons_of_ne_nil
      (List.ne_nil_of_mem_splitBy (List.mem_of_getElem? hm))
    have mem : g ∈ (l.splitBy Glyph.joined)[i + 1] := by
      rw [em]
      exact List.mem_cons_self
    have below := precedes_of_lt ordered (Nat.lt_succ_self i) hp hm _ List.mem_cons_self g mem
    have above := precedes_of_lt ordered between hm hn g mem _ List.mem_cons_self
    have le : offset ≤ g.offset := below.offset_le
    have ge : g.offset ≤ offset := above.offset_le
    rcases below with less | ⟨_, _, opening⟩
    · exact Nat.not_lt_of_le ge less
    · rcases above with less | ⟨_, implied, _⟩
      · exact Nat.not_lt_of_le le less
      · rw [opening] at implied
        cases implied

/-- An item spans what its piece comes from. -/
lemma span?_scan {c : Condensed} (h : (Item.scan c.glyphs)[i]? = some item) :
    c.span? (byteLength ((pieces c.toChars).take i).flatten)
      (byteLength ((pieces c.toChars).take (i + 1)).flatten) = some item.span := by
  obtain ⟨piece, hp, covers⟩ := exists_piece h
  obtain ⟨ne, e⟩ := covers.span
  have taken : (c.pieces.take (i + 1)).flatten = (c.pieces.take i).flatten ++ piece := by
    rw [Condensed.pieces, List.take_add_one, hp, Option.toList_some, List.flatten_append,
      List.flatten_singleton]
  have split :
      c.glyphs = (c.pieces.take i).flatten ++ piece ++ (c.pieces.drop (i + 1)).flatten := by
    rw [← taken, ← List.flatten_append, List.take_append_drop, Condensed.pieces,
      List.flatten_splitBy]
  have text : ∀ k, ((pieces c.toChars).take k).flatten =
      (c.pieces.take k).flatten.map Glyph.char := by
    intro k
    rw [Condensed.toChars, ← map_splitBy_joined, ← List.map_take, List.map_flatten]
    rfl
  rw [text, text, taken, e]
  exact span?_eq_cover split ne

end

/-- Each piece of the text is read as one item. -/
lemma forall₂_reading (c : Condensed) :
    List.Forall₂ Item.Reading (pieces c.toChars) (Item.scan c.glyphs) := by
  rw [Condensed.toChars, ← map_splitBy_joined, List.forall₂_map_left_iff]
  exact (Item.forall₂_scan c.glyphs).imp fun _ _ covers => covers.reading

/-- An expression is scanned for the pieces of its condensed text. -/
theorem tokenization_ofChars (l : List Char) :
    Tokenization (Condensed.ofChars l) (Item.ofChars l) := by
  have ordered : (Condensed.ofChars l).glyphs.Pairwise Glyph.Precedes :=
    Glyph.pairwise_supplyProducts (pairwise_offset_typed l)
  rw [Item.ofChars]
  generalize Condensed.ofChars l = c at ordered
  refine ⟨List.flatten_splitBy _ _, forall₂_reading c, isChain_scan _,
    fun i item => span?_scan, ?_, ?_⟩
  · rw [List.pairwise_iff_getElem]
    intro i j hi hj lt
    obtain ⟨piece, hp, covers⟩ := exists_piece (List.getElem?_eq_getElem hi)
    obtain ⟨next, hn, covers'⟩ := exists_piece (List.getElem?_eq_getElem hj)
    obtain ⟨ne, start⟩ := covers.offset_eq
    obtain ⟨ne', start'⟩ := covers'.offset_eq
    rw [start, start']
    exact (precedes_of_lt ordered lt hp hn _ (List.head_mem ne) _ (List.head_mem ne')).offset_le
  · intro i j item later lt hi hj
    refine ⟨eq_succ_of_span_eq ordered lt hi hj, fun ⟨_, offset, hp, hn⟩ => ?_⟩
    obtain ⟨piece, hp', covers⟩ := exists_piece hi
    obtain ⟨next, hn', covers'⟩ := exists_piece hj
    cases hp.symm.trans hp'
    cases hn.symm.trans hn'
    obtain ⟨_, e⟩ := covers.span
    obtain ⟨_, e'⟩ := covers'.span
    rw [e, e']
    rfl

end Calculator
