import Calculator.Proofs.Grammar.Reading
import Calculator.Proofs.Scanning.Tokenization
import Calculator.Proofs.Text.Blank
import Mathlib.Data.Set.List

/-!
# Where items come from

What was typed of a condensed expression is found in the expression again: successive characters of
it come from a stretch that is these characters with blanks between them, from the first to the last
(`exists_stretch`). All items but an implied `*` are read from what was typed, so each of them is
read again from the stretch of the expression that it spans (`exists_traces`).
-/

namespace Calculator

open Text

/-- The span is where `text` stands in `l`. -/
def Span.Marks (span : Span) (l text : List Char) : Prop :=
  ∃ before after, l = before ++ text ++ after ∧ span = ⟨byteLength before, byteLength text⟩

/-- What a span marks is what it covers. -/
lemma Span.Marks.slice? {span : Span} {l text} (h : span.Marks l text) :
    span.slice? l = some text := by
  obtain ⟨before, after, rfl, rfl⟩ := h
  have start : splitBytes? (byteLength before) (before ++ text ++ after) =
      some (before, text ++ after) :=
    splitBytes?_eq_some_iff.2 ⟨List.append_assoc _ _ _, rfl⟩
  have stop : splitBytes? (byteLength text) (text ++ after) = some (text, after) :=
    splitBytes?_eq_some_iff.2 ⟨rfl, rfl⟩
  simp only [Span.slice?, start, stop, Option.bind_eq_bind, Option.bind_some, Option.pure_def]

namespace Placed

/-- Characters are placed behind those before them. -/
lemma ofChars_append (offset : Nat) (l m : List Char) :
    ofChars offset (l ++ m) = ofChars offset l ++ ofChars (offset + byteLength l) m := by
  induction l generalizing offset with
  | nil => rfl
  | cons c l ih =>
    rw [List.cons_append, ofChars, ih, ofChars, byteLength_cons, Nat.add_assoc]
    rfl

/-- A part of placed characters is a part of the text in its place. -/
lemma exists_append_of_ofChars {offset l} {P Q : List Placed} (e : ofChars offset l = P ++ Q) :
    ∃ a b, l = a ++ b ∧ P = ofChars offset a ∧ Q = ofChars (offset + byteLength a) b := by
  induction P generalizing offset l with
  | nil => exact ⟨[], l, rfl, rfl, e.symm⟩
  | cons p P ih =>
    cases l with
    | nil => cases e
    | cons c l =>
      obtain ⟨rfl, rest⟩ := List.cons.inj e
      obtain ⟨a, b, rfl, rfl, rfl⟩ := ih rest
      exact ⟨c :: a, b, rfl, rfl, by rw [byteLength_cons, Nat.add_assoc]⟩

/-- The first character has the first place. -/
lemma head?_ofChars {offset l p} (h : (ofChars offset l).head? = some p) :
    l.head? = some p.char ∧ p.offset = offset := by
  cases l with
  | nil => cases h
  | cons c l => cases h; exact ⟨rfl, rfl⟩

/-- The last character ends where the text ends. -/
lemma getLast?_ofChars {offset l p} (h : (ofChars offset l).getLast? = some p) :
    l.getLast? = some p.char ∧ p.offset + p.char.utf8Size = offset + byteLength l := by
  rcases List.eq_nil_or_concat l with rfl | ⟨l, c, rfl⟩
  · cases h
  · rw [List.concat_eq_append, ofChars_append] at h
    simp only [ofChars, List.getLast?_append, List.getLast?_singleton, Option.some_or] at h
    cases h
    simp [Nat.add_assoc]

end Placed

/-- A part of what is kept is kept of a part, with its ends. -/
lemma exists_part_of_filter {α : Type} {p : α → Bool} {l done part rest : List α}
    (e : l.filter p = done ++ part ++ rest) (ne : part ≠ []) :
    ∃ before middle after, l = before ++ middle ++ after ∧ middle.filter p = part ∧
      middle.head? = part.head? ∧ middle.getLast? = part.getLast? := by
  obtain ⟨front, back, rfl, ef, -⟩ := List.filter_eq_append_iff.1 e
  -- what comes behind the last element of the part is cut off first
  obtain ⟨init, z, rfl⟩ : ∃ init z, part = init ++ [z] :=
    ⟨_, _, (List.dropLast_concat_getLast ne).symm⟩
  rw [← List.append_assoc] at ef
  obtain ⟨m, n, rfl, em, en⟩ := List.filter_eq_append_iff.1 ef
  obtain ⟨skipped, tail, rfl, hs, hz, -⟩ := List.filter_eq_cons_iff.1 en
  have trimmed : (m ++ skipped ++ [z]).filter p = done ++ (init ++ [z]) := by
    have none : skipped.filter p = [] := List.filter_eq_nil_iff.2 hs
    rw [List.filter_append, List.filter_append, em, none, List.filter_cons_of_pos hz,
      List.filter_nil, List.append_nil, List.append_assoc]
  obtain ⟨before, k, es, -, ek⟩ := List.filter_eq_append_iff.1 trimmed
  obtain ⟨y, part, ep⟩ := List.exists_cons_of_ne_nil ne
  rw [ep] at ek ⊢
  obtain ⟨lead, middle, rfl, -, hy, rfl⟩ := List.filter_eq_cons_iff.1 ek
  refine ⟨before ++ lead, y :: middle, tail ++ back, ?_, List.filter_cons_of_pos hy, rfl, ?_⟩
  · have split : m ++ (skipped ++ z :: tail) ++ back =
        m ++ skipped ++ [z] ++ (tail ++ back) := by simp
    rw [split, es]
    simp
  · have last := congrArg List.getLast? es
    rw [← ep, List.getLast?_concat]
    simpa [List.getLast?_append] using last.symm

/-- The text stands where the span says, and is `chars` without its blanks. -/
structure Stretch (l : List Char) (span : Span) (text chars : List Char) : Prop where
  /-- The span begins and ends between characters of the expression, and the text is between its
  ends. -/
  marks : span.Marks l text
  head : ∃ c, text.head? = some c ∧ isBlank c = false
  last : ∃ c, text.getLast? = some c ∧ isBlank c = false
  strip_eq : strip text = chars

/-- Successive typed characters come from a stretch of the expression. -/
lemma exists_stretch {l done piece rest} (e : Condensed.typed l = done ++ piece ++ rest)
    (ne : piece ≠ []) :
    ∃ text, Stretch l ((Glyph.typed (piece.head ne)).cover (.typed (piece.getLast ne))) text
      (piece.map Placed.char) := by
  have blank : ∀ p ∈ piece, isBlank p.char = false := by
    intro p mem
    have mem : p ∈ Condensed.typed l := by
      rw [e]
      simp [mem]
    simpa using (List.mem_filter.1 mem).2
  obtain ⟨before, middle, after, es, kept, head, last⟩ := exists_part_of_filter e ne
  obtain ⟨a, b, rfl, ea, rfl⟩ := Placed.exists_append_of_ofChars es
  obtain ⟨a, text, rfl, rfl, rfl⟩ := Placed.exists_append_of_ofChars ea.symm
  rw [List.head?_eq_some_head ne] at head
  rw [List.getLast?_eq_some_getLast ne] at last
  obtain ⟨first, start⟩ := Placed.head?_ofChars head
  obtain ⟨final, stop⟩ := Placed.getLast?_ofChars last
  refine ⟨text, ⟨a, b, rfl, ?_⟩, ⟨_, first, blank _ (List.head_mem ne)⟩,
    ⟨_, final, blank _ (List.getLast_mem ne)⟩, ?_⟩
  · rw [Nat.zero_add] at start stop
    simp only [Glyph.cover, Glyph.offset, Glyph.char, start, stop, Nat.add_sub_cancel_left]
  · rw [← kept, map_char_filter_ofChars]

namespace Glyph

/-- The character that was typed, if the glyph is one. -/
def source? : Glyph → Option Placed
  | typed source => some source
  | implied _ => none

/-- A typed glyph has a source. -/
lemma source?_typed (p : Placed) : source? (typed p) = some p := rfl

/-- Writing out products leaves what was typed as it is. -/
lemma filterMap_source?_supplyProducts (before : Option Char) (l : List Placed) :
    (supplyProducts before l).filterMap source? = l := by
  induction l generalizing before with
  | nil => rfl
  | cons p l ih =>
    rw [supplyProducts]
    split
    · rw [List.filterMap_cons_none rfl, List.filterMap_cons_some (source?_typed p), ih]
    · rw [List.filterMap_cons_some (source?_typed p), ih]

/-- Typed glyphs have the sources they were typed as. -/
lemma filterMap_source?_map_typed (l : List Placed) : (l.map typed).filterMap source? = l := by
  rw [List.filterMap_map]
  exact List.filterMap_some

end Glyph

/-- What was typed of a condensed expression was typed in its parts. -/
lemma typed_eq_of_glyphs {l : List Char} {done piece rest}
    (e : (Condensed.ofChars l).glyphs = done ++ piece ++ rest) :
    Condensed.typed l =
      done.filterMap Glyph.source? ++ piece.filterMap Glyph.source? ++
        rest.filterMap Glyph.source? := by
  rw [← List.filterMap_append, ← List.filterMap_append, ← e]
  exact (Glyph.filterMap_source?_supplyProducts none (Condensed.typed l)).symm

/-- The text stands where the span says and is condensed without implied products. -/
structure Traces (l : List Char) (span : Span) (text : List Char) : Prop where
  /-- The span begins and ends between characters of the expression, and the text is between its
  ends. -/
  marks : span.Marks l text
  head : ∃ c, text.head? = some c ∧ isBlank c = false
  last : ∃ c, text.getLast? = some c ∧ isBlank c = false
  /-- Without its blanks the text is a part of the condensed expression with no implied product in
  it, and the bytes of this part come from the span. -/
  typed : ∃ (done : List Glyph) (sources : List Placed) (rest : List Glyph),
    (Condensed.ofChars l).glyphs = done ++ sources.map Glyph.typed ++ rest ∧
      sources.map Placed.char = strip text ∧
      (Condensed.ofChars l).span? (byteLength (done.map Glyph.char))
        (byteLength ((done ++ sources.map Glyph.typed).map Glyph.char)) = some span

/-- No trace is empty. -/
lemma Traces.length_pos {l span text} (h : Traces l span text) : 0 < span.length := by
  obtain ⟨before, after, -, rfl⟩ := h.marks
  obtain ⟨c, head, -⟩ := h.head
  obtain ⟨text, rfl⟩ := List.head?_eq_some_iff.1 head
  exact Nat.add_pos_left (Char.utf8Size_pos c) _

/-- A typed part of the condensed text is found in the expression. -/
lemma exists_traces_of_sources {l : List Char} {done sources rest}
    (e : (Condensed.ofChars l).glyphs = done ++ sources.map Glyph.typed ++ rest)
    (ne : sources ≠ []) :
    ∃ text, Traces l ((Glyph.typed (sources.head ne)).cover (.typed (sources.getLast ne))) text ∧
      strip text = sources.map Placed.char := by
  have typed := typed_eq_of_glyphs e
  rw [Glyph.filterMap_source?_map_typed] at typed
  obtain ⟨text, stretch⟩ := exists_stretch typed ne
  have span := span?_eq_cover e (by simpa using ne)
  rw [List.head_map, List.getLast_map] at span
  exact ⟨text, ⟨stretch.marks, stretch.head, stretch.last, done, sources, rest, e,
    stretch.strip_eq.symm, span⟩, stretch.strip_eq⟩

namespace Item

/-- Only a multiplication is read from a `*`. -/
lemma Reading.eq_multiply_of_star {piece item} (h : Reading piece item) (star : '*' ∈ piece) :
    ∃ span, item = .ok ⟨.operator .multiply, span⟩ := by
  have numeral : Decimal.isNumeral '*' = false := rfl
  have symbol : (Token.operator .multiply).symbol? = some '*' := rfl
  cases h with
  | number h => rw [h.inNumeral _ star] at numeral; cases numeral
  | malformed run _ => rw [run _ star] at numeral; cases numeral
  | @symbol c token span h =>
    rw [← List.mem_singleton.1 star, ← Token.ofChar?_eq_some_iff] at h
    cases h
    exact ⟨span, rfl⟩
  | unexpected _ none =>
    rw [List.mem_singleton.1 star] at symbol
    exact absurd symbol (none _)

/-- An item that is no `*` is read from what was typed. -/
lemma Covers.exists_sources {piece : List Glyph} {item} (h : Covers piece item)
    (other : ∀ span, item ≠ .ok ⟨.operator .multiply, span⟩) :
    ∃ sources : List Placed, piece = sources.map Glyph.typed := by
  have all : piece ∈ {l : List Glyph | ∀ g ∈ l, g ∈ Set.range Glyph.typed} := by
    intro g mem
    cases g with
    | typed p => exact ⟨p, rfl⟩
    | implied offset =>
      obtain ⟨span, e⟩ := h.reading.eq_multiply_of_star (List.mem_map_of_mem mem)
      exact absurd e (other span)
  rw [← Set.range_list_map] at all
  obtain ⟨sources, e⟩ := all
  exact ⟨sources, e.symm⟩

/-- Each item is read from a part of the condensed text. -/
lemma exists_covers {l : List Glyph} {item} (mem : item ∈ scan l) :
    ∃ done piece rest, l = done ++ piece ++ rest ∧ Covers piece item := by
  obtain ⟨i, hi⟩ := List.mem_iff_getElem?.1 mem
  obtain ⟨piece, hp, covers⟩ := exists_piece hi
  obtain ⟨before, after, e⟩ := List.append_of_mem (List.mem_of_getElem? hp)
  refine ⟨before.flatten, piece, after.flatten, ?_, covers⟩
  rw [← List.flatten_splitBy Glyph.joined l, e]
  simp

/-- An item that is no `*` is read again from what it spans. -/
lemma exists_traces {l item} (mem : item ∈ Item.ofChars l)
    (other : ∀ span, item ≠ .ok ⟨.operator .multiply, span⟩) :
    ∃ text, Traces l item.span text ∧ Reading (strip text) item := by
  obtain ⟨done, piece, rest, e, covers⟩ := exists_covers mem
  obtain ⟨sources, rfl⟩ := covers.exists_sources other
  obtain ⟨ne, span⟩ := covers.span
  obtain ⟨text, traces, chars⟩ := exists_traces_of_sources e (by simpa using ne)
  refine ⟨text, ?_, ?_⟩
  · rw [span, List.head_map, List.getLast_map]
    exact traces
  · have reading := covers.reading
    rw [List.map_map] at reading
    rw [chars]
    exact reading

end Item

end Calculator
