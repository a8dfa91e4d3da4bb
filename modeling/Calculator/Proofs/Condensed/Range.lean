import Calculator.Proofs.Condensed.Origins
import Calculator.Proofs.Scanning.Source

/-!
# Ranges of a condensed text

A range of the condensed text that begins and ends between characters comes from a stretch of the
expression: from its first character to its last one, where an implied `*` stands for the `(` that
implies it. Without its blanks the stretch is what was typed of the range, and that `(` behind it if
the range ends with the `*` (`exists_stretch_of_range`).
-/

namespace Calculator

open Text

/-- The text can be cut after `n` bytes. -/
def Text.IsBoundary (l : List Char) (n : Nat) : Prop :=
  ∃ before after, l = before ++ after ∧ byteLength before = n

/-- The bytes from `start` up to `stop` are those of these glyphs. -/
def Condensed.Holds (c : Condensed) (start stop : Nat) (piece : List Glyph) : Prop :=
  ∃ done rest, c.glyphs = done ++ piece ++ rest ∧ byteLength (done.map Glyph.char) = start ∧
    byteLength ((done ++ piece).map Glyph.char) = stop

namespace Glyph

/-- The characters of these glyphs that were typed. -/
def typedChars (l : List Glyph) : List Char :=
  (l.filterMap source?).map Placed.char

/-- The `(` that implies the glyph, if it is implied. -/
def opening : Glyph → List Char
  | typed _ => []
  | implied _ => ['(']

/-- Behind an implied product there is the `(` that implies it. -/
lemma exists_opening {before : Option Char} {l : List Placed} {done rest : List Glyph}
    {offset : Nat}
    (e : supplyProducts before l = done ++ implied offset :: rest) :
    ∃ rest', rest = typed ⟨'(', offset⟩ :: rest' := by
  induction l generalizing before done with
  | nil =>
    rw [supplyProducts] at e
    exact absurd e.symm (List.append_ne_nil_of_right_ne_nil _ (List.cons_ne_nil _ _))
  | cons p l ih =>
    rw [supplyProducts] at e
    split at e
    · next product =>
      cases done with
      | nil =>
        cases e
        exact ⟨_, by rw [← product.1]⟩
      | cons g done =>
        obtain ⟨-, e⟩ := List.cons.inj e
        cases done with
        | nil => cases e
        | cons h done => exact ih (List.cons.inj e).2
    · cases done with
      | nil => cases e
      | cons g done => exact ih (List.cons.inj e).2

/-- What is covered depends on the first glyph by its place only. -/
lemma cover_congr {first first' : Glyph} (h : first.offset = first'.offset) (last : Glyph) :
    first.cover last = first'.cover last := by
  rw [cover, cover, h]

/-- An implied `*` ends where the `(` that implies it ends. -/
lemma cover_implied (first : Glyph) (offset : Nat) :
    first.cover (implied offset) = first.cover (typed ⟨'(', offset⟩) :=
  rfl

end Glyph

section
variable {l : List Char} {done init piece rest : List Glyph} {g : Glyph} {p : Placed}

/-- The first glyph has the place of the first one typed. -/
lemma exists_head?_source (e : (Condensed.ofChars l).glyphs = done ++ init ++ .typed p :: rest)
    (head : (init ++ [Glyph.typed p]).head? = some g) :
    ∃ q, ((init ++ [Glyph.typed p]).filterMap Glyph.source?).head? = some q ∧
      (Glyph.typed q).offset = g.offset := by
  cases init with
  | nil =>
    cases head
    exact ⟨p, rfl, rfl⟩
  | cons h init =>
    cases head
    cases g with
    | typed q => exact ⟨q, rfl, rfl⟩
    | implied offset =>
      rw [List.append_assoc] at e
      obtain ⟨rest', next⟩ := Glyph.exists_opening e
      cases init with
      | nil =>
        cases next
        exact ⟨_, rfl, rfl⟩
      | cons h init =>
        cases next
        exact ⟨_, rfl, rfl⟩

/-- Glyphs that end with a typed one come from a stretch. -/
lemma exists_stretch_of_typed (e : (Condensed.ofChars l).glyphs = done ++ init ++ .typed p :: rest)
    (head : (init ++ [Glyph.typed p]).head? = some g) :
    ∃ text, Stretch l (g.cover (.typed p)) text (Glyph.typedChars (init ++ [.typed p])) := by
  have split : (Condensed.ofChars l).glyphs = done ++ (init ++ [.typed p]) ++ rest := by
    rw [e]
    simp
  have last : (init ++ [Glyph.typed p]).filterMap Glyph.source? =
      init.filterMap Glyph.source? ++ [p] :=
    List.filterMap_append
  have ne : (init ++ [Glyph.typed p]).filterMap Glyph.source? ≠ [] := by simp [last]
  obtain ⟨q, first, offset⟩ := exists_head?_source e head
  rw [List.head?_eq_some_head ne] at first
  obtain ⟨text, stretch⟩ := exists_stretch (typed_eq_of_glyphs split) ne
  rw [Option.some.inj first, Glyph.cover_congr offset] at stretch
  simp only [last, List.getLast_concat] at stretch
  refine ⟨text, ?_⟩
  rw [Glyph.typedChars, last]
  exact stretch

/-- Glyphs come from a stretch, with the `(` behind a final implied product. -/
lemma exists_stretch_of_glyphs (e : (Condensed.ofChars l).glyphs = done ++ piece ++ rest)
    (ne : piece ≠ []) :
    ∃ text, Stretch l ((piece.head ne).cover (piece.getLast ne)) text
      (Glyph.typedChars piece ++ (piece.getLast ne).opening) := by
  obtain ⟨init, last, rfl⟩ : ∃ init last, piece = init ++ [last] :=
    ⟨_, _, (List.dropLast_concat_getLast ne).symm⟩
  rw [List.getLast_concat]
  cases last with
  | typed p =>
    rw [← List.append_assoc, List.append_assoc] at e
    rw [Glyph.opening, List.append_nil]
    exact exists_stretch_of_typed e (List.head?_eq_some_head ne)
  | implied offset =>
    rw [← List.append_assoc, List.append_assoc] at e
    -- a range that ends with an implied `*` comes from a stretch that ends with its `(`
    obtain ⟨rest', rfl⟩ := Glyph.exists_opening e
    have head : (init ++ [Glyph.implied offset] ++ [Glyph.typed ⟨'(', offset⟩]).head? =
        some ((init ++ [Glyph.implied offset]).head ne) := by
      rw [List.head?_append_of_ne_nil _ ne, List.head?_eq_some_head ne]
    have split : (Condensed.ofChars l).glyphs =
        done ++ (init ++ [.implied offset]) ++ .typed ⟨'(', offset⟩ :: rest' := by
      rw [e]
      simp
    obtain ⟨text, stretch⟩ := exists_stretch_of_typed split head
    rw [Glyph.cover_implied]
    refine ⟨text, ?_⟩
    rw [Glyph.typedChars, List.filterMap_append, List.map_append] at stretch
    exact stretch

end

/-- Between two boundaries of a text there is a part of it. -/
lemma exists_part_of_isBoundary {l : List Char} {start stop : Nat} (lt : start < stop)
    (hs : IsBoundary l start) (ht : IsBoundary l stop) :
    ∃ before part after, l = before ++ part ++ after ∧ part ≠ [] ∧ byteLength before = start ∧
      byteLength (before ++ part) = stop := by
  obtain ⟨before, _, rfl, rfl⟩ := hs
  obtain ⟨before', after, e, rfl⟩ := ht
  rcases List.append_eq_append_iff.1 e with ⟨part, rfl, rfl⟩ | ⟨part, rfl, rfl⟩
  · refine ⟨before, part, after, (List.append_assoc _ _ _).symm, ?_, rfl, rfl⟩
    rintro rfl
    simp at lt
  · rw [byteLength_append] at lt
    omega

/-- The range holds glyphs of the condensed text. -/
lemma Condensed.exists_holds {c : Condensed} {start stop : Nat} (lt : start < stop)
    (hs : IsBoundary c.toChars start) (ht : IsBoundary c.toChars stop) :
    ∃ piece, piece ≠ [] ∧ c.Holds start stop piece := by
  obtain ⟨before, part, after, e, ne, rfl, rfl⟩ := exists_part_of_isBoundary lt hs ht
  obtain ⟨front, rest, glyphs, text, rfl⟩ := List.map_eq_append_iff.1 e
  obtain ⟨done, piece, rfl, rfl, rfl⟩ := List.map_eq_append_iff.1 text
  refine ⟨piece, ?_, done, rest, glyphs, rfl, by rw [List.map_append]⟩
  rintro rfl
  exact ne rfl

/-- A range of a condensed text comes from a stretch of the expression that has no blank at its ends
and is, without its blanks, what was typed of the range, with the `(` behind a final implied
product. The origins are one for each byte and never decrease. -/
theorem exists_stretch_of_range (l : List Char) :
    (Condensed.ofChars l).origins.length = byteLength (Condensed.ofChars l).toChars ∧
      (Condensed.ofChars l).origins.Pairwise (· ≤ ·) ∧
      ∀ start stop, start < stop → IsBoundary (Condensed.ofChars l).toChars start →
        IsBoundary (Condensed.ofChars l).toChars stop →
        ∃ piece, ∃ ne : piece ≠ [], (Condensed.ofChars l).Holds start stop piece ∧
          ∃ span text, (Condensed.ofChars l).span? start stop = some span ∧
            Stretch l span text (Glyph.typedChars piece ++ (piece.getLast ne).opening) := by
  refine ⟨Condensed.length_origins _, Condensed.pairwise_origins_ofChars l,
    fun start stop lt hs ht => ?_⟩
  obtain ⟨piece, ne, done, rest, e, rfl, rfl⟩ := Condensed.exists_holds lt hs ht
  obtain ⟨text, stretch⟩ := exists_stretch_of_glyphs e ne
  exact ⟨piece, ne, ⟨done, rest, e, rfl, rfl⟩, _, text, span?_eq_cover e ne, stretch⟩

/-- The range `é2*` ends with an implied product. -/
theorem exists_stretch_of_range_product :
    let c := Condensed.ofChars " é 2 (3)".toList
    0 < 4 ∧ IsBoundary c.toChars 0 ∧ IsBoundary c.toChars 4 ∧ c.span? 0 4 = some ⟨1, 6⟩ ∧
      ∃ piece, ∃ ne : piece ≠ [], c.Holds 0 4 piece ∧
        ∃ span text, c.span? 0 4 = some span ∧
          Stretch " é 2 (3)".toList span text
            (Glyph.typedChars piece ++ (piece.getLast ne).opening) := by
  intro c
  have start : IsBoundary c.toChars 0 := ⟨[], c.toChars, rfl, rfl⟩
  have stop : IsBoundary c.toChars 4 := ⟨"é2*".toList, "(3)".toList, by decide, by decide⟩
  obtain ⟨-, -, range⟩ := exists_stretch_of_range " é 2 (3)".toList
  exact ⟨by decide, start, stop, by decide, range 0 4 (by decide) start stop⟩

end Calculator
