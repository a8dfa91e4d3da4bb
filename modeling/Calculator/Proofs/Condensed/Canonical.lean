import Calculator.Proofs.Grammar.Reading
import Calculator.Proofs.Text.Blank

/-!
# The canonical spelling of an expression

Condensing writes out the products that a text implies (`spellOut`). Eliding takes away every `*`
that would be implied if it were not there, whoever wrote it (`elide`). Neither of the two depends
on whether the other was done before (`spellOut_elideBehind`, `elideBehind_spellOut`). So a
condensed text is condensed to itself, and expressions are condensed to one text exactly if they are
the same when their blanks are taken away and their products are elided (`canonical_ofChars`).
-/

namespace Calculator

open Text

/-- All but the operators and `(` end an operand. -/
lemma Glyph.endsOperand_iff {c : Char} : endsOperand c = true ↔ c ∉ ['+', '-', '*', '/', '('] := by
  rw [endsOperand, Bool.and_eq_true, Option.isNone_iff_eq_none, bne_iff_ne,
    Option.eq_none_iff_forall_ne_some]
  simp only [ne_eq, Operator.ofChar?_eq_some_iff, List.mem_cons, List.not_mem_nil, or_false, not_or]
  constructor
  · rintro ⟨operator, opening⟩
    exact ⟨operator .add, operator .subtract, operator .multiply, operator .divide, opening⟩
  · rintro ⟨add, subtract, multiply, divide, opening⟩
    refine ⟨fun op => ?_, opening⟩
    cases op with
    | add => exact add
    | subtract => exact subtract
    | multiply => exact multiply
    | divide => exact divide

namespace Condensed

/-- Writes out the products that `l` implies behind `before`. -/
def spellOut (before : Option Char) : List Char → List Char
  | [] => []
  | c :: l =>
    if c = '(' ∧ before.any Glyph.endsOperand then '*' :: c :: spellOut (some c) l
    else c :: spellOut (some c) l

/-- Leaves out each `*` of `l`, behind `before`, that could be left implied. -/
def elideBehind (before : Option Char) : List Char → List Char
  | [] => []
  | c :: l =>
    if c = '*' ∧ l.head? = some '(' ∧ before.any (· ∉ ['+', '-', '*', '/', '(']) then
      elideBehind (some c) l
    else c :: elideBehind (some c) l

/-- Leaves out each `*` that could be left implied. -/
def elide (l : List Char) : List Char :=
  elideBehind none l

section
variable {before : Option Char} {c : Char} {l : List Char}

/-- A `(` behind an operand is written with a `*`. -/
lemma spellOut_cons_of_endsOperand (hb : before.any Glyph.endsOperand = true) :
    spellOut before ('(' :: l) = '*' :: '(' :: spellOut (some '(') l :=
  if_pos ⟨rfl, hb⟩

/-- Any other character is written as it is. -/
lemma spellOut_cons (h : ¬(c = '(' ∧ before.any Glyph.endsOperand)) :
    spellOut before (c :: l) = c :: spellOut (some c) l :=
  if_neg h

/-- Behind a `*` no product is implied. -/
lemma spellOut_star : spellOut (some '*') (c :: l) = c :: spellOut (some c) l :=
  spellOut_cons fun h => absurd h.2 (by decide)

/-- Behind a `*` nothing is implied. -/
lemma head?_spellOut_star (l : List Char) : (spellOut (some '*') l).head? = l.head? := by
  cases l with
  | nil => rfl
  | cons c l => rw [spellOut_star, List.head?_cons, List.head?_cons]

/-- Both ways to say what implies a product agree. -/
lemma any_iff : before.any (· ∉ ['+', '-', '*', '/', '(']) = before.any Glyph.endsOperand := by
  cases before with
  | none => rfl
  | some c =>
    rw [Option.any_some, Option.any_some, Bool.eq_iff_iff, Glyph.endsOperand_iff,
      decide_eq_true_iff]

/-- A `*` between an operand and a `(` is left out. -/
lemma elideBehind_star (hb : before.any Glyph.endsOperand = true) :
    elideBehind before ('*' :: '(' :: l) = elideBehind (some '*') ('(' :: l) :=
  if_pos ⟨rfl, rfl, any_iff.trans hb⟩

/-- Any other character is kept. -/
lemma elideBehind_cons (h : ¬(c = '*' ∧ l.head? = some '(' ∧ before.any Glyph.endsOperand)) :
    elideBehind before (c :: l) = c :: elideBehind (some c) l := by
  rw [← any_iff] at h
  exact if_neg h

/-- A `(` is kept. -/
lemma elideBehind_opening : elideBehind before ('(' :: l) = '(' :: elideBehind (some '(') l :=
  elideBehind_cons fun h => absurd h.1 (by decide)

end

/-- The products that are elided are written out again. -/
lemma spellOut_elideBehind (before : Option Char) (l : List Char) :
    spellOut before (elideBehind before l) = spellOut before l := by
  induction l generalizing before with
  | nil => rfl
  | cons c l ih =>
    by_cases h : c = '*' ∧ l.head? = some '(' ∧ before.any Glyph.endsOperand
    · obtain ⟨rfl, head, hb⟩ := h
      obtain ⟨l, rfl⟩ := List.head?_eq_some_iff.1 head
      -- the `*` that is elided and the one that is written out stand before the same `(`
      have rest := ih (some '*')
      rw [elideBehind_opening, spellOut_star, spellOut_star] at rest
      rw [elideBehind_star hb, elideBehind_opening, spellOut_cons_of_endsOperand hb, rest,
        spellOut_cons fun h => absurd h.1 (by decide), spellOut_star]
    · rw [elideBehind_cons h, spellOut, spellOut, ih]

/-- The products that are written out are elided again. -/
lemma elideBehind_spellOut (before : Option Char) (l : List Char) :
    elideBehind before (spellOut before l) = elideBehind before l := by
  induction l generalizing before with
  | nil => rfl
  | cons c l ih =>
    by_cases h : c = '(' ∧ before.any Glyph.endsOperand
    · obtain ⟨rfl, hb⟩ := h
      rw [spellOut_cons_of_endsOperand hb, elideBehind_star hb, elideBehind_opening,
        elideBehind_opening, ih]
    · rw [spellOut_cons h, elideBehind, elideBehind, ih]
      by_cases star : c = '*'
      · rw [star, head?_spellOut_star]
      · rw [if_neg fun h => star h.1, if_neg fun h => star h.1]

/-- What is written out already stays as it is. -/
lemma spellOut_spellOut (before : Option Char) (l : List Char) :
    spellOut before (spellOut before l) = spellOut before l := by
  rw [← spellOut_elideBehind before (spellOut before l), elideBehind_spellOut, spellOut_elideBehind]

/-- Products can be spelt out or left out before texts are compared. -/
lemma spellOut_eq_iff {before : Option Char} {l m : List Char} :
    spellOut before l = spellOut before m ↔ elideBehind before l = elideBehind before m := by
  refine ⟨fun h => ?_, fun h => ?_⟩
  · rw [← elideBehind_spellOut before l, h, elideBehind_spellOut]
  · rw [← spellOut_elideBehind before l, h, spellOut_elideBehind]

/-- Nothing but `*` is written out. -/
lemma mem_of_mem_spellOut {before : Option Char} {l : List Char} {c : Char}
    (h : c ∈ spellOut before l) :
    c ∈ l ∨ c = '*' := by
  induction l generalizing before with
  | nil => cases h
  | cons d l ih =>
    have tail : c ∈ d :: spellOut (some d) l → c ∈ d :: l ∨ c = '*' := by
      intro mem
      rcases List.mem_cons.1 mem with rfl | mem
      · exact .inl List.mem_cons_self
      · exact (ih mem).imp_left (List.mem_cons_of_mem d)
    rw [spellOut] at h
    split at h
    · exact (List.mem_cons.1 h).elim .inr tail
    · exact tail h

/-- The implied products depend on the characters only. -/
lemma map_char_supplyProducts (before : Option Char) (l : List Placed) :
    (Glyph.supplyProducts before l).map Glyph.char = spellOut before (l.map Placed.char) := by
  induction l generalizing before with
  | nil => rfl
  | cons p l ih =>
    rw [Glyph.supplyProducts, List.map_cons, spellOut]
    split
    · rw [List.map_cons, List.map_cons, ih]
      rfl
    · rw [List.map_cons, ih]
      rfl

/-- A condensed text has its products spelt out and no blanks. -/
lemma toChars_ofChars (l : List Char) : (ofChars l).toChars = spellOut none (strip l) := by
  rw [← map_char_typed]
  exact map_char_supplyProducts none (typed l)

/-- There are no blanks in a condensed text. -/
lemma strip_toChars_ofChars (l : List Char) : strip (ofChars l).toChars = (ofChars l).toChars := by
  refine strip_eq_self fun c mem => ?_
  rw [toChars_ofChars] at mem
  rcases mem_of_mem_spellOut mem with mem | rfl
  · exact isBlank_of_mem_strip mem
  · decide

/-- To condense twice is to condense once. -/
lemma toChars_ofChars_toChars (l : List Char) :
    (ofChars (ofChars l).toChars).toChars = (ofChars l).toChars := by
  rw [toChars_ofChars, strip_toChars_ofChars, toChars_ofChars, spellOut_spellOut]

/-- Where nothing is written out, all glyphs were typed. -/
lemma supplyProducts_eq_map_typed {before : Option Char} {l : List Placed}
    (h : (Glyph.supplyProducts before l).map Glyph.char = l.map Placed.char) :
    Glyph.supplyProducts before l = l.map Glyph.typed := by
  induction l generalizing before with
  | nil => rfl
  | cons p l ih =>
    rw [Glyph.supplyProducts] at h ⊢
    split at h
    · next product =>
      have star : '*' = p.char := (List.cons.inj h).1
      rw [product.1] at star
      exact absurd star (by decide)
    · next other =>
      rw [if_neg other, ih (List.cons.inj h).2, List.map_cons]

/-- To place characters does not change them. -/
lemma map_char_ofChars (offset : Nat) (l : List Char) :
    (Placed.ofChars offset l).map Placed.char = l := by
  induction l generalizing offset with
  | nil => rfl
  | cons c l ih => rw [Placed.ofChars, List.map_cons, ih]

/-- A text without blanks is typed from its first byte on. -/
lemma origins_ofChars_typed (offset : Nat) (l : List Char) :
    ((Placed.ofChars offset l).map Glyph.typed).flatMap Glyph.origins =
      List.range' offset (byteLength l) := by
  induction l generalizing offset with
  | nil => rfl
  | cons c l ih =>
    rw [Placed.ofChars, List.map_cons, List.flatMap_cons, ih, byteLength_cons,
      ← List.range'_append_1]
    rfl

/-- Without blanks all characters are typed. -/
lemma typed_of_strip {l : List Char} (h : strip l = l) : typed l = Placed.ofChars 0 l := by
  refine List.filter_eq_self.2 fun p mem => ?_
  have mem : p.char ∈ (Placed.ofChars 0 l).map Placed.char := List.mem_map_of_mem mem
  rw [map_char_ofChars, ← h] at mem
  rw [isBlank_of_mem_strip mem]
  rfl

/-- A text that is condensed already comes from its own places. -/
lemma origins_of_toChars_eq {l : List Char} (blanks : strip l = l)
    (same : (ofChars l).toChars = l) :
    (ofChars l).origins = List.range (byteLength l) := by
  have typed := typed_of_strip blanks
  have glyphs : (ofChars l).glyphs = (Condensed.typed l).map Glyph.typed := by
    refine supplyProducts_eq_map_typed ?_
    rw [map_char_typed, blanks]
    exact same
  rw [origins, glyphs, typed, origins_ofChars_typed, List.range_eq_range']

/-- Condensing is idempotent, and expressions have one condensed text if they are the same without
their blanks and the products that could be left implied. -/
theorem canonical_ofChars :
    (∀ l, (ofChars (ofChars l).toChars).toChars = (ofChars l).toChars ∧
      (ofChars (ofChars l).toChars).origins = List.range (byteLength (ofChars l).toChars)) ∧
    ∀ a b, (ofChars a).toChars = (ofChars b).toChars ↔ elide (strip a) = elide (strip b) := by
  refine ⟨fun l => ⟨toChars_ofChars_toChars l, ?_⟩, fun a b => ?_⟩
  · exact origins_of_toChars_eq (strip_toChars_ofChars l) (toChars_ofChars_toChars l)
  · rw [toChars_ofChars, toChars_ofChars, spellOut_eq_iff]
    rfl

/-- Only one of two stars before a `(` can be behind an operand, and it is not the one before the
`(`. -/
example : elide "2*(3)(4)**(5)".toList = "2(3)(4)**(5)".toList := by decide

end Condensed

end Calculator
