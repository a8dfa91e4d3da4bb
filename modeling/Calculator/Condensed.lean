import Calculator.Text.Blank
import Calculator.Text.Span
import Calculator.Token

/-!
# Condensed expressions

An expression is condensed by dropping its blanks and writing out the products that juxtaposition
implies: a `(` directly after an operand multiplies it. Every character of the condensed text knows
where it was typed, and an implied `*` has the place of the `(` that implies it, so a stretch of the
condensed text can be traced back to a span of the expression (`Condensed.span?`).
-/

namespace Calculator

/-- A character and the number of bytes typed before it. -/
structure Placed where
  char : Char
  offset : Nat
deriving DecidableEq, Repr

/-- The characters of `l` in their places, behind `offset` bytes. -/
def Placed.ofChars (offset : Nat) : List Char → List Placed
  | [] => []
  | c :: l => ⟨c, offset⟩ :: ofChars (offset + c.utf8Size) l

/-- A character of a condensed expression. -/
inductive Glyph where
  /-- A character that was typed. -/
  | typed (source : Placed)
  /-- A `*` that the `(` at this offset implies. -/
  | implied (offset : Nat)
deriving DecidableEq, Repr

namespace Glyph

/-- The character of the glyph in the condensed text. -/
def char : Glyph → Char
  | typed source => source.char
  | implied _ => '*'

/-- Where in the expression the glyph comes from. -/
def offset : Glyph → Nat
  | typed source => source.offset
  | implied offset => offset

/-- The offsets of the bytes that the glyph comes from. -/
def origins (g : Glyph) : List Nat :=
  List.range' g.offset g.char.utf8Size

/-- Whether `c` ends an operand, which a `(` behind it multiplies. -/
def endsOperand (c : Char) : Bool :=
  (Operator.ofChar? c).isNone && c != '('

/-- Writes out the implied products of `l`, which follows the character `before`. -/
def supplyProducts (before : Option Char) : List Placed → List Glyph
  | [] => []
  | p :: l =>
    if p.char = '(' ∧ before.any endsOperand then
      implied p.offset :: typed p :: supplyProducts (some p.char) l
    else typed p :: supplyProducts (some p.char) l

/-- The span from the start of `first` to the end of `last`. -/
def cover (first last : Glyph) : Span where
  offset := first.offset
  length := last.offset + last.char.utf8Size - first.offset

end Glyph

/-- An expression without blanks and with its implied products written out. -/
structure Condensed where
  glyphs : List Glyph
deriving DecidableEq, Repr

namespace Condensed

/-- The characters of an expression that are no blanks, in their places. -/
def typed (l : List Char) : List Placed :=
  (Placed.ofChars 0 l).filter fun p => !Text.isBlank p.char

/-- Drops the blanks and writes out the implied products. -/
def ofChars (l : List Char) : Condensed where
  glyphs := Glyph.supplyProducts none (typed l)

/-- The condensed text. -/
def toChars (c : Condensed) : List Char :=
  c.glyphs.map Glyph.char

/-- For each byte of the text the offset of the byte it comes from. -/
def origins (c : Condensed) : List Nat :=
  c.glyphs.flatMap Glyph.origins

/-- Where the bytes from `start` up to `stop` come from, if there are any. -/
def span? (c : Condensed) (start stop : Nat) : Option Span :=
  if start < stop then do
    let first ← c.origins[start]?
    let last ← c.origins[stop - 1]?
    return ⟨first, last + 1 - first⟩
  else none

/-- Whether two condensed expressions have the same text with the same origins. -/
def Same (a b : Condensed) : Prop :=
  a.toChars = b.toChars ∧ a.origins = b.origins

/-- The text and the origins can be compared. -/
instance (a b : Condensed) : Decidable (a.Same b) :=
  inferInstanceAs (Decidable (_ ∧ _))

/-- There is one origin for each byte of the text. -/
theorem length_origins (c : Condensed) : c.origins.length = Text.byteLength c.toChars := by
  cases c with
  | mk glyphs =>
    induction glyphs with
    | nil => rfl
    | cons g l ih =>
      simp only [origins, toChars, List.flatMap_cons, List.length_append, List.map_cons,
        Text.byteLength_cons] at ih ⊢
      rw [ih]
      simp [Glyph.origins]

end Condensed

end Calculator
