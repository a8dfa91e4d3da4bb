/-!
# Blanks

A blank is a character with the property White_Space: 25 characters in ten ranges of code points.
Blanks mean nothing in an expression, so `strip` takes all of them away; `trim` takes away only
those at the two ends.
-/

namespace Calculator.Text

/-- The code points of the blanks, as closed ranges in ascending order. -/
def blankRanges : List (Nat × Nat) :=
  [(0x09, 0x0D), (0x20, 0x20), (0x85, 0x85), (0xA0, 0xA0), (0x1680, 0x1680), (0x2000, 0x200A),
   (0x2028, 0x2029), (0x202F, 0x202F), (0x205F, 0x205F), (0x3000, 0x3000)]

/-- Whether the character is a blank. -/
def isBlank (c : Char) : Bool :=
  blankRanges.any fun r => r.1 ≤ c.toNat && c.toNat ≤ r.2

/-- The zero width space looks blank and is none. -/
example : isBlank '\u200b' = false := by decide

/-- The characters of `l` that are no blanks. -/
def strip (l : List Char) : List Char :=
  l.filter fun c => !isBlank c

/-- Whether `l` holds blanks only. -/
def isAllBlank (l : List Char) : Bool :=
  l.all isBlank

/-- Blanks are left out of each part. -/
@[simp] theorem strip_append (l m : List Char) : strip (l ++ m) = strip l ++ strip m := by
  simp [strip]

/-- Only blanks leave nothing. -/
theorem strip_eq_nil_iff {l : List Char} : strip l = [] ↔ isAllBlank l = true := by
  simp [strip, isAllBlank]

/-- The list without its last elements that satisfy `p`. -/
def dropEndWhile {α : Type} (p : α → Bool) (l : List α) : List α :=
  (l.reverse.dropWhile p).reverse

/-- The text without the blanks at its two ends. -/
def trim (l : List Char) : List Char :=
  dropEndWhile isBlank (l.dropWhile isBlank)

end Calculator.Text
