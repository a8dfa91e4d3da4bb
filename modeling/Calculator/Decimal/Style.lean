import Calculator.Decimal.Shortest

/-!
# The text of a number

Numbers are written with the fewest digits that read back and never with an exponent. What is left
to decide (the names of infinity and of the value that is no number, the sign of zero, a mark on
whole numbers) is a `Style`.
-/

namespace Calculator

/-- What a text of a number leaves open. -/
structure Style where
  /-- The text of the value that is no number. -/
  undefined : String
  infinity : String
  /-- Whether the sign of a negative zero is written. -/
  signedZero : Bool
  /-- What stands behind a number without a fraction, infinity included. -/
  wholeMark : String

namespace Style

/-- The text of `x` in this style. -/
def render (style : Style) (x : Float) : List Char :=
  if x.isNaN then style.undefined.toList
  else
    -- Every bit but the sign.
    let magnitude := Float.ofBits (x.toBits &&& 0x7FFFFFFFFFFFFFFF)
    let unsigned := x.toBits = magnitude.toBits ∨ (magnitude == 0.0 && !style.signedZero)
    let sign := if unsigned then [] else ['-']
    if x.isInf then sign ++ style.infinity.toList ++ style.wholeMark.toList
    else
      let d := Decimal.shortest magnitude
      sign ++ d.toChars ++ if d.places = 0 then style.wholeMark.toList else []

end Style

end Calculator
