import Calculator.Decimal.Basic

/-!
# The shortest decimal of a number

`Decimal.shortest x` has the fewest significant digits among the decimals that read back as `x`, and
of those with that many digits it is the one nearest to `x`; of two equally near ones it is the
larger. All comparisons are exact: the value of a finite number is a quotient of naturals.
-/

namespace Calculator

/-- The exact magnitude of a finite number, as a quotient. -/
structure Magnitude where
  numerator : Nat
  /-- The number below the line, a power of two. -/
  denominator : Nat
deriving DecidableEq, Repr

namespace Magnitude

/-- The value `m * 2 ^ e` of the fields of a finite number. -/
def ofFloat (x : Float) : Magnitude :=
  let bits := x.toBits.toNat
  let fraction := bits % Nat.pow 2 52
  let exponent := bits / Nat.pow 2 52 % Nat.pow 2 11
  -- Under the least exponent the significand has no leading one.
  if exponent = 0 then ⟨fraction, Nat.pow 2 1074⟩
  else ⟨(Nat.pow 2 52 + fraction) * Nat.pow 2 (exponent - 1075), Nat.pow 2 (1075 - exponent)⟩

/-- The least `k` with `v < 10 ^ k`, for a positive `v`. -/
def scale (v : Magnitude) : Int :=
  if v.denominator ≤ v.numerator then (Nat.toDigits 10 (v.numerator / v.denominator)).length
  else 1 - (Nat.toDigits 10 ((v.denominator - 1) / v.numerator)).length

/-- How many times `10 ^ k` goes into `v`. -/
def quotient (v : Magnitude) (k : Int) : Nat :=
  v.numerator * Nat.pow 10 (-k).toNat / (v.denominator * Nat.pow 10 k.toNat)

/-- Whether `v` is nearer to `c * 10 ^ k` than to `(c + 1) * 10 ^ k`. -/
def isBelowMiddle (v : Magnitude) (c : Nat) (k : Int) : Bool :=
  2 * v.numerator * Nat.pow 10 (-k).toNat < (2 * c + 1) * v.denominator * Nat.pow 10 k.toNat

end Magnitude

namespace Decimal

/-- The decimal `c * 10 ^ k`. -/
def ofGrid (c : Nat) (k : Int) : Decimal :=
  normalize (c * Nat.pow 10 k.toNat) (-k).toNat

/-- The nearer multiple of `10 ^ k` around `x` that reads back as `x`, if any does. -/
def onGrid? (x : Float) (k : Int) : Option Decimal :=
  let v := Magnitude.ofFloat x
  let c := v.quotient k
  -- An exact middle goes to the multiple above.
  let below := ofGrid c k
  let above := ofGrid (c + 1) k
  if below.toFloat = x ∧ (v.isBelowMiddle c k ∨ above.toFloat ≠ x) then some below
  else if above.toFloat = x then some above
  else none

/-- The decimal that equals `v`, whose denominator is a power of two. -/
def exact (v : Magnitude) : Decimal :=
  let places := v.denominator.log2
  normalize (v.numerator * Nat.pow 5 places) places

/-- The decimal with the fewest digits that reads back as `x`; seventeen suffice. -/
def shortest (x : Float) : Decimal :=
  let v := Magnitude.ofFloat x
  if v.numerator = 0 then ⟨0, 0⟩
  else
    ((List.range' 1 17).findSome? fun (digits : Nat) => onGrid? x (v.scale - digits)).getD (exact v)

end Decimal

end Calculator
