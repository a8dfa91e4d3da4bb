/-!
# Decimals

A decimal is a coefficient with a number of decimal places. `Decimal.toChars` writes all of its
places and `Decimal.ofChars?` reads a numeral: digits with at most one point among them and at least
one digit. What is written is read back as the same decimal (`ofChars?_toChars`). `Decimal.toFloat`
is the binary64 number nearest to a decimal.
-/

namespace Calculator

/-- The number `coefficient / 10 ^ places`. -/
structure Decimal where
  /-- The digits without the point. -/
  coefficient : Nat
  /-- How many of the digits stand behind the point. -/
  places : Nat
deriving DecidableEq, Repr

namespace Decimal

/-- The digits of `n`, preceded by zeros up to `width` characters. -/
def padded (width n : Nat) : List Char :=
  List.replicate (width - (Nat.toDigits 10 n).length) '0' ++ Nat.toDigits 10 n

/-- The whole part, and a point and the places if there are any. -/
def toChars (d : Decimal) : List Char :=
  if d.places = 0 then Nat.toDigits 10 d.coefficient
  else Nat.toDigits 10 (d.coefficient / Nat.pow 10 d.places) ++
    '.' :: padded d.places (d.coefficient % Nat.pow 10 d.places)

/-- Whether `c` may stand in a numeral. -/
def isNumeral (c : Char) : Bool :=
  c.isDigit || c == '.'

/-- Reads a numeral, if `l` is one. -/
def ofChars? (l : List Char) : Option Decimal :=
  let whole := l.takeWhile Char.isDigit
  match l.dropWhile Char.isDigit with
  | [] => if whole.isEmpty then none else some ⟨Nat.ofDigitChars 10 whole 0, 0⟩
  | point :: fraction =>
    if point == '.' && fraction.all Char.isDigit && !(whole.isEmpty && fraction.isEmpty) then
      some ⟨Nat.ofDigitChars 10 (whole ++ fraction) 0, fraction.length⟩
    else none

/-- The binary64 number nearest to the decimal, rounded half to even. -/
def toFloat (d : Decimal) : Float :=
  Float.ofScientific d.coefficient true d.places

/-- The same number with no zero at the end of its places. -/
def normalize (coefficient : Nat) : Nat → Decimal
  | 0 => ⟨coefficient, 0⟩
  | places + 1 =>
    if coefficient % 10 = 0 then normalize (coefficient / 10) places else ⟨coefficient, places + 1⟩

/-- A number is written in digits only. -/
theorem all_isDigit_toDigits (n : Nat) : (Nat.toDigits 10 n).all Char.isDigit = true := by
  simp only [List.all_eq_true]
  intro c hc
  exact Nat.isDigit_of_mem_toDigits (by decide) (by decide) hc

/-- Zeros in front are digits too. -/
theorem all_isDigit_padded (width n : Nat) : (padded width n).all Char.isDigit = true := by
  simp [padded, List.all_append, all_isDigit_toDigits, List.all_replicate]

/-- A number that is not too long is filled up to the width. -/
theorem length_padded {width n : Nat} (hw : 0 < width) (h : n < Nat.pow 10 width) :
    (padded width n).length = width := by
  have := (Nat.length_toDigits_le_iff (b := 10) (by decide) hw).2 h
  simp only [padded, List.length_append, List.length_replicate]
  omega

/-- Zeros in front do not change the number. -/
theorem ofDigitChars_padded (width n : Nat) : Nat.ofDigitChars 10 (padded width n) 0 = n := by
  rw [padded, Nat.ofDigitChars_append, Nat.ofDigitChars_replicate_zero, Nat.mul_zero]
  exact Nat.ofDigitChars_toDigits (by decide) (by decide)

/-- What is written is read back as the same decimal. -/
theorem ofChars?_toChars (d : Decimal) : ofChars? d.toChars = some d := by
  obtain ⟨coefficient, places⟩ := d
  have whole (n : Nat) (l : List Char) :
      (Nat.toDigits 10 n ++ l).takeWhile Char.isDigit =
        Nat.toDigits 10 n ++ l.takeWhile Char.isDigit ∧
        (Nat.toDigits 10 n ++ l).dropWhile Char.isDigit = l.dropWhile Char.isDigit := by
    have h := List.all_eq_true.1 (all_isDigit_toDigits n)
    exact ⟨List.takeWhile_append_of_pos h, List.dropWhile_append_of_pos h⟩
  by_cases hp : places = 0
  · have h := whole coefficient []
    rw [List.append_nil] at h
    simp [toChars, ofChars?, hp, h.1, h.2, Nat.toDigits_ne_nil, Nat.ofDigitChars_toDigits]
  · have hlen := length_padded (Nat.pos_of_ne_zero hp)
      (Nat.mod_lt coefficient (Nat.pow_pos (n := places) (by decide : 0 < 10)))
    have hdot : ('.' : Char).isDigit = false := rfl
    have h := whole (coefficient / Nat.pow 10 places)
      ('.' :: padded places (coefficient % Nat.pow 10 places))
    simp only [toChars, ofChars?, hp, if_false, h.1, h.2, List.takeWhile_cons,
      List.dropWhile_cons, hdot, Bool.false_eq_true, all_isDigit_padded, List.append_nil,
      Nat.ofDigitChars_append, Nat.ofDigitChars_toDigits (b := 10) (by decide) (by decide)]
    rw [Nat.ofDigitChars_eq_ofDigitChars_zero, ofDigitChars_padded, hlen, ← Nat.pow_eq,
      Nat.div_add_mod]
    simp [Nat.toDigits_ne_nil]

end Decimal

end Calculator
