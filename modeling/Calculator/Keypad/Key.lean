import Calculator.Token

/-!
# Keys

The keys of a calculator's keypad, and the labels printed on them.
-/

namespace Calculator

/-- The keys of the keypad. -/
inductive Key where
  /-- A digit. A key made by hand may carry any character. -/
  | digit (char : Char)
  | point
  /-- An operator or a parenthesis. A key made by hand may carry any character. -/
  | symbol (char : Char)
  | clear
  | backspace
  | equals
deriving DecidableEq, Repr

namespace Key

/-- The key with the label `c`. -/
def ofChar? (c : Char) : Option Key :=
  if c.isDigit then some (digit c)
  else if (Token.ofChar? c).isSome then some (symbol c)
  else
    match c with
    | '.' => some point
    | '×' => some (symbol Operator.multiply.char)
    | '÷' => some (symbol Operator.divide.char)
    | 'C' => some clear
    | '⌫' => some backspace
    | '=' => some equals
    | _ => none

/-- The key with this label. All labels are single characters. -/
def ofLabel? (label : String) : Option Key :=
  match label.toList with
  | [c] => ofChar? c
  | _ => none

end Key

end Calculator
