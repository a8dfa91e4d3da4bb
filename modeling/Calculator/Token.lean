import Calculator.Decimal.Style

/-!
# Tokens

The tokens of infix arithmetic: numbers, the four operators and the two parentheses. `*` and `/`
bind tighter than `+` and `-`.
-/

namespace Calculator

/-- An operator of two operands. -/
inductive Operator where
  | add
  | subtract
  | multiply
  | divide
deriving DecidableEq, Repr

namespace Operator

/-- The character of the operator. -/
def char : Operator → Char
  | add => '+'
  | subtract => '-'
  | multiply => '*'
  | divide => '/'

/-- The operator that `c` stands for. -/
def ofChar? : Char → Option Operator
  | '+' => some add
  | '-' => some subtract
  | '*' => some multiply
  | '/' => some divide
  | _ => none

/-- How tightly the operator binds its operands. -/
def precedence : Operator → Nat
  | add | subtract => 1
  | multiply | divide => 2

/-- The operation on binary64 numbers, each correctly rounded. -/
def apply : Operator → Float → Float → Float
  | add, a, b => a + b
  | subtract, a, b => a - b
  | multiply, a, b => a * b
  | divide, a, b => a / b

/-- An operator is read from its character only. -/
theorem ofChar?_eq_some_iff {c : Char} {op : Operator} : ofChar? c = some op ↔ c = op.char := by
  constructor
  · intro h
    unfold ofChar? at h
    split at h <;> cases h <;> rfl
  · rintro rfl
    cases op <;> rfl

end Operator

/-- The sides of a group. -/
inductive Paren where
  | opening
  | closing
deriving DecidableEq, Repr

/-- The character of the parenthesis. -/
def Paren.char : Paren → Char
  | opening => '('
  | closing => ')'

/-- A token of infix arithmetic. -/
inductive Token where
  | number (value : Float)
  | operator (op : Operator)
  | paren (side : Paren)
deriving DecidableEq

namespace Token

/-- The operator or parenthesis that `c` stands for. -/
def ofChar? : Char → Option Token
  | '(' => some (paren .opening)
  | ')' => some (paren .closing)
  | c => (Operator.ofChar? c).map operator

/-- The character of an operator or a parenthesis. -/
def symbol? : Token → Option Char
  | number _ => none
  | operator op => some op.char
  | paren side => some side.char

/-- A symbol is read from its character only. -/
theorem ofChar?_eq_some_iff {c : Char} {t : Token} : ofChar? c = some t ↔ t.symbol? = some c := by
  constructor
  · intro h
    unfold ofChar? at h
    split at h
    · cases h; rfl
    · cases h; rfl
    · obtain ⟨op, hop, rfl⟩ := Option.map_eq_some_iff.1 h
      simp [symbol?, Operator.ofChar?_eq_some_iff.1 hop]
  · intro h
    cases t with
    | number _ => cases h
    | operator op => cases h; cases op <;> rfl
    | paren side => cases h; cases side <;> rfl

/-- How tightly an operator binds. -/
def precedence? : Token → Option Nat
  | operator op => some op.precedence
  | _ => none

/-- The value of a number. -/
def value? : Token → Option Float
  | number value => some value
  | _ => none

/-- The name of the token's kind. -/
def kindName : Token → String
  | number _ => "NUMBER"
  | operator .add => "PLUS"
  | operator .subtract => "MINUS"
  | operator .multiply => "STAR"
  | operator .divide => "SLASH"
  | paren .opening => "LEFT_PAREN"
  | paren .closing => "RIGHT_PAREN"

/-- Numbers in a token keep the sign of zero and have no mark. -/
def style : Style where
  undefined := "NaN"
  infinity := "inf"
  signedZero := true
  wholeMark := ""

/-- The text of the token. -/
def toChars : Token → List Char
  | number value => style.render value
  | operator op => [op.char]
  | paren side => [side.char]

/-- Whether two tokens are the same symbol or numbers that compare equal. -/
def agrees : Token → Token → Bool
  | number a, number b => a == b
  | operator a, operator b => a = b
  | paren a, paren b => a = b
  | _, _ => false

end Token

end Calculator
