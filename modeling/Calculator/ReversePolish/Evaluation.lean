import Calculator.Diagnostic
import Calculator.Token

/-!
# Evaluating reverse Polish sequences

A sequence is evaluated from left to right on a stack of values: a number is put on it, and an
operator takes its two operands from it and puts its result there. The sequence has a value if
exactly one is left at the end.
-/

namespace Calculator

/-- Why a sequence has no value. -/
inductive EvaluationError where
  /-- The operator at `position` needs two operands and there are only `found`. -/
  | insufficientOperands (op : Operator) (position found : Nat)
  /-- There is a parenthesis at `position`. -/
  | unexpectedParen (side : Paren) (position : Nat)
  /-- At the end `count` values are left. -/
  | leftoverOperands (count : Nat)
deriving DecidableEq, Repr

namespace EvaluationError

/-- What is wrong with the sequence. -/
def message : EvaluationError → String
  | insufficientOperands op _ _ =>
    "Failed to evaluate: not enough operands for `" ++ String.ofList [op.char] ++ "`"
  | unexpectedParen side _ =>
    "Failed to evaluate: unexpected `" ++ String.ofList [side.char] ++ "` in postfix sequence"
  | leftoverOperands count =>
    "Failed to evaluate: " ++ toString count ++ " values left without an operator"

/-- What may be done about it. -/
def help : EvaluationError → String
  | insufficientOperands op position found =>
    "`" ++ String.ofList [op.char] ++ "` at postfix position " ++ toString position ++
      " needs two operands but only " ++ toString found ++ " were available"
  | unexpectedParen _ _ => "parentheses are resolved while parsing and never reach evaluation"
  | leftoverOperands _ => "join the values with `+`, `-`, `*` or `/`"

/-- The report on an error; it has no place. -/
def diagnostic (e : EvaluationError) : Diagnostic where
  message := e.message
  help := e.help

end EvaluationError

/-- Evaluates the tokens from `position` on, on a stack of values. -/
def reduceWith (apply : Operator → Float → Float → Float) (position : Nat) :
    List Float → List Token → Except EvaluationError (Option Float)
  | [], [] => .ok none
  | [value], [] => .ok (some value)
  | values, [] => .error (.leftoverOperands values.length)
  | values, .number value :: tokens => reduceWith apply (position + 1) (value :: values) tokens
  | right :: left :: values, .operator op :: tokens =>
    reduceWith apply (position + 1) (apply op left right :: values) tokens
  | values, .operator op :: _ => .error (.insufficientOperands op position values.length)
  | _, .paren side :: _ => .error (.unexpectedParen side position)

/-- The value of a sequence under the operations `apply`, if it has any tokens. -/
def evaluateWith (apply : Operator → Float → Float → Float) (tokens : List Token) :
    Except EvaluationError (Option Float) :=
  reduceWith apply 0 [] tokens

/-- The value of a sequence under the operations of binary64. -/
def evaluate (tokens : List Token) : Except EvaluationError (Option Float) :=
  evaluateWith Operator.apply tokens

end Calculator
