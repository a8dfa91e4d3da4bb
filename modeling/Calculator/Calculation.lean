import Calculator.ReversePolish.Arrangement
import Calculator.ReversePolish.Evaluation

/-!
# Calculations

To calculate an expression is to arrange it in reverse Polish order and to evaluate the sequence.
-/

namespace Calculator

/-- Why an expression has no value. -/
inductive CalculationError where
  /-- It cannot be arranged. -/
  | syntactic (e : SyntaxError)
  /-- It is arranged, and the sequence has no value. -/
  | evaluation (e : EvaluationError)
deriving DecidableEq, Repr

namespace CalculationError

/-- The report on an error to someone who has just typed the expression. -/
def terseDiagnostic (source : Source) : CalculationError → Diagnostic
  | syntactic e => e.diagnostic source
  | evaluation e => e.diagnostic

/-- The report on an error. An evaluation error names the expression. -/
def diagnostic (source : Source) : CalculationError → Diagnostic
  | syntactic e => e.diagnostic source
  | evaluation e =>
    { message := "while evaluating `" ++ String.ofList source.text ++ "`"
      causes := [e.message]
      help := e.help }

end CalculationError

/-- The value of the expression `l`, if it has one. -/
def calculate (l : List Char) : Except CalculationError (Option Float) :=
  match parse l with
  | .error e => .error (.syntactic e)
  | .ok tokens => (evaluate tokens).mapError .evaluation

/-- An expression is not arranged, or has no value, or has this result. -/
theorem calculate_cases (l : List Char) :
    (∃ e, parse l = .error e ∧ calculate l = .error (.syntactic e)) ∨
    (∃ tokens e, parse l = .ok tokens ∧ evaluate tokens = .error e ∧
      calculate l = .error (.evaluation e)) ∨
    ∃ tokens result, parse l = .ok tokens ∧ evaluate tokens = .ok result ∧
      calculate l = .ok result := by
  cases read : parse l with
  | error e => exact .inl ⟨e, rfl, by rw [calculate, read]⟩
  | ok tokens =>
    have rest : calculate l = (evaluate tokens).mapError .evaluation := by rw [calculate, read]
    cases evaluated : evaluate tokens with
    | error e => exact .inr (.inl ⟨tokens, e, rfl, evaluated, by rw [rest, evaluated]; rfl⟩)
    | ok result => exact .inr (.inr ⟨tokens, result, rfl, evaluated, by rw [rest, evaluated]; rfl⟩)

/-- Results spell infinity out and show both zeros as `0`. -/
def resultStyle : Style where
  undefined := "NaN"
  infinity := "Infinity"
  signedZero := false
  wholeMark := ""

/-- The text of a result. -/
def formatResult (value : Float) : List Char :=
  resultStyle.render value

end Calculator
