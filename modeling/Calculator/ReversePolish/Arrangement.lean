import Calculator.Lexeme

/-!
# Arranging in reverse Polish order

In reverse Polish order an operator stands behind its operands and there are no parentheses. Infix
tokens are arranged in one pass: numbers are written at once, and an operator waits until its right
operand is complete, which it is when an operator comes that binds no tighter, or when the group
around it ends. `parse` does this for an expression and reports the first error that stands in the
way.
-/

namespace Calculator

/-- Why an expression cannot be arranged. -/
inductive SyntaxError where
  /-- A piece of the expression is no token. -/
  | lexical (e : LexicalError)
  /-- The `)` at `span` closes no group. -/
  | unmatchedClosing (span : Span)
  /-- The group that the `(` at `span` opens is never closed. -/
  | unclosedGroup (span : Span)
deriving DecidableEq, Repr

namespace SyntaxError

/-- Where the error is in the expression. -/
def span : SyntaxError → Span
  | lexical e => e.span
  | unmatchedClosing span => span
  | unclosedGroup span => span

/-- What is wrong with the expression. -/
def message : SyntaxError → String
  | lexical e => e.message
  | unmatchedClosing _ => "Mismatched parentheses"
  | unclosedGroup _ => "Unclosed parenthesis"

/-- What may be done about it. -/
def help : SyntaxError → String
  | lexical e => e.help
  | unmatchedClosing _ => "add a matching `(` earlier or remove this `)`"
  | unclosedGroup _ => "add a `)` to close the group"

/-- What the span of the error is marked with. -/
def label : SyntaxError → String
  | lexical e => e.label
  | unmatchedClosing _ => "no `(` left to close"
  | unclosedGroup _ => "this `(` is never closed"

/-- The report on an error in the expression `source`. -/
def diagnostic (source : Source) (e : SyntaxError) : Diagnostic where
  message := e.message
  help := e.help
  excerpt := source.excerpt e.label e.span

end SyntaxError

/-- A group that is open. -/
structure Group where
  /-- The place of its `(`. -/
  start : Span
  /-- The operators outside the group that wait for its end, the last one first. -/
  outside : List Operator
deriving DecidableEq, Repr

/-- An arrangement of the tokens read so far. -/
structure Arrangement where
  /-- The tokens that have found their place. -/
  written : Array Token := #[]
  /-- The operators that wait inside the innermost open group, the last one first. -/
  waiting : List Operator := []
  /-- The open groups, the innermost one first. -/
  groups : List Group := []
deriving DecidableEq

namespace Arrangement

/-- Writes operators in their order. -/
def write (written : Array Token) (ops : List Operator) : Array Token :=
  written ++ ops.map Token.operator

/-- Writes what binds at least as tightly as `op`, and lets `op` wait. -/
def addOperator (op : Operator) (a : Arrangement) : Arrangement where
  written := write a.written (a.waiting.takeWhile fun top => op.precedence ≤ top.precedence)
  waiting := op :: a.waiting.dropWhile fun top => op.precedence ≤ top.precedence
  groups := a.groups

/-- Opens a group at `span`. -/
def openGroup (span : Span) (a : Arrangement) : Arrangement where
  written := a.written
  waiting := []
  groups := ⟨span, a.waiting⟩ :: a.groups

/-- Closes the innermost group, if any, with the `)` at `span`. -/
def closeGroup (span : Span) (a : Arrangement) : Except SyntaxError Arrangement :=
  match a.groups with
  | [] => .error (.unmatchedClosing span)
  | group :: groups => .ok
    { written := write a.written a.waiting
      waiting := group.outside
      groups := groups }

/-- Takes in what was read next. -/
def step (a : Arrangement) : Item → Except SyntaxError Arrangement
  | .error e => .error (.lexical e)
  | .ok lexeme =>
    match lexeme.token with
    | .number value => .ok { a with written := a.written.push (.number value) }
    | .operator op => .ok (a.addOperator op)
    | .paren .opening => .ok (a.openGroup lexeme.span)
    | .paren .closing => a.closeGroup lexeme.span

/-- The whole sequence, if every group is closed. -/
def finish (a : Arrangement) : Except SyntaxError (List Token) :=
  match a.groups with
  | [] => .ok (write a.written a.waiting).toList
  | group :: _ => .error (.unclosedGroup group.start)

/-- Arranges everything that was read. -/
def ofItems (items : List Item) : Except SyntaxError (List Token) :=
  items.foldlM step {} >>= finish

end Arrangement

/-- The tokens of the expression `l` in reverse Polish order. -/
def parse (l : List Char) : Except SyntaxError (List Token) :=
  Arrangement.ofItems (Item.ofChars l)

end Calculator
