import Calculator.CommandLine.Command
import Calculator.Keypad.Basic
import Calculator.Text.Line

/-!
# The outcome of a command

What a command writes and with which status it ends, as a function of its arguments, the files there
are and the standard input. The status tells expressions that cannot be read (65) from all other
failures (1) and from arguments that make no command (2).
-/

namespace Calculator

/-- What a run of the program shows. -/
structure Outcome where
  status : UInt32 := 0
  /-- What is written to the standard output, piece by piece. -/
  output : List String := []
  /-- The lines that are written to the standard error. -/
  complaints : List String := []
deriving DecidableEq, Repr

namespace Outcome

/-- A run that ends with a report. -/
def failure (status : UInt32) (d : Diagnostic) : Outcome where
  status := status
  complaints := d.lines

/-- The run `o` after these pieces were written. -/
def after (output complaints : List String) (o : Outcome) : Outcome where
  status := o.status
  output := output ++ o.output
  complaints := complaints ++ o.complaints

/-- All that is written to the standard output. -/
def text (o : Outcome) : String :=
  String.join o.output

end Outcome

namespace CalculationError

/-- Whether the expression itself is at fault, kind by kind. -/
def isSyntactic : CalculationError → Bool
  | syntactic (.lexical (.unexpectedCharacter _ _)) => true
  | syntactic (.lexical (.malformedNumeral _ _)) => true
  | syntactic (.unmatchedClosing _) => true
  | syntactic (.unclosedGroup _) => true
  | evaluation (.insufficientOperands _ _ _) => false
  | evaluation (.unexpectedParen _ _) => false
  | evaluation (.leftoverOperands _) => false

/-- The status of a run that ends with this error. -/
def status (e : CalculationError) : UInt32 :=
  if e.isSyntactic then 65 else 1

/-- An error of syntax has a status of its own. -/
@[simp] theorem status_syntactic (e : SyntaxError) : (syntactic e).status = 65 := by
  match e with
  | .lexical (.unexpectedCharacter _ _) => rfl
  | .lexical (.malformedNumeral _ _) => rfl
  | .unmatchedClosing _ => rfl
  | .unclosedGroup _ => rfl

/-- Other errors have the status of any failure. -/
@[simp] theorem status_evaluation (e : EvaluationError) : (evaluation e).status = 1 := by
  cases e <;> rfl

end CalculationError

/-- A run over the expression `source` that ends with this error. -/
def Outcome.ofError (source : Source) (e : CalculationError) : Outcome :=
  .failure e.status (e.terseDiagnostic source)

/-- What is shown for a result. -/
def resultText : Option Float → String
  | some value => String.ofList (formatResult value)
  | none => "no result"

namespace Command

/-- The text with a line end. -/
def line (l : List Char) : String :=
  String.ofList l ++ "\n"

/-- Shows the items of the expression `source` up to the first error. -/
def tokenizeOutcome (source : Source) : List Item → Outcome
  | [] => { output := ["EOF  null\n"] }
  | .ok lexeme :: items => (tokenizeOutcome source items).after [line lexeme.line] []
  | .error e :: _ => .ofError source (.syntactic (.lexical e))

/-- Shows the arrangement of the expression `source`. -/
def parseOutcome (source : Source) : Outcome :=
  match Calculator.parse source.text with
  | .ok tokens => { output := [line (List.intercalate [' '] (tokens.map Token.toChars))] }
  | .error e => .ofError source (.syntactic e)

/-- Shows the value of the expression `source`. -/
def evaluateOutcome (source : Source) : Outcome :=
  match calculate source.text with
  | .ok result => { output := [resultText result ++ "\n"] }
  | .error e => .ofError source e

/-- Shows the values of lines that are not blank, up to the first failure. -/
def linesOutcome (name : String) : List (List Char) → Outcome
  | [] => {}
  | l :: ls =>
    if Text.isAllBlank l then linesOutcome name ls
    else
      match calculate l with
      | .ok result => (linesOutcome name ls).after [resultText result ++ "\n"] []
      | .error e => .ofError { text := l, name := name } e

/-- Shows the values of the lines of a file, if it holds a text. -/
def fileOutcome (name : String) (contents : Option ByteArray) : Outcome :=
  match contents.bind fun bytes => Text.decode? bytes.data.toList with
  | some l => linesOutcome name (Text.lines l)
  | none => { status := 1, complaints := ["reading `" ++ name ++ "` failed"] }

/-- Shows the display after the keys with these labels were pressed. -/
def keysOutcome (labels : List String) : Outcome :=
  let response := Keypad.pressAll {} labels
  match response.failure with
  | none => { output := [line response.keypad.display] }
  | some e => .failure 1 e.diagnostic

/-- What is written before a line of the standard input is read. -/
def prompt : String := "> "

/-- What is written for a line of the standard input, and what is reported. -/
def reply (l : List Char) : List String × List String :=
  if Text.isAllBlank l then ([], [])
  else
    match calculate l with
    | .ok result => ([resultText result ++ "\n"], [])
    | .error e => ([], (e.terseDiagnostic { text := l }).lines)

/-- The answer to a line that encodes no text. -/
def unreadable : Outcome where
  status := 1
  complaints := ["reading stdin failed"]

/-- Answers line after line, past those that fail. -/
def replOutcome : List (List UInt8) → Outcome
  | [] => { output := [prompt] }
  | bytes :: rest =>
    match Text.decode? bytes with
    | none => unreadable.after [prompt] []
    | some l => (replOutcome rest).after (prompt :: (reply l).1) (reply l).2

/-- What comes of a command, with `file` for the files and `input` for the standard input. -/
def run (file : String → Option ByteArray) (input : ByteArray) : Command → Outcome
  | tokenize expression =>
    tokenizeOutcome { text := expression.toList } (Item.ofChars expression.toList)
  | parse expression => parseOutcome { text := expression.toList }
  | evaluate expression => evaluateOutcome { text := expression.toList }
  | evaluateFile path => fileOutcome path (file path)
  | keys labels => keysOutcome labels
  | repl => replOutcome (Text.byteLines input.data.toList)

/-- Arguments that make no command are answered with the purpose of the program. -/
def misuse : Outcome where
  status := 2
  complaints := ["Evaluate infix arithmetic expressions"]

end Command

/-- What comes of the command line with these arguments. -/
def runCommandLine (file : String → Option ByteArray) (input : ByteArray) (args : List String) :
    Outcome :=
  match Command.ofArgs? args with
  | some command => command.run file input
  | none => Command.misuse

end Calculator
