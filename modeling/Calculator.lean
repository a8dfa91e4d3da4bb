import Calculator.Main
import Calculator.Proofs.Evaluation
import Calculator.Proofs.Arrangement.Nesting
import Calculator.Proofs.Arrangement.Precedence
import Calculator.Proofs.Grammar.Numeral
import Calculator.Proofs.Grammar.Sentence
import Calculator.Proofs.Grammar.Reading
import Calculator.Proofs.Grammar.Acceptance
import Calculator.Proofs.Arrangement.Conservation
import Calculator.Proofs.Grammar.Room
import Calculator.Proofs.Grammar.Rejection
import Calculator.Proofs.Grammar.Leftover
import Calculator.Proofs.Scanning.Tokenization
import Calculator.Proofs.Keypad.Continuation
import Calculator.Proofs.Scanning.Source
import Calculator.Proofs.Scanning.Runs
import Calculator.Proofs.Culprit
import Calculator.Proofs.Arrangement.Order
import Calculator.Proofs.Decimal.Unsigned
import Calculator.Proofs.Grammar.Printing
import Calculator.Proofs.Text.Encoding
import Calculator.Proofs.CommandLine.LineByLine
import Calculator.Proofs.Condensed.Origins
import Calculator.Proofs.Condensed.Range
import Calculator.Proofs.CommandLine.SingleExpression
import Calculator.Proofs.Keypad.Display
import Calculator.Proofs.NoResult
import Calculator.Proofs.Groups
import Calculator.Proofs.Arrangement.Shunting
import Calculator.Proofs.Scanning.Cursor
