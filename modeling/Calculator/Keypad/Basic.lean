import Calculator.Calculation
import Calculator.Keypad.Key

/-!
# The keypad

A keypad edits one line of text, its display. Digits and points extend the numeral at the end of the
display, and everything else is set off by a space. The key `=` puts the result in the place of the
expression. A press that fails leaves the display as it was.
-/

namespace Calculator

/-- Why a press fails. -/
inductive PressError where
  /-- There is no key with this label. -/
  | unknownKey (label : String)
  /-- The expression on the display has no value. -/
  | calculation (expression : List Char) (e : CalculationError)
deriving DecidableEq, Repr

/-- The report on a press that failed. -/
def PressError.diagnostic : PressError → Diagnostic
  | unknownKey label =>
    { message := "Unknown key `" ++ label ++ "`"
      help := "keys are digits, `.`, `+`, `-`, `*`, `/`, `(`, `)`, `C`, `⌫` and `=`" }
  | calculation expression e => e.diagnostic { text := expression }

/-- A keypad, by what its display shows. -/
structure Keypad where
  display : List Char := []
deriving DecidableEq, Repr

namespace Keypad

/-- The keypad after a press and, if it failed, the reason. -/
structure Response where
  keypad : Keypad
  failure : Option PressError := none
deriving DecidableEq, Repr

/-- Appends a character, set off by a space unless it is the first. -/
def pushSpaced (k : Keypad) (c : Char) : Keypad where
  display := if k.display.isEmpty then [c] else k.display ++ [' ', c]

/-- Goes on with the numeral at the end of the display, or begins one. -/
def pushNumeral (k : Keypad) (c : Char) : Keypad :=
  if k.display.getLast?.any Decimal.isNumeral then { display := k.display ++ [c] }
  else k.pushSpaced c

/-- Takes away the last character and the blanks at the two ends. -/
def eraseLast (k : Keypad) : Keypad where
  display := Text.trim k.display.dropLast

/-- Puts the result, or nothing if there is none, in the place of the expression. -/
def equals (k : Keypad) : Response :=
  if k.display.isEmpty then { keypad := k }
  else
    match calculate k.display with
    | .ok result => { keypad := { display := (result.map formatResult).getD [] } }
    | .error e => { keypad := k, failure := some (.calculation k.display e) }

/-- Presses a key. -/
def press (k : Keypad) : Key → Response
  | .digit c => { keypad := k.pushNumeral c }
  | .point => { keypad := k.pushNumeral '.' }
  | .symbol c => { keypad := k.pushSpaced c }
  | .clear => { keypad := {} }
  | .backspace => { keypad := k.eraseLast }
  | .equals => k.equals

/-- Presses the key with this label, if there is one. -/
def pressLabel (k : Keypad) (label : String) : Response :=
  match Key.ofLabel? label with
  | some key => k.press key
  | none => { keypad := k, failure := some (.unknownKey label) }

/-- Presses the keys with these labels up to the first failure. -/
def pressAll (k : Keypad) : List String → Response
  | [] => { keypad := k }
  | label :: labels =>
    let response := k.pressLabel label
    match response.failure with
    | none => response.keypad.pressAll labels
    | some _ => response

end Keypad

end Calculator
