import Calculator.Condensed
import Calculator.Diagnostic

/-!
# Lexemes

A condensed expression is read as a sequence of items. A run of digits and points is read as one
number, if it is a numeral, and any other character as a symbol of its own, if it is one. What is
neither is an error, and reading goes on behind it (`Item.scan`).
-/

namespace Calculator

/-- A token and the span of the expression it comes from. -/
structure Lexeme where
  token : Token
  span : Span
deriving DecidableEq

/-- Why a piece of an expression is no token. -/
inductive LexicalError where
  /-- The character at `span` belongs to no token. -/
  | unexpectedCharacter (char : Char) (span : Span)
  /-- The run of digits and points at `span` is no numeral. -/
  | malformedNumeral (literal : List Char) (span : Span)
deriving DecidableEq, Repr

namespace LexicalError

/-- Where the piece stands in the expression. -/
def span : LexicalError → Span
  | unexpectedCharacter _ span => span
  | malformedNumeral _ span => span

/-- What is wrong with the piece. -/
def message : LexicalError → String
  | unexpectedCharacter c _ => "Unexpected character '" ++ String.ofList [c] ++ "'"
  | malformedNumeral literal _ => "Invalid number literal `" ++ String.ofList literal ++ "`"

/-- What may stand there instead. -/
def help : LexicalError → String
  | unexpectedCharacter _ _ => "only digits, `.`, `+`, `-`, `*`, `/`, `(` and `)` are allowed"
  | malformedNumeral _ _ => "a number is digits with at most one decimal point, like `12` or `1.5`"

/-- What the span of the piece is marked with. -/
def label : LexicalError → String
  | unexpectedCharacter _ _ => "this character"
  | malformedNumeral _ _ => "this numeric literal"

/-- The report on a piece of the expression `source`. -/
def diagnostic (source : Source) (e : LexicalError) : Diagnostic where
  message := e.message
  help := e.help
  excerpt := source.excerpt e.label e.span

end LexicalError

namespace Lexeme

/-- A whole number shows a zero place in the value of its lexeme. -/
def valueStyle : Style :=
  { Token.style with wholeMark := ".0" }

/-- The kind, the text and the value of the lexeme. -/
def line (l : Lexeme) : List Char :=
  l.token.kindName.toList ++ ' ' :: l.token.toChars ++ ' ' ::
    match l.token with
    | .number value => valueStyle.render value
    | _ => "null".toList

end Lexeme

/-- What is read from one piece of an expression. -/
abbrev Item := Except LexicalError Lexeme

namespace Item

/-- Reads a run of digits and points. -/
def ofRun (run : List Glyph) (span : Span) : Item :=
  let literal := run.map Glyph.char
  match Decimal.ofChars? literal with
  | some d => .ok ⟨.number d.toFloat, span⟩
  | none => .error (.malformedNumeral literal span)

/-- Reads a character that is no part of a numeral. -/
def ofGlyph (g : Glyph) : Item :=
  match Token.ofChar? g.char with
  | some token => .ok ⟨token, g.cover g⟩
  | none => .error (.unexpectedCharacter g.char (g.cover g))

/-- Whether the glyph may stand in a numeral. -/
def inNumeral (g : Glyph) : Bool :=
  Decimal.isNumeral g.char

/-- Reads the first piece of `l` and returns what comes behind it. -/
def next? : List Glyph → Option (Item × List Glyph)
  | [] => none
  | g :: l =>
    if inNumeral g then
      let more := l.takeWhile inNumeral
      some (ofRun (g :: more) (g.cover (more.getLastD g)), l.dropWhile inNumeral)
    else some (ofGlyph g, l)

/-- Every piece takes up some of the text. -/
theorem length_of_next? {l rest : List Glyph} {item : Item} (h : next? l = some (item, rest)) :
    rest.length < l.length := by
  cases l with
  | nil => cases h
  | cons g l =>
    simp only [next?] at h
    split at h
    · obtain ⟨_, rfl⟩ := Prod.mk.inj (Option.some.inj h)
      exact Nat.lt_succ_of_le (List.dropWhile_suffix inNumeral).length_le
    · obtain ⟨_, rfl⟩ := Prod.mk.inj (Option.some.inj h)
      exact Nat.lt_succ_self _

/-- Reads piece after piece, past every error. -/
def scan (l : List Glyph) : List Item :=
  match _h : next? l with
  | none => []
  | some (item, rest) => item :: scan rest
termination_by l.length
decreasing_by exact length_of_next? _h

/-- Nothing is read from an empty text. -/
@[simp] theorem scan_nil : scan [] = [] := by
  rw [scan]
  rfl

/-- A scan goes on behind its first piece. -/
theorem scan_of_next? {l rest : List Glyph} {item : Item} (h : next? l = some (item, rest)) :
    scan l = item :: scan rest := by
  rw [scan]
  split
  · next h' => rw [h] at h'; cases h'
  · next h' => rw [h] at h'; cases h'; rfl

/-- A run of digits and points is scanned as one item. -/
theorem scan_cons_of_inNumeral {g : Glyph} {l : List Glyph} (h : inNumeral g = true) :
    scan (g :: l) =
      ofRun (g :: l.takeWhile inNumeral) (g.cover ((l.takeWhile inNumeral).getLastD g)) ::
        scan (l.dropWhile inNumeral) :=
  scan_of_next? (by simp only [next?, h, if_true])

/-- Any other character is scanned by itself. -/
theorem scan_cons_of_not_inNumeral {g : Glyph} {l : List Glyph} (h : inNumeral g = false) :
    scan (g :: l) = ofGlyph g :: scan l :=
  scan_of_next? (by simp only [next?, h, Bool.false_eq_true, if_false])

/-- The items of the expression `l`. -/
def ofChars (l : List Char) : List Item :=
  scan (Condensed.ofChars l).glyphs

end Item

end Calculator
