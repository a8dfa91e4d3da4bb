/-!
# Lines

A line ends at a line feed, and a carriage return directly before the line feed belongs to the line
end too. What is behind the last line feed is a line unless it is empty. The same cut serves
characters and the bytes that encode them.
-/

namespace Calculator.Text

variable {α : Type} [DecidableEq α]

/-- Puts `a` in front of the first line. -/
def prependToFirst (a : α) : List (List α) → List (List α)
  | [] => [[a]]
  | line :: lines => (a :: line) :: lines

/-- The lines of `l`, which end at `feed`, a `carriage` before it included. -/
def cutLines (feed carriage : α) : List α → List (List α)
  | [] => []
  | a :: l =>
    if a = feed then [] :: cutLines feed carriage l
    else if a = carriage ∧ l.head? = some feed then cutLines feed carriage l
    else prependToFirst a (cutLines feed carriage l)

/-- The lines of a text. -/
def lines (l : List Char) : List (List Char) :=
  cutLines '\n' '\r' l

/-- The lines of an encoded text, as bytes. -/
def byteLines (l : List UInt8) : List (List UInt8) :=
  cutLines 10 13 l

/-- The text that bytes encode in UTF-8, if they encode one. -/
def decode? (l : List UInt8) : Option (List Char) :=
  (String.fromUTF8? l.toByteArray).map String.toList

end Calculator.Text
