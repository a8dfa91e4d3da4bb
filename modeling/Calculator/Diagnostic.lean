import Calculator.Text.Span

/-!
# Diagnostics

A diagnostic tells a user what failed: a message, the messages of what caused it, a hint and, if the
failure has a place, the stretch of the expression it points at.
-/

namespace Calculator

/-- An expression and where it was read. -/
structure Source where
  text : List Char
  /-- The name of the file, or a stand-in where there is none. -/
  name : String := "<input>"
deriving DecidableEq, Repr

/-- The place in a source that a diagnostic points at. -/
structure Excerpt where
  /-- What is wrong there. -/
  label : String
  span : Span
  /-- The source's text in the span. -/
  snippet : List Char
  sourceName : String
deriving DecidableEq, Repr

/-- What a user is told about a failure. -/
structure Diagnostic where
  message : String
  /-- The messages that led to this one, the nearest first. -/
  causes : List String := []
  /-- A hint at what to do. -/
  help : String
  excerpt : Option Excerpt := none
deriving DecidableEq, Repr

/-- Points at a span of the source. -/
def Source.excerpt (source : Source) (label : String) (span : Span) : Excerpt where
  label := label
  span := span
  snippet := (span.slice? source.text).getD []
  sourceName := source.name

/-- The texts of the diagnostic, one on each line. -/
def Diagnostic.lines (d : Diagnostic) : List String :=
  d.message :: d.causes ++ (d.excerpt.toList.flatMap fun e =>
    [e.sourceName ++ ":" ++ toString e.span.offset, String.ofList e.snippet, e.label]) ++ [d.help]

end Calculator
