/-!
# Commands

The arguments of the command line name one command and give it its operands. The words are read by
the conventions of option parsers: a word that begins with `-` and has more characters is an option,
until the word `--` ends the options, and a lone `-` is an ordinary word. The only option is
`--file`, and only one command takes it.
-/

namespace Calculator

/-- What the command line asks for. -/
inductive Command where
  | tokenize (expression : String)
  | parse (expression : String)
  | evaluate (expression : String)
  /-- Show the value of every line of a file. -/
  | evaluateFile (path : String)
  | keys (labels : List String)
  /-- Show the value of every line of the standard input. -/
  | repl
deriving DecidableEq, Repr

/-- The words behind the name of a command. -/
structure Operands where
  /-- What the option `--file` was given. -/
  paths : List String := []
  /-- The words that are neither options nor given to one. -/
  values : List String := []
deriving DecidableEq, Repr

namespace Operands

/-- Whether a word is an option where options are allowed. -/
def isOption (word : String) : Bool :=
  match word.toList with
  | '-' :: _ :: _ => true
  | _ => false

/-- Adds the path of a file, which must not be empty. -/
def addPath? (path : String) (operands : Operands) : Option Operands :=
  if path.isEmpty then none else some { operands with paths := path :: operands.paths }

/-- Sorts the words behind the name of a command. -/
def ofWords? : List String → Option Operands
  | [] => some {}
  | word :: words =>
    if word = "--" then some { values := words }
    else if word = "--file" then
      match words with
      | [] => none
      | path :: words => if isOption path then none else (ofWords? words).bind (addPath? path)
    else
      match "--file=".toList.isPrefixOf? word.toList with
      | some path => (ofWords? words).bind (addPath? (String.ofList path))
      | none =>
        if isOption word then none
        else (ofWords? words).map fun operands =>
          { operands with values := word :: operands.values }

end Operands

/-- The command that the arguments give, if they give one. -/
def Command.ofArgs? : List String → Option Command
  | [] => none
  | name :: words =>
    match Operands.ofWords? words with
    | none => none
    | some operands =>
      match name, operands.paths, operands.values with
      | "tokenize", [], [expression] => some (tokenize expression)
      | "parse", [], [expression] => some (parse expression)
      | "evaluate", [], [expression] => some (evaluate expression)
      | "evaluate", [path], [] => some (evaluateFile path)
      | "keys", [], label :: labels => some (keys (label :: labels))
      | "repl", [], [] => some repl
      | _, _, _ => none

end Calculator
