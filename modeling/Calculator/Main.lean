import Calculator.CommandLine.Outcome

/-!
# The command line program

Carries bytes between the surroundings and `Calculator.runCommandLine`. A conversation over the
standard input is answered line by line, each with `Calculator.Command.reply`.
-/

namespace Calculator

/-- Reads to the end of a line and keeps the line end. -/
partial def readLine (input : IO.FS.Stream) (line : List UInt8) : IO (List UInt8) := do
  match (← input.read 1).data.toList with
  | [byte] => if byte = 10 then return (byte :: line).reverse else readLine input (byte :: line)
  | _ => return line.reverse

/-- Writes what comes of a command. -/
def Outcome.show (o : Outcome) : IO UInt32 := do
  o.output.forM IO.print
  o.complaints.forM IO.eprintln
  return o.status

/-- Answers line after line of the standard input. -/
partial def converse : IO UInt32 := do
  IO.print Command.prompt
  (← IO.getStdout).flush
  match Text.byteLines (← readLine (← IO.getStdin) []) with
  | [] => return 0
  | bytes :: _ =>
    match Text.decode? bytes with
    | none => Command.unreadable.show
    | some l =>
      let (output, complaints) := Command.reply l
      let _ ← Outcome.show { output := output, complaints := complaints }
      converse

end Calculator

open Calculator in
/-- Runs the command that the arguments give. -/
def main (args : List String) : IO UInt32 := do
  match Command.ofArgs? args with
  | some .repl => converse
  | some (.evaluateFile path) =>
    let contents ← try some <$> IO.FS.readBinFile path catch _ => pure none
    (Command.fileOutcome path contents).show
  | _ => (runCommandLine (fun _ => none) ByteArray.empty args).show
