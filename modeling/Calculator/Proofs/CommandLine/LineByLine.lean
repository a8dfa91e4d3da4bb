import Calculator.Proofs.CommandLine.Arguments
import Calculator.Proofs.Text.Encoding

/-!
# Line by line

The commands that show the values of the lines of a file and of the standard input give each line
the answer that it gets as an expression of its own (`run_line_by_line`). The one stops at the first
line that fails and takes over its status. The other goes on whatever the lines are, and ends only
with its input or at a line that encodes no text.
-/

namespace Calculator.Command

/-- What comes of a line as a command of its own. -/
def alone (l : List Char) : Outcome :=
  run (fun _ => none) ByteArray.empty (.evaluate (String.ofList l))

/-- Whether a line has a value. -/
def succeeds (l : List Char) : Bool :=
  (alone l).status == 0

/-- The lines that are not blank. -/
def expressions (ls : List (List Char)) : List (List Char) :=
  ls.filter fun l => !Text.isAllBlank l

/-- What is written for a line behind the prompt. -/
def answer (l : List Char) : List String :=
  if Text.isAllBlank l then [] else (alone l).output

/-- A line comes to a result, or to a status that tells failures apart. -/
structure Verdict (l : List Char) : Prop where
  /-- Where the line looks like an option, the word `--` must be put in front of it. -/
  given : ∀ file input words,
    words = ["--", String.ofList l] ∨
      words = [String.ofList l] ∧ Operands.isOption (String.ofList l) = false →
    runCommandLine file input ("evaluate" :: words) = alone l
  value : ∀ result, calculate l = .ok result → (alone l).output = [resultText result ++ "\n"]
  succeeds_iff : succeeds l = true ↔ ∃ result, calculate l = .ok result
  syntactic_iff : (alone l).status = 65 ↔ ∃ e, Calculator.parse l = .error e
  evaluation_iff :
    (alone l).status = 1 ↔
      ∃ tokens e, Calculator.parse l = .ok tokens ∧ Calculator.evaluate tokens = .error e
  silent : succeeds l = false → (alone l).output = []

/-- What lines come to in a file and in a conversation. -/
structure LineByLine (ls : List (List Char)) (batch conversation : Outcome) : Prop where
  batch_output : batch.output = ((expressions ls).takeWhile succeeds).flatMap fun l =>
    (alone l).output
  /-- The status is that of the first failure, if there is one. -/
  batch_status :
    batch.status = (((expressions ls).find? fun l => !succeeds l).map fun l =>
      (alone l).status).getD 0
  conversation_status : conversation.status = 0
  conversation_output : conversation.output = (ls.flatMap fun l => prompt :: answer l) ++ [prompt]
  conversation_complaints : conversation.complaints = [] ↔ ∀ l ∈ expressions ls, succeeds l = true

/-- What bytes come to that encode no text behind these lines. -/
structure Interrupted (texts : List (List Char)) (batch conversation : Outcome) : Prop where
  batch_output : batch.output = []
  batch_status : batch.status = 1
  conversation_status : conversation.status = 1
  conversation_output :
      conversation.output = (texts.flatMap fun l => prompt :: answer l) ++ [prompt]

variable {l : List Char} {ls : List (List Char)} {name : String}

/-- A line alone is an expression that is evaluated. -/
lemma alone_eq (l : List Char) : alone l = evaluateOutcome { text := l } := by
  rw [alone, run, String.toList_ofList]

/-- A result is written. -/
lemma alone_of_ok {result} (h : calculate l = .ok result) :
    alone l = { output := [resultText result ++ "\n"] } := by
  rw [alone_eq, evaluateOutcome, h]

/-- An error ends the run. -/
lemma alone_of_error {e} (h : calculate l = .error e) :
    alone l = .ofError { text := l } e := by
  rw [alone_eq, evaluateOutcome, h]

/-- No error has the status of success. -/
lemma status_ne_zero (e : CalculationError) : e.status ≠ 0 := by
  rw [CalculationError.status]
  split <;> decide

/-- A line with a result succeeds. -/
lemma succeeds_of_ok {result} (h : calculate l = .ok result) : succeeds l = true := by
  rw [succeeds, alone_of_ok h]
  rfl

/-- A line with an error does not succeed. -/
lemma not_succeeds_of_error {e} (h : calculate l = .error e) : succeeds l = false := by
  rw [succeeds, alone_of_error h]
  exact beq_false_of_ne (status_ne_zero e)

/-- A line may be given behind `--`, or as it is if it is no option. -/
lemma runCommandLine_evaluate {file input words}
    (h : words = ["--", String.ofList l] ∨
      words = [String.ofList l] ∧ Operands.isOption (String.ofList l) = false) :
    runCommandLine file input ("evaluate" :: words) = alone l := by
  have plain : Operands.Plain words [String.ofList l] := by
    obtain rfl | ⟨rfl, option⟩ := h
    · exact .ending
    · exact .value option .nil
  rw [runCommandLine_of_plain plain]
  rfl

/-- Each line has its verdict. -/
theorem verdict (l : List Char) : Verdict l := by
  obtain ⟨e, read, failed⟩ | ⟨tokens, e, read, evaluated, failed⟩ |
      ⟨tokens, result, read, evaluated, value⟩ :=
    calculate_cases l
  · refine ⟨fun _ _ _ => runCommandLine_evaluate, ?_, ?_, ?_, ?_, ?_⟩
    all_goals simp [failed, read, not_succeeds_of_error failed, alone_of_error failed,
      Outcome.ofError, Outcome.failure]
  · refine ⟨fun _ _ _ => runCommandLine_evaluate, ?_, ?_, ?_, ?_, ?_⟩
    all_goals simp [failed, read, evaluated, not_succeeds_of_error failed, alone_of_error failed,
      Outcome.ofError, Outcome.failure]
  · refine ⟨fun _ _ _ => runCommandLine_evaluate, ?_, ?_, ?_, ?_, ?_⟩
    all_goals simp [value, read, evaluated, succeeds_of_ok value, alone_of_ok value]

/-- Blank lines are passed over. -/
lemma linesOutcome_of_blank (blank : Text.isAllBlank l = true) :
    linesOutcome name (l :: ls) = linesOutcome name ls :=
  if_pos blank

/-- The result of a line is written before those of the others. -/
lemma linesOutcome_of_ok {result} (text : Text.isAllBlank l = false)
    (h : calculate l = .ok result) :
    linesOutcome name (l :: ls) = (linesOutcome name ls).after (alone l).output [] := by
  rw [linesOutcome, text, h, alone_of_ok h]
  rfl

/-- A line that fails ends the run. -/
lemma linesOutcome_of_error {e} (text : Text.isAllBlank l = false) (h : calculate l = .error e) :
    linesOutcome name (l :: ls) = .ofError { text := l, name := name } e := by
  rw [linesOutcome, text, h]
  rfl

/-- A blank line is no expression. -/
lemma expressions_cons_of_blank (blank : Text.isAllBlank l = true) :
    expressions (l :: ls) = expressions ls :=
  List.filter_cons_of_neg (by rw [blank]; exact Bool.false_ne_true)

/-- Any other line is one. -/
lemma expressions_cons (text : Text.isAllBlank l = false) :
    expressions (l :: ls) = l :: expressions ls :=
  List.filter_cons_of_pos (by rw [text]; rfl)

/-- A file is gone through up to the first failure. -/
lemma linesOutcome_spec (name : String) (ls : List (List Char)) :
    (linesOutcome name ls).output =
        ((expressions ls).takeWhile succeeds).flatMap (fun l => (alone l).output) ∧
      (linesOutcome name ls).status =
        (((expressions ls).find? fun l => !succeeds l).map fun l => (alone l).status).getD 0 := by
  induction ls with
  | nil => exact ⟨rfl, rfl⟩
  | cons l ls ih =>
    cases text : Text.isAllBlank l with
    | true =>
      rw [linesOutcome_of_blank text, expressions_cons_of_blank text]
      exact ih
    | false =>
      rw [expressions_cons text, List.takeWhile_cons, List.find?_cons]
      cases h : calculate l with
      | ok result =>
        rw [linesOutcome_of_ok text h, succeeds_of_ok h]
        exact ⟨congrArg ((alone l).output ++ ·) ih.1, ih.2⟩
      | error e =>
        have status := congrArg Outcome.status (alone_of_error h)
        rw [linesOutcome_of_error text h, not_succeeds_of_error h]
        exact ⟨rfl, status.symm⟩

/-- A line is answered in a conversation as it is alone. -/
lemma reply_eq (text : Text.isAllBlank l = false) :
    reply l = ((alone l).output, (alone l).complaints) := by
  rw [reply, text]
  cases h : calculate l with
  | ok result => rw [alone_of_ok h]; rfl
  | error e => rw [alone_of_error h]; rfl

/-- A line is answered in a conversation as it is alone. -/
lemma reply_fst (l : List Char) : (reply l).1 = answer l := by
  cases text : Text.isAllBlank l with
  | true => rw [reply, answer, text]; rfl
  | false => rw [reply_eq text, answer, text]; rfl

/-- Nothing is reported of a line that succeeds. -/
lemma complaints_eq_nil_iff : (alone l).complaints = [] ↔ succeeds l = true := by
  cases h : calculate l with
  | ok result => simp [alone_of_ok h, succeeds_of_ok h]
  | error e =>
    simp [alone_of_error h, not_succeeds_of_error h, Outcome.ofError, Outcome.failure,
      Diagnostic.lines]

/-- Nothing is reported of blank lines and of those that succeed. -/
lemma reply_snd_eq_nil_iff :
    (reply l).2 = [] ↔ (Text.isAllBlank l = false → succeeds l = true) := by
  cases text : Text.isAllBlank l with
  | true => simp [reply, text]
  | false => simp [reply_eq text, complaints_eq_nil_iff]

/-- Behind lines of text a conversation goes on with the rest. -/
lemma replOutcome_append (texts : List (List Char)) (rest : List (List UInt8)) :
    replOutcome (texts.map Text.encode ++ rest) =
      (replOutcome rest).after (texts.flatMap fun l => prompt :: answer l)
        (texts.flatMap fun l => (reply l).2) := by
  induction texts with
  | nil => rfl
  | cons l texts ih =>
    rw [List.map_cons, List.cons_append, replOutcome, Text.decode?_eq_some_iff.2 rfl]
    simp only [ih, Outcome.after, List.flatMap_cons, reply_fst, List.append_assoc]

/-- The lines of a text are answered one by one. -/
lemma lineByLine_of_text (name : String) (x : List Char) :
    LineByLine (Text.lines x) (fileOutcome name (some (String.ofList x).toUTF8))
      (replOutcome (Text.byteLines (Text.encode x))) := by
  have batch : fileOutcome name (some (String.ofList x).toUTF8) =
      linesOutcome name (Text.lines x) := by
    rw [fileOutcome, Option.bind_some, Text.toList_toUTF8, Text.decode?_eq_some_iff.2 rfl]
  have conversation := replOutcome_append (Text.lines x) []
  rw [List.append_nil, ← Text.byteLines_encode] at conversation
  rw [batch, conversation]
  obtain ⟨output, status⟩ := linesOutcome_spec name (Text.lines x)
  refine ⟨output, status, rfl, rfl, ?_⟩
  simp only [Outcome.after, replOutcome, List.append_nil, List.flatMap_eq_nil_iff,
    reply_snd_eq_nil_iff, expressions, List.mem_filter, Bool.not_eq_true', and_imp]

/-- The lines of a file and of a conversation are answered as they are alone. -/
theorem run_line_by_line (file : String → Option ByteArray) (path : String) (bytes : ByteArray)
    (stored : file path = some bytes) :
    (∀ l, Verdict l) ∧
      (∀ x, bytes = (String.ofList x).toUTF8 →
        ∃ ls, Text.Cut '\n' '\r' x ls ∧
          LineByLine ls (run file bytes (.evaluateFile path)) (run file bytes .repl)) ∧
      (¬bytes.IsValidUTF8 →
        ∃ (texts : List (List Char)) (line : List UInt8) (rest : List (List UInt8)),
          Text.Cut 10 13 bytes.data.toList (texts.map Text.encode ++ line :: rest) ∧
            ¬line.toByteArray.IsValidUTF8 ∧
            Interrupted texts (run file bytes (.evaluateFile path)) (run file bytes .repl)) := by
  refine ⟨verdict, fun x text => ?_, fun garbled => ?_⟩
  · refine ⟨Text.lines x, Text.cut_cutLines (by decide) x, ?_⟩
    rw [run, run, stored, text, Text.toList_toUTF8]
    exact lineByLine_of_text path x
  · have same : bytes.data.toList.toByteArray = bytes := by
      apply ByteArray.ext
      rw [List.data_toByteArray, Array.toArray_toList]
    have unread : Text.decode? bytes.data.toList = none := by
      rw [Text.decode?_eq_none_iff, same]
      exact garbled
    obtain ⟨texts, line, rest, lines, bad⟩ := Text.exists_undecodable_line unread
    refine ⟨texts, line, rest, ?_, Text.decode?_eq_none_iff.1 bad, ?_⟩
    · rw [← lines]
      exact Text.cut_cutLines (by decide) _
    · rw [run, run, stored, fileOutcome, Option.bind_some, unread, lines, replOutcome_append,
        replOutcome, bad]
      exact ⟨rfl, rfl, rfl, rfl⟩

/-- The file has a blank line and one without a value among others. -/
theorem run_line_by_line_sums :
    let x := "1 + 1\r\n\n2 +\n3".toList
    let bytes := (String.ofList x).toUTF8
    let file (path : String) : Option ByteArray := if path = "sums" then some bytes else none
    file "sums" = some bytes ∧ (∀ l, Verdict l) ∧
      ∃ ls, Text.Cut '\n' '\r' x ls ∧
        LineByLine ls (run file bytes (.evaluateFile "sums")) (run file bytes .repl) := by
  intro x bytes file
  have stored : file "sums" = some bytes := if_pos rfl
  obtain ⟨verdicts, text, -⟩ := run_line_by_line file "sums" bytes stored
  exact ⟨stored, verdicts, text x rfl⟩

end Calculator.Command
