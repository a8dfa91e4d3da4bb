import Calculator.Proofs.Arrangement.Conservation
import Calculator.Proofs.CommandLine.LineByLine
import Calculator.Proofs.Keypad.Session

/-!
# Single expressions

The status of a command that takes one expression tells whether the expression failed and where, and
what the command writes is what was read, arranged or calculated, or nothing
(`runCommandLine_outcome`). An expression with a piece that is no token cannot be arranged, and one
that cannot be arranged has no value. The keypad has one status for every failure, and its display
is written only if every press succeeds.
-/

namespace Calculator

/-- An expression with a piece that is no token cannot be arranged. -/
lemma exists_error_of_item {l : List Char} {e : LexicalError} (h : .error e ∈ Item.ofChars l) :
    ∃ e, parse l = .error e := by
  cases read : parse l with
  | error e => exact ⟨e, rfl⟩
  | ok tokens =>
    obtain ⟨lexemes, items, -, -⟩ := exists_lexemes_of_parse read
    rw [items] at h
    obtain ⟨lexeme, -, ok⟩ := List.mem_map.1 h
    cases ok

namespace Command

/-- The lexemes before the first error are written, or all of them and the end. -/
inductive Tokenized (items : List Item) (o : Outcome) : Prop where
  | complete (lexemes : List Lexeme) :
    items = lexemes.map .ok →
    o.status = 0 →
    o.output = lexemes.map (fun lexeme => line lexeme.line) ++ ["EOF  null\n"] →
    Tokenized items o
  | stopped (lexemes : List Lexeme) (e : LexicalError) (rest : List Item) :
    items = lexemes.map .ok ++ .error e :: rest →
    o.status = 65 →
    o.output = lexemes.map (fun lexeme => line lexeme.line) →
    Tokenized items o

/-- The arrangement of `l` is written, or the status is that of a syntax error. -/
structure Parsed (l : List Char) (o : Outcome) : Prop where
  ok_iff : o.status = 0 ↔ ∃ tokens, Calculator.parse l = .ok tokens
  error_iff : o.status = 65 ↔ ∃ e, Calculator.parse l = .error e
  output : ∀ tokens, Calculator.parse l = .ok tokens →
    o.output = [line (List.intercalate [' '] (tokens.map Token.toChars))]
  silent : o.status ≠ 0 → o.output = []

/-- The value of `l` is written, or the status tells the failures apart. -/
structure Evaluated (l : List Char) (o : Outcome) : Prop where
  ok_iff : o.status = 0 ↔ ∃ result, calculate l = .ok result
  syntactic_iff : o.status = 65 ↔ ∃ e, Calculator.parse l = .error e
  evaluation_iff : o.status = 1 ↔
    ∃ tokens e, Calculator.parse l = .ok tokens ∧ Calculator.evaluate tokens = .error e
  value : ∀ v, calculate l = .ok (some v) → o.output = [line (formatResult v)]
  no_value : calculate l = .ok none → o.output = ["no result\n"]
  silent : o.status ≠ 0 → o.output = []

/-- What comes of the commands that take the one expression `l`. -/
structure SingleExpression (l : List Char) (ofTokenize ofParse ofEvaluate : Outcome) : Prop where
  tokenized : Tokenized (Item.ofChars l) ofTokenize
  parsed : Parsed l ofParse
  evaluated : Evaluated l ofEvaluate
  same_refusals : ofEvaluate.status = 65 ↔ ofParse.status = 65
  refused_of_tokenize : ofTokenize.status = 65 → ofEvaluate.status = 65

/-- The display after these keys is written, if every press succeeds. -/
structure Pressed (labels : List String) (o : Outcome) : Prop where
  accepted_iff : o.status = 0 ↔ Clear (Keypad.Rejects {}) labels
  rejected_iff : o.status = 1 ↔ ∃ i, FirstFault (Keypad.Rejects {}) labels i
  display : o.status = 0 → o.output = [line (({} : Keypad).pressEach labels).display]
  silent : o.status ≠ 0 → o.output = []
  /-- A syntax error has no status of its own here. -/
  syntactic : ∀ done rest e, labels = done ++ "=" :: rest →
    Calculator.parse (({} : Keypad).pressEach done).display = .error e → o.status = 1

/-- The items are written up to the first error. -/
lemma tokenized (source : Source) (items : List Item) :
    Tokenized items (tokenizeOutcome source items) := by
  induction items with
  | nil => exact .complete [] rfl rfl rfl
  | cons item items ih =>
    cases item with
    | error e => exact .stopped [] e items rfl (CalculationError.status_syntactic _) rfl
    | ok lexeme =>
      cases ih with
      | complete lexemes read status output =>
        exact .complete (lexeme :: lexemes) (congrArg (.ok lexeme :: ·) read) status
          (congrArg (line lexeme.line :: ·) output)
      | stopped lexemes e rest read status output =>
        exact .stopped (lexeme :: lexemes) e rest (congrArg (.ok lexeme :: ·) read) status
          (congrArg (line lexeme.line :: ·) output)

/-- The status of a syntax error tells that an item is one. -/
lemma Tokenized.exists_error {items o} (h : Tokenized items o) (status : o.status = 65) :
    ∃ e, .error e ∈ items := by
  cases h with
  | complete _ _ zero =>
    rw [zero] at status
    cases status
  | stopped lexemes e rest read => exact ⟨e, by simp [read]⟩

/-- The arrangement is written, if there is one. -/
lemma parsed (l : List Char) : Parsed l (parseOutcome { text := l }) := by
  cases read : Calculator.parse l with
  | ok tokens =>
    have shown : parseOutcome { text := l } =
        { output := [line (List.intercalate [' '] (tokens.map Token.toChars))] } := by
      rw [parseOutcome, read]
    rw [shown]
    constructor <;> simp [read]
  | error e =>
    have refused : parseOutcome { text := l } = .ofError { text := l } (.syntactic e) := by
      rw [parseOutcome, read]
    rw [refused]
    constructor <;> simp [read, Outcome.ofError, Outcome.failure]

/-- The value is written, if there is one. -/
lemma evaluated (l : List Char) : Evaluated l (alone l) := by
  have verdict := verdict l
  have succeeds_iff : succeeds l = true ↔ (alone l).status = 0 := beq_iff_eq
  refine ⟨succeeds_iff.symm.trans verdict.succeeds_iff, verdict.syntactic_iff,
    verdict.evaluation_iff,
    fun v h => verdict.value _ h, fun h => verdict.value _ h, fun h => verdict.silent ?_⟩
  exact Bool.eq_false_iff.2 (mt succeeds_iff.1 h)

/-- The display is written, if no press fails. -/
lemma pressed (labels : List String) : Pressed labels (keysOutcome labels) := by
  rcases clear_or_firstFault (Keypad.Rejects {}) labels with clear | ⟨i, label, fault, e⟩
  · have shown : keysOutcome labels =
        { output := [line (({} : Keypad).pressEach labels).display] } := by
      rw [keysOutcome, Keypad.pressAll_of_clear clear]
    rw [shown]
    refine ⟨iff_of_true rfl clear, iff_of_false (by simp) ?_, fun _ => rfl,
      fun h => absurd rfl h, ?_⟩
    · rintro ⟨i, fault⟩
      exact clear i fault.faulty
    · -- a clear list has no such key
      rintro done rest e rfl error
      have failed : calculate (({} : Keypad).pressEach done).display = .error (.syntactic e) := by
        simp only [calculate, error]
      exact absurd (Keypad.rejects_equals failed) clear.fits
  · -- the first press that fails ends the run, whatever its error is
    obtain ⟨failure, failed⟩ :=
      Option.ne_none_iff_exists'.1 (Keypad.pressAll_of_firstFault fault e).2
    have refused : keysOutcome labels = .failure 1 failure.diagnostic := by
      simp only [keysOutcome, failed]
    rw [refused]
    refine ⟨iff_of_false (by simp [Outcome.failure]) ?_, iff_of_true rfl ⟨i, fault⟩, ?_,
      fun _ => rfl, fun _ _ _ _ _ => rfl⟩
    · intro clear
      exact clear i fault.faulty
    · intro shown
      exact absurd shown (by simp [Outcome.failure])

variable (file : String → Option ByteArray) (input : ByteArray)

/-- The three commands over one expression. -/
lemma singleExpression (expression : String) :
    SingleExpression expression.toList (run file input (.tokenize expression))
      (run file input (.parse expression)) (run file input (.evaluate expression)) := by
  have alone : run file input (.evaluate expression) = alone expression.toList := by
    rw [alone_eq]
    rfl
  have items := tokenized { text := expression.toList } (Item.ofChars expression.toList)
  have parsed := parsed expression.toList
  have evaluated := evaluated expression.toList
  rw [alone]
  refine ⟨items, parsed, evaluated, evaluated.syntactic_iff.trans parsed.error_iff.symm,
    fun status => ?_⟩
  obtain ⟨e, error⟩ := items.exists_error status
  exact evaluated.syntactic_iff.2 (exists_error_of_item error)

/-- However the expression or the labels are given, a command ends with the status that they call
for. -/
theorem runCommandLine_outcome :
    (∀ expression words, Operands.Plain words [expression] →
      SingleExpression expression.toList (runCommandLine file input ("tokenize" :: words))
        (runCommandLine file input ("parse" :: words))
        (runCommandLine file input ("evaluate" :: words))) ∧
    (∀ labels words, labels ≠ [] → Operands.Plain words labels →
      Pressed labels (runCommandLine file input ("keys" :: words))) ∧
    ∀ labels, Pressed labels (run file input (.keys labels)) := by
  refine ⟨fun expression words given => ?_, fun labels words some given => ?_, pressed⟩
  · rw [runCommandLine_of_plain given, runCommandLine_of_plain given, runCommandLine_of_plain given]
    exact singleExpression file input expression
  · obtain ⟨label, labels, rfl⟩ := List.exists_cons_of_ne_nil some
    rw [runCommandLine_of_plain given]
    exact pressed (label :: labels)

/-- An expression that looks like an option, and keys on both sides of `--`. -/
theorem runCommandLine_outcome_ending :
    let run := runCommandLine (fun _ => none) ByteArray.empty
    Operands.Plain ["--", "-1"] ["-1"] ∧
      SingleExpression "-1".toList (run ["tokenize", "--", "-1"]) (run ["parse", "--", "-1"])
        (run ["evaluate", "--", "-1"]) ∧
      Operands.Plain ["8", "÷", "--", "2", "="] ["8", "÷", "2", "="] ∧
      Pressed ["8", "÷", "2", "="] (run ["keys", "8", "÷", "--", "2", "="]) := by
  obtain ⟨single, keys, -⟩ := runCommandLine_outcome (fun _ => none) ByteArray.empty
  have keyed : Operands.Plain ["8", "÷", "--", "2", "="] ["8", "÷", "2", "="] :=
    .value (by decide) (.value (by decide) .ending)
  exact ⟨.ending, single "-1" _ .ending, keyed, keys _ _ (List.cons_ne_nil _ _) keyed⟩

end Command

end Calculator
