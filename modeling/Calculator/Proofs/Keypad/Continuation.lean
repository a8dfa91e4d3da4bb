import Calculator.Proofs.Decimal.Sign
import Calculator.Proofs.Grammar.Acceptance
import Calculator.Proofs.Grammar.Rejection
import Calculator.Proofs.Keypad.Session

/-!
# Going on with a result

A result on the display is read like anything that was typed. So an operator, a numeral and `=`
operate on it if it is finite and not negative. The text of any other result starts with a minus
sign or a letter, which no expression does, and then the `=` fails (`pressAll_result`).
-/

namespace Calculator

/-- A phrase starts with a numeral or a `(`. -/
lemma Derives.exists_head {k l t} (h : Derives k l t) :
    ∃ c m, l = c :: m ∧ (Decimal.isNumeral c = true ∨ c = '(') := by
  induction h with
  | ofTerm _ ih | ofFactor _ ih | ofGroup _ ih => exact ih
  | sum _ _ _ ih _ | product _ _ _ ih _ | juxtaposition _ _ ih _ =>
    obtain ⟨c, m, rfl, hc⟩ := ih
    exact ⟨c, _, rfl, hc⟩
  | numeral h =>
    obtain ⟨c, m, rfl⟩ := List.exists_cons_of_ne_nil h.ne_nil
    exact ⟨c, m, rfl, .inl (h.inNumeral c (by simp))⟩
  | enclose => exact ⟨'(', _, rfl, .inr rfl⟩

/-- Two factors around an operator are an expression. -/
lemma Derives.operation {l m t u} (hl : Derives .factor l t) (op : Operator)
    (hm : Derives .factor m u) :
    Derives .expression (l ++ op.char :: m) (.node op t u) := by
  cases op with
  | add => exact .sum (.inl rfl) (.ofTerm (.ofFactor hl)) (.ofFactor hm)
  | subtract => exact .sum (.inr rfl) (.ofTerm (.ofFactor hl)) (.ofFactor hm)
  | multiply => exact .ofTerm (.product (.inl rfl) (.ofFactor hl) hm)
  | divide => exact .ofTerm (.product (.inr rfl) (.ofFactor hl) hm)

/-- A separated text that starts with no operand is an error. -/
lemma exists_error_of_head {l m c} (hs : Separated (Text.strip l)) (text : Text.strip l = c :: m)
    (hc : Decimal.isNumeral c = false) (ne : c ≠ '(') : ∃ e, calculate l = .error e := by
  cases value : calculate l with
  | error e => exact ⟨e, rfl⟩
  | ok result =>
    exfalso
    cases result with
    | some v =>
      -- a sentence begins with a digit, a point or a `(`
      obtain ⟨t, derives⟩ := sentence_of_calculate hs value
      obtain ⟨d, n, head, hd⟩ := derives.exists_head
      rw [text] at head
      cases head
      rcases hd with hd | hd
      · rw [hc] at hd
        cases hd
      · exact ne hd
    | none =>
      obtain ⟨n, parens⟩ := calculate_eq_none_iff.1 value
      rw [text] at parens
      cases n with
      | zero => cases parens
      | succ n =>
        cases parens
        exact ne rfl

/-- The label of a key that appends `c`. -/
def Key.label (c : Char) : String :=
  String.ofList [c]

namespace Keypad

/-- A run of `=` alone is its press. -/
lemma pressAll_equals (k : Keypad) : k.pressAll ["="] = k.equals := by
  have equals : k.pressLabel "=" = k.equals := rfl
  rw [pressAll, equals]
  cases k.equals with
  | mk keypad failure =>
    cases failure with
    | none => rfl
    | some e => rfl

/-- A character comes behind a space on a display with text. -/
lemma display_pushSpaced {l : List Char} (ne : l ≠ []) (c : Char) :
    pushSpaced { display := l } c = { display := l ++ [' ', c] } := by
  rw [pushSpaced, if_neg (mt List.isEmpty_iff.1 ne)]

/-- The key of a digit or point goes on with a numeral. -/
lemma pressLabel_numeral (k : Keypad) {c} (hc : Decimal.isNumeral c = true) :
    k.pressLabel (Key.label c) = { keypad := k.pushNumeral c } := by
  rcases Decimal.isNumeral_iff.1 hc with digit | rfl
  · have key : Key.ofLabel? (Key.label c) = some (.digit c) := by
      rw [Key.ofLabel?, Key.label, String.toList_ofList]
      exact if_pos digit
    rw [pressLabel, key]
    rfl
  · rfl

/-- The keys of a numeral are appended one by one. -/
lemma pressAll_numeral {l n : List Char} {c} (hn : ∀ d ∈ n, Decimal.isNumeral d = true)
    (hc : Decimal.isNumeral c = true) (labels : List String) :
    pressAll { display := l ++ [c] } (n.map Key.label ++ labels) =
      pressAll { display := l ++ c :: n } labels := by
  induction n generalizing l c with
  | nil => rfl
  | cons d n ih =>
    have hd := hn d (by simp)
    have push : pushNumeral { display := l ++ [c] } d = { display := l ++ [c] ++ [d] } := by
      rw [pushNumeral, if_pos (by simpa using hc)]
    rw [List.map_cons, List.cons_append, pressAll_cons (pressLabel_numeral _ hd), push,
      ih (fun e mem => hn e (by simp [mem])) hd, List.append_assoc]
    rfl

/-- An operator and a numeral are set off by spaces. -/
lemma pressAll_operation {t : List Char} (ne : t ≠ []) {label} {op : Operator}
    (ho : Key.ofLabel? label = some (.symbol op.char)) {w} (hw : Numeral w) :
    pressAll { display := t } (label :: w.map Key.label ++ ["="]) =
      equals { display := t ++ ' ' :: op.char :: ' ' :: w } := by
  obtain ⟨c, n, rfl⟩ := List.exists_cons_of_ne_nil hw.ne_nil
  have hc := hw.inNumeral c (by simp)
  have operator : pressLabel { display := t } label =
      { keypad := { display := t ++ [' ', op.char] } } := by
    rw [pressLabel, ho, ← display_pushSpaced ne]
    rfl
  have first : pushNumeral { display := t ++ [' ', op.char] } c =
      { display := t ++ [' ', op.char, ' '] ++ [c] } := by
    rw [pushNumeral, if_neg (by simp), display_pushSpaced (by simp)]
    simp
  rw [List.cons_append, pressAll_cons operator, List.map_cons, List.cons_append,
    pressAll_cons (pressLabel_numeral _ hc), first,
    pressAll_numeral (fun d mem => hw.inNumeral d (by simp [mem])) hc, pressAll_equals]
  simp

end Keypad

/-- Without its spaces the operation stands directly behind the result. -/
lemma strip_operation (v : Float) (op : Operator) {w} (hw : Numeral w) :
    Text.strip (formatResult v ++ ' ' :: op.char :: ' ' :: w) = formatResult v ++ op.char :: w := by
  have blank : Text.isBlank ' ' = true := by decide
  have symbol : (Token.operator op).symbol? = some op.char := rfl
  have numeral : ∀ c ∈ w, Text.isBlank c = false :=
    fun c mem => Text.isBlank_of_isNumeral (hw.inNumeral c mem)
  rw [Text.strip_append, Text.strip_eq_self isBlank_of_mem_formatResult,
    Text.strip_cons_of_isBlank blank,
    Text.strip_cons_of_not_isBlank (Text.isBlank_of_symbol? symbol),
    Text.strip_cons_of_isBlank blank, Text.strip_eq_self numeral]

/-- A result that is not negative is an operand like any other. -/
lemma calculate_operation {v : Float} (finite : v.isFinite = true) (nonneg : 0 ≤ v)
    (op : Operator) {w}
    (hw : Numeral w) :
    ∃ x, calculate (formatResult v ++ ' ' :: op.char :: ' ' :: w) = .ok (some x) ∧
      formatResult x = formatResult (op.apply v (Decimal.ofNumeral w hw).toFloat) := by
  obtain ⟨d, text, same⟩ := exists_decimal_of_nonneg finite nonneg
  have derives := (Derives.numeral d.numeral_toChars).operation op (.numeral hw)
  rw [Decimal.ofNumeral_toChars, ← text, ← strip_operation v op hw] at derives
  exact ⟨_, calculate_of_parse derives.parse_eq, same op _⟩

/-- The text of a result is separated. -/
lemma separated_formatResult (v : Float) : Separated (formatResult v) := by
  rw [formatResult_eq]
  split_ifs
  · decide
  · rcases resultSign_eq v with e | e <;> rw [e] <;> decide
  · have numeral := (Decimal.shortest (magnitude v)).numeral_toChars.separated
    rcases resultSign_eq v with e | e
    · rw [e]
      exact numeral
    · rw [e]
      exact numeral.cons (by decide)

/-- Any other result is no operand. -/
lemma exists_error_of_operation {v : Float} (h : ¬(v.isFinite = true ∧ 0 ≤ v)) (op : Operator) {w}
    (hw : Numeral w) :
    ∃ e, calculate (formatResult v ++ ' ' :: op.char :: ' ' :: w) = .error e := by
  obtain ⟨c, l, text, head⟩ := head_formatResult h
  have hc : Decimal.isNumeral c = false ∧ c ≠ '(' := by
    simp only [List.mem_cons, List.not_mem_nil, or_false] at head
    rcases head with rfl | rfl | rfl <;> decide
  have separated : Separated (formatResult v ++ op.char :: w) :=
    (separated_formatResult v).append (hw.separated.cons Operator.char_ne_closing) (by simp)
  have strip := strip_operation v op hw
  rw [← strip] at separated
  refine exists_error_of_head (m := l ++ op.char :: w) separated ?_ hc.1 hc.2
  rw [strip, text, List.cons_append]

/-- After a result, an operator, a numeral and `=` show what the operation makes of it, if it is
finite and not negative. From any other result they lead to an error, and the expression stays. -/
theorem pressAll_result {labels v}
    (h : calculate (({} : Keypad).pressEach labels).display = .ok (some v))
    {label} {op : Operator} (ho : Key.ofLabel? label = some (.symbol op.char)) {w}
    (hw : Numeral w) :
    let response := (({} : Keypad).pressEach labels).pressLabel "="
    let continued := response.keypad.pressAll (label :: w.map Key.label ++ ["="])
    response = { keypad := { display := formatResult v } } ∧
      (v.isFinite = true ∧ 0 ≤ v →
        continued =
          { keypad := { display := formatResult (op.apply v (Decimal.ofNumeral w hw).toFloat) } }) ∧
      (¬(v.isFinite = true ∧ 0 ≤ v) →
        ∃ e, continued =
          { keypad := { display := formatResult v ++ ' ' :: op.char :: ' ' :: w }
            failure := some (.calculation (formatResult v ++ ' ' :: op.char :: ' ' :: w) e) }) := by
  have ne : (({} : Keypad).pressEach labels).display ≠ [] :=
    Keypad.display_ne_nil (by simp [h])
  have response : (({} : Keypad).pressEach labels).pressLabel "=" =
      { keypad := { display := formatResult v } } :=
    Keypad.equals_of_value ne h
  have typed := Keypad.pressAll_operation (formatResult_ne_nil v) ho hw
  dsimp only
  rw [response, typed]
  have expression : formatResult v ++ ' ' :: op.char :: ' ' :: w ≠ [] := by simp
  refine ⟨rfl, fun ⟨finite, nonneg⟩ => ?_, fun other => ?_⟩
  · obtain ⟨x, value, text⟩ := calculate_operation finite nonneg op hw
    rw [Keypad.equals_of_value expression value, text]
  · obtain ⟨e, error⟩ := exists_error_of_operation other op hw
    exact ⟨e, Keypad.equals_of_error expression error⟩

/-- The product of 2 and 3 is divided by 1.5. -/
theorem pressAll_result_quotient :
    calculate (({} : Keypad).pressEach ["2", "×", "3"]).display = .ok (some 6) ∧
      Key.ofLabel? "÷" = some (.symbol Operator.divide.char) ∧ Numeral ['1', '.', '5'] ∧
      ((6 : Float).isFinite = true ∧ (0 : Float) ≤ 6) ∧
      ((({} : Keypad).pressEach ["2", "×", "3"]).pressLabel "=").keypad.pressAll
        ["÷", "1", ".", "5", "="] =
        { keypad := { display := ['4'] } } := by
  have value : calculate (({} : Keypad).pressEach ["2", "×", "3"]).display = .ok (some 6) := by
    decide +kernel
  have divide : Key.ofLabel? "÷" = some (.symbol Operator.divide.char) := by decide +kernel
  have numeral : Numeral ['1', '.', '5'] := by decide
  have nonneg : (6 : Float).isFinite = true ∧ (0 : Float) ≤ 6 := by decide +kernel
  have text : formatResult
      (Operator.divide.apply 6 (Decimal.ofNumeral ['1', '.', '5'] (by decide)).toFloat) =
    ['4'] := by decide +kernel
  have continued := (pressAll_result value divide numeral).2.1 nonneg
  rw [text] at continued
  exact ⟨value, divide, numeral, nonneg, continued⟩

/-- A negative result, infinity and the value that is no number cannot be gone on with. -/
theorem pressAll_unreadable_results :
    (calculate (({} : Keypad).pressEach ["1", "-", "3"]).display = .ok (some (-2)) ∧
      formatResult (Operator.add.apply (-2) 1) = "-1".toList ∧
      (({} : Keypad).pressEach ["1", "-", "3", "="]).pressAll ["+", "1", "="] =
        { keypad := { display := "-2 + 1".toList }
          failure := some (.calculation "-2 + 1".toList
            (.evaluation (.insufficientOperands .subtract 1 1))) }) ∧
    (calculate (({} : Keypad).pressEach ["1", "/", "0"]).display =
        .ok (some (Float.ofBits 0x7FF0000000000000)) ∧
      formatResult (Operator.add.apply (Float.ofBits 0x7FF0000000000000) 1) = "Infinity".toList ∧
      (({} : Keypad).pressEach ["1", "/", "0", "="]).pressAll ["+", "1", "="] =
        { keypad := { display := "Infinity + 1".toList }
          failure := some (.calculation "Infinity + 1".toList
            (.syntactic (.lexical (.unexpectedCharacter 'I' ⟨0, 1⟩)))) }) ∧
    calculate (({} : Keypad).pressEach ["0", "/", "0"]).display = .ok (some (0 / 0)) ∧
      formatResult (Operator.add.apply (0 / 0) 1) = "NaN".toList ∧
      (({} : Keypad).pressEach ["0", "/", "0", "="]).pressAll ["+", "1", "="] =
        { keypad := { display := "NaN + 1".toList }
          failure := some (.calculation "NaN + 1".toList
            (.syntactic (.lexical (.unexpectedCharacter 'N' ⟨0, 1⟩)))) } := by
  decide +kernel

end Calculator
