import Calculator.Proofs.CommandLine.LineByLine
import Calculator.Proofs.Decimal.Result
import Calculator.Proofs.Grammar.Rejection
import Calculator.Proofs.Keypad.Session

/-!
# Expressions without a result

The expressions without a result are the empty groups, one inside the other, and blank ones
(`no_result_iff_hollow`). They are also the ones for which a command line says so and for which the
keypad empties its display, as no result is shown as either. Parentheses that stand in any other way
are an error, since a value takes a number.
-/

namespace Calculator

/-- Some `(` and then as many `)`. -/
def Hollow (l : List Char) : Prop :=
  ∃ n, l = List.replicate n '(' ++ List.replicate n ')'

/-- A text without digits and points has no operands. -/
lemma Reads.depth_nonpos {after l tokens} (h : Reads after l tokens)
    (hl : ∀ c ∈ l, Decimal.isNumeral c = false) : depth tokens ≤ 0 := by
  induction h with
  | nil => exact Int.le_refl 0
  | @numeral _ n l _ numeral =>
    obtain ⟨c, n, rfl⟩ := List.exists_cons_of_ne_nil numeral.ne_nil
    have none : Decimal.isNumeral c = false := hl c (by simp)
    rw [numeral.inNumeral c List.mem_cons_self] at none
    cases none
  | operator _ ih =>
    have le := ih fun c mem => hl c (List.mem_cons_of_mem _ mem)
    rw [depth_operator]
    omega
  | opening _ ih | closing _ ih =>
    rw [depth_paren]
    exact ih fun c mem => hl c (List.mem_cons_of_mem _ mem)
  | product _ ih =>
    have le := ih fun c mem => hl c (List.mem_cons_of_mem _ mem)
    rw [depth_operator, depth_paren]
    omega

variable {l : List Char}

/-- What has a value has a digit or a point in it. -/
lemma exists_isNumeral_of_calculate {v} (h : calculate l = .ok (some v)) :
    ∃ c ∈ Text.strip l, Decimal.isNumeral c = true := by
  obtain ⟨tokens, reads, -, one⟩ := exists_tokens_of_calculate h
  by_contra none
  have le := reads.depth_nonpos fun c mem => Bool.eq_false_iff.2 fun hc => none ⟨c, mem, hc⟩
  omega

/-- No result reads like the words for none. -/
lemma resultText_some_ne (v : Float) : resultText (some v) ≠ "no result" := by
  intro e
  have text : formatResult v = "no result".toList := by
    rw [← e, resultText, String.toList_ofList]
  have blank : Text.isBlank ' ' = false := isBlank_of_mem_formatResult ' ' (by rw [text]; decide)
  exact absurd blank (by decide)

/-- A command line says that there is no result if there is none. -/
lemma output_alone_eq_iff :
    (Command.alone l).output = ["no result\n"] ↔ calculate l = .ok none := by
  cases e : calculate l with
  | error e' =>
    rw [Command.alone_of_error e]
    simp [Outcome.ofError, Outcome.failure]
  | ok result =>
    rw [Command.alone_of_ok e]
    cases result with
    | none => exact iff_of_true rfl rfl
    | some v =>
      refine iff_of_false (fun output => resultText_some_ne v ?_) (by simp)
      exact String.append_left_inj "\n" |>.1 (List.singleton_inj.1 output)

/-- The keypad empties its display for what has no result. -/
lemma press_equals_eq_iff :
    Keypad.press { display := l } .equals = { keypad := {} } ↔ calculate l = .ok none := by
  by_cases ne : l = []
  · have none : calculate l = .ok none := calculate_eq_none_iff.2 ⟨0, by rw [ne]; rfl⟩
    rw [ne] at none ⊢
    exact iff_of_true rfl none
  · cases e : calculate l with
    | error e' =>
      rw [Keypad.press, Keypad.equals_of_error ne e]
      simp
    | ok result =>
      cases result with
      | none =>
        refine iff_of_true ?_ rfl
        rw [Keypad.press, Keypad.equals, if_neg (mt List.isEmpty_iff.1 ne), e]
        rfl
      | some v =>
        rw [Keypad.press, Keypad.equals_of_value ne e]
        simp [formatResult_ne_nil]

/-- Just those expressions have no result that are some `(` and as many `)`. The command line says
so for them, and the keypad empties its display. -/
theorem no_result_iff_hollow (l : List Char) :
    (calculate l = .ok none ↔ Hollow (Text.strip l)) ∧
    ((Command.alone l).output = ["no result\n"] ↔ Hollow (Text.strip l)) ∧
    (Keypad.press { display := l } .equals = { keypad := {} } ↔ Hollow (Text.strip l)) ∧
    (¬Hollow (Text.strip l) → (∃ v, calculate l = .ok (some v)) ∨ ∃ e, calculate l = .error e) ∧
    (¬Hollow (Text.strip l) → (∀ c ∈ Text.strip l, c = '(' ∨ c = ')') →
      ∃ e, calculate l = .error e) := by
  have hollow : calculate l = .ok none ↔ Hollow (Text.strip l) := calculate_eq_none_iff
  have some_or_error (h : ¬Hollow (Text.strip l)) :
      (∃ v, calculate l = .ok (some v)) ∨ ∃ e, calculate l = .error e := by
    cases e : calculate l with
    | error e' => exact .inr ⟨e', rfl⟩
    | ok result =>
      cases result with
      | none => exact absurd (hollow.1 e) h
      | some v => exact .inl ⟨v, rfl⟩
  refine ⟨hollow, output_alone_eq_iff.trans hollow, press_equals_eq_iff.trans hollow,
    some_or_error, ?_⟩
  intro h parens
  rcases some_or_error h with ⟨v, value⟩ | error
  · -- what has a value has a digit or a point
    obtain ⟨c, mem, hc⟩ := exists_isNumeral_of_calculate value
    rcases parens c mem with rfl | rfl
    · cases hc
    · cases hc
  · exact error

end Calculator
