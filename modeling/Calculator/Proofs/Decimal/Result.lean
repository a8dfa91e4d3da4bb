import Calculator.Calculation
import Calculator.Proofs.Text.Blank

/-!
# The text of a result

A result is shown as a word, or as a numeral, either of them with a minus sign or without
(`formatResult_eq`). So there is no blank in it, and it does not end in one.
-/

namespace Calculator

/-- What is written of a decimal is a numeral. -/
lemma Decimal.numeral_toChars (d : Decimal) : Numeral d.toChars := by
  rw [← Decimal.isSome_ofChars?_iff, Decimal.ofChars?_toChars]
  rfl

/-- A decimal is read back from its text. -/
lemma Decimal.ofNumeral_toChars (d : Decimal) : ofNumeral d.toChars d.numeral_toChars = d := by
  have read := ofChars?_eq_ofNumeral d.numeral_toChars
  rw [ofChars?_toChars] at read
  exact (Option.some.inj read).symm

/-- The number without its sign. -/
def magnitude (v : Float) : Float :=
  Float.ofBits (v.toBits &&& 0x7FFFFFFFFFFFFFFF)

/-- The sign of a result, which a zero is shown without. -/
def resultSign (v : Float) : List Char :=
  if v.toBits = (magnitude v).toBits ∨ (magnitude v == 0.0) = true then [] else ['-']

/-- The sign is a minus or nothing. -/
lemma resultSign_eq (v : Float) : resultSign v = [] ∨ resultSign v = ['-'] :=
  ite_eq_or_eq _ _ _

/-- A result is a word or a numeral, but for its sign. -/
lemma formatResult_eq (v : Float) :
    formatResult v =
      if v.isNaN then "NaN".toList
      else resultSign v ++
        if v.isInf then "Infinity".toList else (Decimal.shortest (magnitude v)).toChars := by
  simp only [formatResult, Style.render, resultStyle, resultSign, magnitude, Bool.not_false,
    Bool.and_true, String.toList_empty, List.append_nil, ite_self]
  split
  · rfl
  · split <;> rfl

/-- No result has an empty text. -/
lemma formatResult_ne_nil (v : Float) : formatResult v ≠ [] := by
  rw [formatResult_eq]
  split
  · decide
  · refine List.append_ne_nil_of_right_ne_nil _ ?_
    split
    · decide
    · exact (Decimal.numeral_toChars _).ne_nil

/-- There are no blanks in a result. -/
lemma isBlank_of_mem_formatResult {v : Float} : ∀ c ∈ formatResult v, Text.isBlank c = false := by
  have word {l : List Char} (h : l.all (fun c => !Text.isBlank c) = true) :
      ∀ c ∈ l, Text.isBlank c = false := by
    simpa using h
  have minus : ∀ c ∈ resultSign v, Text.isBlank c = false := by
    rcases resultSign_eq v with e | e
    · simp [e]
    · rw [e]
      exact word (by decide)
  rw [formatResult_eq]
  split
  · exact word (by decide)
  · refine List.forall_mem_append.2 ⟨minus, ?_⟩
    split
    · exact word (by decide)
    · exact fun c mem => Text.isBlank_of_isNumeral ((Decimal.numeral_toChars _).inNumeral c mem)

end Calculator
