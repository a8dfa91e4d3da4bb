import Calculator.Token
import Mathlib.Tactic.Lemma

/-!
# Numerals

A numeral is a run of digits with at most one point and at least one digit. These are the texts that
`Decimal.ofChars?` reads (`Decimal.isSome_ofChars?_iff`), so a numeral is a decimal
(`Decimal.ofNumeral`).
-/

namespace Calculator

/-- Digits, one at least, and at most one point. -/
structure Numeral (l : List Char) : Prop where
  inNumeral : ∀ c ∈ l, Decimal.isNumeral c = true
  digit : ∃ c ∈ l, c.isDigit = true
  point : l.count '.' ≤ 1

/-- It is computed whether a text is a numeral. -/
lemma numeral_iff {l : List Char} :
    (l.all Decimal.isNumeral && l.any Char.isDigit && l.count '.' ≤ 1) = true ↔ Numeral l := by
  simp only [Bool.and_eq_true, List.all_eq_true, List.any_eq_true, decide_eq_true_eq, and_assoc]
  exact ⟨fun ⟨inNumeral, digit, point⟩ => ⟨inNumeral, digit, point⟩,
    fun h => ⟨h.inNumeral, h.digit, h.point⟩⟩

/-- It can be told whether a text is a numeral. -/
instance (l : List Char) : Decidable (Numeral l) :=
  decidable_of_iff _ numeral_iff

/-- A numeral is not empty. -/
lemma Numeral.ne_nil {l} (h : Numeral l) : l ≠ [] := by
  intro e
  obtain ⟨c, mem, _⟩ := h.digit
  rw [e] at mem
  cases mem

namespace Decimal

/-- Digits and the point stand in numerals. -/
lemma isNumeral_iff {c} : isNumeral c = true ↔ c.isDigit = true ∨ c = '.' := by
  simp [isNumeral]

/-- Operators stand in no numeral. -/
@[simp] lemma isNumeral_operator {op : Operator} : isNumeral op.char = false := by
  cases op <;> rfl

/-- Digits only hold no point. -/
lemma count_point_of_all {l : List Char} (h : l.all Char.isDigit = true) : l.count '.' = 0 := by
  rw [List.count_eq_zero]
  intro mem
  have := List.all_eq_true.1 h _ mem
  cases this

/-- Digits are a numeral if there are any. -/
lemma numeral_of_all {whole : List Char} (digits : whole.all Char.isDigit = true)
    (ne : whole ≠ []) :
    Numeral whole := by
  have digits' := List.all_eq_true.1 digits
  refine ⟨fun c mem => isNumeral_iff.2 (.inl (digits' c mem)), ?_, ?_⟩
  · exact ⟨whole.head ne, List.head_mem ne, digits' _ (List.head_mem ne)⟩
  · rw [count_point_of_all digits]
    exact Nat.zero_le 1

/-- Digits around a point are a numeral if there are any. -/
lemma numeral_of_point {whole fraction : List Char} (hw : whole.all Char.isDigit = true)
    (hf : fraction.all Char.isDigit = true) (ne : ¬(whole = [] ∧ fraction = [])) :
    Numeral (whole ++ '.' :: fraction) := by
  have hw' := List.all_eq_true.1 hw
  have hf' := List.all_eq_true.1 hf
  refine ⟨fun c mem => isNumeral_iff.2 ?_, ?_, ?_⟩
  · rcases List.mem_append.1 mem with mem | mem
    · exact .inl (hw' c mem)
    · rcases List.mem_cons.1 mem with e | mem
      · exact .inr e
      · exact .inl (hf' c mem)
  · match whole, fraction with
    | c :: _, _ => exact ⟨c, by simp, hw' c (by simp)⟩
    | [], c :: _ => exact ⟨c, by simp, hf' c (by simp)⟩
    | [], [] => exact absurd ⟨rfl, rfl⟩ ne
  · simp [count_point_of_all hw, count_point_of_all hf]

/-- Behind its first digits a numeral has a point and digits, or nothing. -/
lemma all_fraction_of_numeral {whole fraction : List Char} {c}
    (h : Numeral (whole ++ c :: fraction))
    (hc : c.isDigit = false) :
    c = '.' ∧ fraction.all Char.isDigit = true ∧ ¬(whole = [] ∧ fraction = []) := by
  have ec : c = '.' := by
    rcases isNumeral_iff.1 (h.inNumeral c (by simp)) with digit | e
    · rw [hc] at digit
      cases digit
    · exact e
  subst ec
  have count := h.point
  rw [List.count_append, List.count_cons_self] at count
  refine ⟨rfl, List.all_eq_true.2 fun d mem => ?_, ?_⟩
  · rcases isNumeral_iff.1 (h.inNumeral d (by simp [mem])) with digit | e
    · exact digit
    · rw [e] at mem
      have := List.count_pos_iff.2 mem
      omega
  · intro ⟨ew, ef⟩
    obtain ⟨d, mem, digit⟩ := h.digit
    rw [ew, ef, List.nil_append, List.mem_singleton] at mem
    rw [mem] at digit
    cases digit

/-- What can be read as a decimal are the numerals. -/
lemma isSome_ofChars?_iff {l : List Char} : (ofChars? l).isSome = true ↔ Numeral l := by
  have split := List.takeWhile_append_dropWhile (p := Char.isDigit) (l := l)
  have digits := List.all_takeWhile (p := Char.isDigit) (l := l)
  have stop := List.head?_dropWhile_not Char.isDigit l
  rw [ofChars?]
  generalize l.takeWhile Char.isDigit = whole at *
  generalize l.dropWhile Char.isDigit = rest at *
  subst split
  cases rest with
  | nil =>
    rw [List.append_nil]
    refine ⟨fun h => numeral_of_all digits ?_, fun h => ?_⟩
    · intro e
      simp [e] at h
    · simp [h.ne_nil]
  | cons c fraction =>
    have read :
        (c == '.' && fraction.all Char.isDigit && !(whole.isEmpty && fraction.isEmpty)) = true ↔
        c = '.' ∧ fraction.all Char.isDigit = true ∧ ¬(whole = [] ∧ fraction = []) := by
      simp only [Bool.not_eq_true', ← Bool.not_eq_true, Bool.and_eq_true, beq_iff_eq,
        List.isEmpty_iff, and_assoc]
    dsimp only
    rw [Option.isSome_ite, read]
    refine ⟨fun h => ?_, fun h => all_fraction_of_numeral h stop⟩
    obtain ⟨rfl, hf, ne⟩ := h
    exact numeral_of_point digits hf ne

/-- The decimal that a numeral stands for. -/
def ofNumeral (l : List Char) (h : Numeral l) : Decimal :=
  (ofChars? l).get (isSome_ofChars?_iff.2 h)

/-- A numeral is read as its decimal. -/
lemma ofChars?_eq_ofNumeral {l} (h : Numeral l) : ofChars? l = some (ofNumeral l h) :=
  (Option.some_get _).symm

end Decimal

end Calculator
