import Calculator.Calculation
import Calculator.Proofs.Grammar.Numeral
import Mathlib.Data.List.DropRight

/-!
# Blanks in numerals and symbols

No character of a numeral and no symbol is a blank, so `strip` keeps them. Trimming a text takes
away blanks only (`Text.strip_trim`), namely all that stand behind a text without blanks at its ends
(`Text.trim_append`), and leaves none at its end (`Text.isBlank_getLast?_trim`).
-/

namespace Calculator.Text

/-- A text without blanks stays as it is. -/
lemma strip_eq_self {l : List Char} (h : ∀ c ∈ l, isBlank c = false) : strip l = l := by
  refine List.filter_eq_self.2 fun c mem => ?_
  rw [h c mem]
  rfl

/-- No blank is left. -/
lemma isBlank_of_mem_strip {l : List Char} {c} (h : c ∈ strip l) : isBlank c = false := by
  simpa using (List.mem_filter.1 h).2

/-- Nothing more is left out the second time. -/
@[simp] lemma strip_strip (l : List Char) : strip (strip l) = strip l :=
  strip_eq_self fun _ => isBlank_of_mem_strip

/-- A character that is no blank is kept. -/
lemma strip_cons_of_not_isBlank {c l} (h : isBlank c = false) : strip (c :: l) = c :: strip l :=
  List.filter_cons_of_pos (by rw [h]; rfl)

/-- The same holds at the end. -/
lemma strip_concat {c l} (h : isBlank c = false) : strip (l ++ [c]) = strip l ++ [c] := by
  rw [strip_append, strip_cons_of_not_isBlank h]
  rfl

/-- A blank goes. -/
lemma strip_cons_of_isBlank {c l} (h : isBlank c = true) : strip (c :: l) = strip l :=
  List.filter_cons_of_neg (by rw [h]; exact Bool.false_ne_true)

/-- Blanks at the start are left out anyway. -/
lemma strip_dropWhile (l : List Char) : strip (l.dropWhile isBlank) = strip l := by
  induction l with
  | nil => rfl
  | cons c l ih =>
    rw [List.dropWhile_cons]
    split
    · next h => rw [ih, strip_cons_of_isBlank h]
    · rfl

/-- Blanks at the end are left out anyway. -/
lemma strip_dropEndWhile (l : List Char) : strip (dropEndWhile isBlank l) = strip l := by
  rw [strip, dropEndWhile, List.filter_reverse]
  show (strip (l.reverse.dropWhile isBlank)).reverse = _
  rw [strip_dropWhile, strip, List.filter_reverse, List.reverse_reverse]
  rfl

/-- Trimming takes away nothing but blanks. -/
@[simp] lemma strip_trim (l : List Char) : strip (trim l) = strip l := by
  rw [trim, strip_dropEndWhile, strip_dropWhile]

/-- A trimmed text does not end in a blank. -/
lemma isBlank_getLast?_trim (l : List Char) : ∀ c ∈ (trim l).getLast?, isBlank c = false := by
  intro c mem
  have stop := List.head?_dropWhile_not isBlank (l.dropWhile isBlank).reverse
  rw [trim, dropEndWhile, List.getLast?_reverse] at mem
  rw [Option.mem_def.1 mem] at stop
  exact stop

/-- A text that ends in no blank has other characters, or none at all. -/
lemma strip_eq_nil_of_getLast? {l : List Char} (h : ∀ c ∈ l.getLast?, isBlank c = false) :
    strip l = [] ↔ l = [] := by
  refine ⟨fun e => ?_, fun e => by rw [e]; rfl⟩
  by_contra ne
  have last := h _ (List.getLast?_eq_some_getLast ne)
  rw [← List.dropLast_concat_getLast ne, strip_concat last] at e
  exact List.append_ne_nil_of_right_ne_nil _ (List.cons_ne_nil _ _) e

/-- A text that ends in no blank ends so without its blanks. -/
lemma getLast?_strip {l : List Char} (h : ∀ c ∈ l.getLast?, isBlank c = false) :
    (strip l).getLast? = l.getLast? := by
  rcases List.eq_nil_or_concat l with e | ⟨l, c, e⟩
  · rw [e]
    rfl
  · rw [List.concat_eq_append] at e
    have last : isBlank c = false := h c (by simp [e])
    rw [e, strip_concat last, List.getLast?_concat, List.getLast?_concat]

/-- There is nothing to drop before a character that is no blank. -/
lemma dropWhile_isBlank_eq_self {l : List Char} (h : ∀ c ∈ l.head?, isBlank c = false) :
    l.dropWhile isBlank = l := by
  cases l with
  | nil => rfl
  | cons c l => simp [h c rfl]

/-- Behind a text without blanks at its ends all blanks are trimmed. -/
lemma trim_append {l m : List Char} (start : ∀ c ∈ l.head?, isBlank c = false)
    (stop : ∀ c ∈ l.getLast?, isBlank c = false) (blank : ∀ c ∈ m, isBlank c = true) :
    trim (l ++ m) = l := by
  cases l with
  | nil =>
    rw [List.nil_append, trim, List.dropWhile_eq_nil_iff.2 blank]
    rfl
  | cons c l =>
    have head : ∀ d ∈ (c :: l ++ m).head?, isBlank d = false := start
    have last : ∀ d ∈ (c :: l).reverse.head?, isBlank d = false := by
      rwa [List.head?_reverse]
    have blank' : ∀ d ∈ m.reverse, isBlank d = true := fun d mem => blank d (List.mem_reverse.1 mem)
    rw [trim, dropWhile_isBlank_eq_self head, dropEndWhile, List.reverse_append,
      List.dropWhile_append_of_pos blank', dropWhile_isBlank_eq_self last, List.reverse_reverse]

/-- No blank stands in a numeral. -/
lemma isBlank_of_isNumeral {c} (h : Decimal.isNumeral c = true) : isBlank c = false := by
  rcases Decimal.isNumeral_iff.1 h with digit | rfl
  · have digit : 48 ≤ c.toNat ∧ c.toNat ≤ 57 := by
      simpa [Char.isDigit, UInt32.le_iff_toNat_le] using digit
    -- the digits lie between two ranges of blanks
    simp only [isBlank, blankRanges, List.any_cons, List.any_nil, Bool.or_false,
      Bool.or_eq_false_iff, Bool.and_eq_false_iff, decide_eq_false_iff_not]
    omega
  · decide

/-- No symbol is a blank. -/
lemma isBlank_of_symbol? {token : Token} {c} (h : token.symbol? = some c) : isBlank c = false := by
  cases token with
  | number value => cases h
  | operator op => cases h; cases op <;> decide
  | paren side => cases h; cases side <;> decide

end Calculator.Text
