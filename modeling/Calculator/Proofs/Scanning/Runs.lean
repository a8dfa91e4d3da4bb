import Calculator.Proofs.Condensed.Canonical
import Calculator.Proofs.Scanning.Tokenization

/-!
# Runs of digits and points

The numerals that an expression is scanned for, well formed or not, are the longest runs of digits
and points that it has without its blanks (`forall₂_reading_runs`). No product that is written out
parts a run, since it stands before a `(`.
-/

namespace Calculator

/-- The longest runs of digits and points. -/
def runs (l : List Char) : List (List Char) :=
  (pieces l).filter fun piece => piece.all Decimal.isNumeral

variable {l m : List Char} {c : Char}

/-- A text may be cut anywhere but inside a run. -/
lemma runs_append (apart : ∀ c ∈ l.getLast?, ∀ d ∈ m.head?, joined c d = false) :
    runs (l ++ m) = runs l ++ runs m := by
  rw [runs, pieces, List.splitBy_append apart, List.filter_append]
  rfl

/-- What stands in no numeral is no run. -/
lemma runs_singleton (hc : Decimal.isNumeral c = false) : runs [c] = [] := by
  rw [runs, pieces, List.splitBy_of_isChain (List.cons_ne_nil c []) (List.isChain_singleton c)]
  simp [hc]

/-- What stands in no numeral parts the runs around it. -/
lemma runs_append_cons (hc : Decimal.isNumeral c = false) (l m : List Char) :
    runs (l ++ c :: m) = runs l ++ runs m := by
  have before (b : Char) : joined b c = false := by rw [joined, hc, Bool.and_false]
  have behind (d : Char) : joined c d = false := by rw [joined, hc, Bool.false_and]
  rw [runs_append (by simp [before]), ← List.singleton_append, runs_append (by simp [behind]),
    runs_singleton hc, List.nil_append]

/-- Implied products are in no run. -/
lemma runs_append_spellOut (n : List Char) (before : Option Char) (l : List Char) :
    runs (n ++ Condensed.spellOut before l) = runs (n ++ l) := by
  induction l generalizing n before with
  | nil => rfl
  | cons c l ih =>
    by_cases h : c = '(' ∧ before.any Glyph.endsOperand
    · obtain ⟨rfl, hb⟩ := h
      have rest : runs (Condensed.spellOut (some '(') l) = runs l := ih [] (some '(')
      rw [Condensed.spellOut_cons_of_endsOperand hb, runs_append_cons rfl,
        ← List.nil_append ('(' :: _), runs_append_cons rfl, runs_append_cons rfl, rest]
      rfl
    · rw [Condensed.spellOut_cons h, List.append_cons, ih, List.append_cons n c l]

/-- A condensed text has the runs of the text without its blanks. -/
lemma runs_toChars_ofChars (l : List Char) :
    runs (Condensed.ofChars l).toChars = runs (Text.strip l) := by
  rw [Condensed.toChars_ofChars]
  exact runs_append_spellOut [] none (Text.strip l)

/-- An item is a numeral if its piece is a run. -/
lemma Item.Reading.all_eq {piece item} (h : Item.Reading piece item) :
    piece.all Decimal.isNumeral = item.isNumeral := by
  cases h with
  | number h => exact List.all_eq_true.2 h.inNumeral
  | malformed run _ => exact List.all_eq_true.2 run
  | @symbol c token span h =>
    have reading : Item.Reading [c] (.ok ⟨token, span⟩) := .symbol h
    rw [List.all_cons, List.all_nil, Bool.and_true]
    exact reading.isNumeral_eq c (List.mem_singleton_self c)
  | unexpected hc _ =>
    rw [List.all_cons, hc]
    rfl

/-- The numerals of an expression are its runs, one by one. -/
lemma forall₂_reading_runs (l : List Char) :
    List.Forall₂ Item.Reading (runs (Text.strip l)) ((Item.ofChars l).filter Item.isNumeral) := by
  rw [← runs_toChars_ofChars, runs]
  exact List.rel_filter (fun _ _ h => iff_of_eq (congrArg (· = true) h.all_eq))
    (forall₂_reading (Condensed.ofChars l))

end Calculator
