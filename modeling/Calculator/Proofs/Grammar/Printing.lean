import Calculator.Proofs.Decimal.Unsigned
import Calculator.Proofs.Grammar.Reading

/-!
# Printing tokens

The texts of the tokens that an expression is scanned for, one behind the other and with blanks
between them at will, are scanned for the same tokens (`yields_of_printed`), provided that the
numbers are finite. The text of such a number is a numeral that is read as the number
(`Token.Legible`). Two numerals never come together, for between them the expression had a symbol,
and no product is implied once more, for in front of a `(` that implied one its `*` is printed
(`Reads.printed`).
-/

namespace Calculator

/-- The text of a number is a decimal that reads back. -/
def Token.Legible (token : Token) : Prop :=
  ∀ v, token = .number v → ∃ d : Decimal, token.toChars = d.toChars ∧ d.toFloat = v

/-- The text has the texts of the tokens with blanks anywhere between. -/
inductive Printed : List Token → List Char → Prop where
  | nil {gap} :
    (∀ c ∈ gap, Text.isBlank c = true) →
    Printed [] gap
  | cons {gap token tokens l} :
    (∀ c ∈ gap, Text.isBlank c = true) →
    Printed tokens l →
    Printed (token :: tokens) (gap ++ token.toChars ++ l)

variable {after : Bool} {l m : List Char} {tokens : List Token}

/-- The numbers that a text is read as are read from decimals. -/
lemma Reads.exists_decimal {v} (h : Reads after l tokens) (mem : .number v ∈ tokens) :
    ∃ d : Decimal, d.toFloat = v := by
  induction h with
  | nil => cases mem
  | numeral _ _ _ ih =>
    rcases List.mem_cons.1 mem with e | mem
    · cases e
      exact ⟨_, rfl⟩
    · exact ih mem
  | operator _ ih => exact ih ((List.mem_cons.1 mem).resolve_left nofun)
  | opening _ ih => exact ih ((List.mem_cons.1 mem).resolve_left nofun)
  | product _ ih =>
    exact ih ((List.mem_cons.1 ((List.mem_cons.1 mem).resolve_left nofun)).resolve_left nofun)
  | closing _ ih => exact ih ((List.mem_cons.1 mem).resolve_left nofun)

/-- Finite numbers that are read are legible. -/
lemma Reads.legible (h : Reads after l tokens)
    (finite : ∀ v, .number v ∈ tokens → v.isFinite = true) :
    ∀ token ∈ tokens, token.Legible := by
  rintro _ mem v rfl
  obtain ⟨d, rfl⟩ := h.exists_decimal mem
  exact exists_decimal_of_toFloat (finite _ mem)

/-- A decimal that is written is read, whatever symbol comes behind it. -/
lemma Reads.decimal (h : Reads true l tokens) (head : ∀ c ∈ l.head?, Decimal.isNumeral c = false)
    (d : Decimal) : Reads after (d.toChars ++ l) (.number d.toFloat :: tokens) := by
  have read : Reads after (d.toChars ++ l) _ := .numeral d.numeral_toChars head h
  rw [Decimal.ofNumeral_toChars] at read
  exact read

/-- Printed tokens begin with a numeral only if the text does. -/
lemma Reads.isNumeral_head?_printed (h : Reads after l tokens)
    (head : ∀ c ∈ l.head?, Decimal.isNumeral c = false) :
    ∀ c ∈ (tokens.flatMap Token.toChars).head?, Decimal.isNumeral c = false := by
  cases h with
  | nil => nofun
  | @numeral _ n rest _ numeral =>
    obtain ⟨c, n, rfl⟩ := List.exists_cons_of_ne_nil numeral.ne_nil
    have inside := numeral.inNumeral c List.mem_cons_self
    rw [head c rfl] at inside
    cases inside
  | operator => rintro _ ⟨⟩; exact Decimal.isNumeral_operator
  | opening => rintro _ ⟨⟩; rfl
  | product => rintro _ ⟨⟩; rfl
  | closing => rintro _ ⟨⟩; rfl

/-- The texts of the tokens are read as the tokens. -/
lemma Reads.printed (h : Reads after l tokens) (legible : ∀ token ∈ tokens, token.Legible) :
    Reads after (tokens.flatMap Token.toChars) tokens := by
  induction h with
  | nil => exact .nil
  | numeral numeral head rest ih =>
    obtain ⟨d, text, value⟩ := legible _ List.mem_cons_self _ rfl
    have printed := rest.isNumeral_head?_printed head
    rw [List.flatMap_cons, text, ← value]
    exact (ih (List.forall_mem_cons.1 legible).2).decimal printed d
  | operator _ ih => exact .operator (ih (List.forall_mem_cons.1 legible).2)
  | opening _ ih => exact .opening (ih (List.forall_mem_cons.1 legible).2)
  | product _ ih =>
    -- the printed `(` stands behind its printed `*`
    refine @Reads.operator _ .multiply _ _ (.opening (ih fun token mem => legible token ?_))
    exact List.mem_cons_of_mem _ (List.mem_cons_of_mem _ mem)
  | closing _ ih => exact .closing (ih (List.forall_mem_cons.1 legible).2)

/-- There are no blanks in the text of a legible token. -/
lemma Token.Legible.isBlank_toChars {token : Token} (h : token.Legible) :
    ∀ c ∈ token.toChars, Text.isBlank c = false := by
  cases token with
  | number v =>
    obtain ⟨d, text, -⟩ := h v rfl
    rw [text]
    exact fun c mem => Text.isBlank_of_isNumeral (d.numeral_toChars.inNumeral c mem)
  | operator op =>
    intro c mem
    rw [List.mem_singleton.1 mem]
    exact @Text.isBlank_of_symbol? (.operator op) _ rfl
  | paren side =>
    intro c mem
    rw [List.mem_singleton.1 mem]
    exact @Text.isBlank_of_symbol? (.paren side) _ rfl

/-- Without the blanks there are only the texts of the tokens. -/
lemma Printed.strip_eq (h : Printed tokens l) (legible : ∀ token ∈ tokens, token.Legible) :
    Text.strip l = tokens.flatMap Token.toChars := by
  induction h with
  | nil blank => exact Text.strip_eq_nil_iff.2 (List.all_eq_true.2 blank)
  | cons blank _ ih =>
    have gap := Text.strip_eq_nil_iff.2 (List.all_eq_true.2 blank)
    have text := Text.strip_eq_self (legible _ List.mem_cons_self).isBlank_toChars
    rw [Text.strip_append, Text.strip_append, gap, text, List.nil_append, List.flatMap_cons,
      ih (List.forall_mem_cons.1 legible).2]

/-- If an expression is scanned for tokens with finite numbers only, any text that they are printed
as is scanned for the same tokens. -/
theorem yields_of_printed (scanned : Yields (Item.ofChars l) tokens)
    (finite : ∀ v, .number v ∈ tokens → v.isFinite = true) (printed : Printed tokens m) :
    Yields (Item.ofChars m) tokens := by
  rw [yields_ofChars_iff] at scanned ⊢
  have legible := scanned.legible finite
  rw [printed.strip_eq legible]
  exact scanned.printed legible

/-- An implied product is printed, and a zero before the point. -/
theorem yields_of_printed_product :
    let tokens : List Token :=
      [.number (⟨2, 0⟩ : Decimal).toFloat, .operator .multiply, .paren .opening,
      .number (⟨50, 2⟩ : Decimal).toFloat, .paren .closing]
    Yields (Item.ofChars "2(.50)".toList) tokens ∧ (∀ v, .number v ∈ tokens → v.isFinite = true) ∧
      Printed tokens "2 * (0.5 )".toList ∧ Yields (Item.ofChars "2 * (0.5 )".toList) tokens := by
  intro tokens
  have text : Text.strip "2(.50)".toList = ['2'] ++ '(' :: (['.', '5', '0'] ++ [')']) := by decide
  have two : Numeral ['2'] := by decide
  have half : Numeral ['.', '5', '0'] := by decide
  have scanned : Yields (Item.ofChars "2(.50)".toList) tokens := by
    have value : Decimal.ofNumeral _ two = ⟨2, 0⟩ ∧ Decimal.ofNumeral _ half = ⟨50, 2⟩ := ⟨rfl, rfl⟩
    have second : Reads false (['.', '5', '0'] ++ [')']) _ :=
      .numeral half (by rintro _ ⟨⟩; rfl) (.closing .nil)
    have read : Reads false (['2'] ++ '(' :: (['.', '5', '0'] ++ [')'])) _ :=
      .numeral two (by rintro _ ⟨⟩; rfl) (.product second)
    rw [value.1, value.2, ← text] at read
    exact yields_ofChars_iff.2 read
  have finite : ∀ v, .number v ∈ tokens → v.isFinite = true := by
    intro v mem
    simp only [tokens, List.mem_cons, Token.number.injEq, reduceCtorEq, List.not_mem_nil, or_false,
      false_or] at mem
    rcases mem with rfl | rfl <;> decide +kernel
  have printed : Printed tokens "2 * (0.5 )".toList := by
    have written : (Token.number (⟨2, 0⟩ : Decimal).toFloat).toChars = ['2'] ∧
        (Token.number (⟨50, 2⟩ : Decimal).toFloat).toChars = ['0', '.', '5'] := by decide +kernel
    have blank : ∀ c ∈ [' '], Text.isBlank c = true := List.forall_mem_singleton.2 (by decide)
    have : Printed tokens
        ([] ++ _ ++ ([' '] ++ _ ++ ([' '] ++ _ ++ ([] ++ _ ++ ([' '] ++ _ ++ []))))) :=
      .cons nofun (.cons blank (.cons blank (.cons nofun (.cons blank (.nil nofun)))))
    rw [written.1, written.2] at this
    exact this
  exact ⟨scanned, finite, printed, yields_of_printed scanned finite printed⟩

end Calculator
