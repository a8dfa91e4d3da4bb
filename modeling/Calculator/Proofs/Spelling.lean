import Calculator.Calculation
import Calculator.Proofs.Arrangement.Run
import Calculator.Proofs.Condensed.Canonical
import Calculator.Proofs.Grammar.Reading
import Calculator.Proofs.Scanning.Tokenization

/-!
# Spellings of an expression

Two expressions with one condensed text differ in their blanks and in which products they leave
implied. Neither has a part in what they are arranged to or in which error is reported: both are
read from the same pieces, and places are only passed on (`Arrangement.run_agrees`). The place of
the error is the same stretch of the common text, traced back to each of them (`parse_eq_or_alike`).
Expressions with the same characters but for blanks have one condensed text
(`toChars_ofChars_congr`).
-/

namespace Calculator

/-- Both succeed, with related results, or both fail, with related errors. -/
inductive Agrees {ε α : Type} (E : ε → ε → Prop) (A : α → α → Prop) :
    Except ε α → Except ε α → Prop where
  | ok {a b} :
    A a b →
    Agrees E A (.ok a) (.ok b)
  | error {e e'} :
    E e e' →
    Agrees E A (.error e) (.error e')

section
variable {ε α β : Type} {E : ε → ε → Prop} {A : α → α → Prop} {B : β → β → Prop}

/-- What goes on from related results in related ways has related outcomes. -/
lemma Agrees.bind {x y : Except ε α} {f g : α → Except ε β} (h : Agrees E A x y)
    (hfg : ∀ a b, A a b → Agrees E B (f a) (g b)) : Agrees E B (x >>= f) (y >>= g) := by
  cases h with
  | ok hab => exact hfg _ _ hab
  | error he => exact .error he

end

/-! ### Alike but for the places -/

section
variable (R : Span → Span → Prop)

/-- The errors are the same but for their places, which are related. -/
inductive LexicalError.Alike : LexicalError → LexicalError → Prop where
  | unexpectedCharacter {c s t} :
    R s t →
    Alike (.unexpectedCharacter c s) (.unexpectedCharacter c t)
  | malformedNumeral {literal s t} :
    R s t →
    Alike (.malformedNumeral literal s) (.malformedNumeral literal t)

/-- Items with the same token, or errors alike, at related places. -/
inductive Item.Alike : Item → Item → Prop where
  | ok {token s t} :
    R s t →
    Alike (.ok ⟨token, s⟩) (.ok ⟨token, t⟩)
  | error {e e'} :
    LexicalError.Alike R e e' →
    Alike (.error e) (.error e')

/-- Errors of one kind at related places. -/
inductive SyntaxError.Alike : SyntaxError → SyntaxError → Prop where
  | lexical {e e'} :
    LexicalError.Alike R e e' →
    Alike (.lexical e) (.lexical e')
  | unmatchedClosing {s t} :
    R s t →
    Alike (.unmatchedClosing s) (.unmatchedClosing t)
  | unclosedGroup {s t} :
    R s t →
    Alike (.unclosedGroup s) (.unclosedGroup t)

/-- Syntax errors alike, or the same evaluation error. -/
inductive CalculationError.Alike : CalculationError → CalculationError → Prop where
  | syntactic {e e'} :
    SyntaxError.Alike R e e' →
    Alike (.syntactic e) (.syntactic e')
  | evaluation {e} :
    Alike (.evaluation e) (.evaluation e)

/-- The same operators wait and the same groups are open. -/
structure Arrangement.Alike (a b : Arrangement) : Prop where
  written : a.written = b.written
  waiting : a.waiting = b.waiting
  groups : List.Forall₂ (fun g h => R g.start h.start ∧ g.outside = h.outside) a.groups b.groups

end

variable {R : Span → Span → Prop}

namespace Arrangement

/-- Alike arrangements close their groups alike. -/
lemma closeGroup_agrees {a b : Arrangement} {s t} (h : Alike R a b) (hs : R s t) :
    Agrees (SyntaxError.Alike R) (Alike R) (a.closeGroup s) (b.closeGroup t) := by
  obtain ⟨written, waiting, groups⟩ := a
  obtain ⟨written', waiting', groups'⟩ := b
  obtain ⟨rfl, rfl, hg⟩ := h
  cases hg with
  | nil => exact .error (.unmatchedClosing hs)
  | cons group groups => exact .ok ⟨rfl, group.2, groups⟩

/-- Places are only passed on. -/
lemma step_agrees {a b : Arrangement} {item item'} (h : Alike R a b)
    (hi : Item.Alike R item item') :
    Agrees (SyntaxError.Alike R) (Alike R) (a.step item) (b.step item') := by
  cases hi with
  | error he => exact .error (.lexical he)
  | @ok token s t hs =>
    cases token with
    | number value =>
      refine .ok ⟨?_, h.waiting, h.groups⟩
      rw [h.written]
    | operator op =>
      refine .ok ⟨?_, ?_, h.groups⟩
      · rw [addOperator, addOperator, h.written, h.waiting]
      · rw [addOperator, addOperator, h.waiting]
    | paren side =>
      cases side with
      | opening => exact .ok ⟨h.written, rfl, .cons ⟨hs, h.waiting⟩ h.groups⟩
      | closing => exact closeGroup_agrees h hs

/-- By induction, runs over alike items come to alike ends. -/
lemma run_agrees {a b : Arrangement} {items items'} (h : Alike R a b)
    (hi : List.Forall₂ (Item.Alike R) items items') :
    Agrees (SyntaxError.Alike R) (Alike R) (a.run items) (b.run items') := by
  induction hi generalizing a b with
  | nil => exact .ok h
  | cons hi _ ih =>
    rw [run, run, List.foldlM_cons, List.foldlM_cons]
    exact (step_agrees h hi).bind fun _ _ => ih

/-- Alike arrangements are finished alike. -/
lemma finish_agrees {a b : Arrangement} (h : Alike R a b) :
    Agrees (SyntaxError.Alike R) Eq a.finish b.finish := by
  obtain ⟨written, waiting, groups⟩ := a
  obtain ⟨written', waiting', groups'⟩ := b
  obtain ⟨rfl, rfl, hg⟩ := h
  cases hg with
  | nil => exact .ok rfl
  | cons group _ => exact .error (.unclosedGroup group.1)

/-- Alike items are arranged to the same tokens or alike errors. -/
lemma ofItems_agrees {items items'} (h : List.Forall₂ (Item.Alike R) items items') :
    Agrees (SyntaxError.Alike R) Eq (ofItems items) (ofItems items') := by
  have start : Alike R {} {} := ⟨rfl, rfl, .nil⟩
  exact (run_agrees start h).bind fun _ _ => finish_agrees

end Arrangement

/-- A piece is read in one way. -/
lemma Item.Reading.alike {piece item item'} (h : Item.Reading piece item)
    (h' : Item.Reading piece item') (hs : R item.span item'.span) : Item.Alike R item item' := by
  have apart {c} (hc : Decimal.isNumeral c = true) (hc' : Decimal.isNumeral c = false) : False :=
    Bool.false_ne_true (hc'.symm.trans hc)
  -- the readings of a piece exclude each other, most of them by its first character
  cases h with
  | number n =>
    cases h' with
    | number _ => exact .ok hs
    | malformed _ no => exact absurd n no
    | symbol symbol =>
      exact (apart (n.inNumeral _ List.mem_cons_self) (Token.isNumeral_of_symbol? symbol)).elim
    | unexpected hc _ => exact (apart (n.inNumeral _ List.mem_cons_self) hc).elim
  | malformed run no =>
    cases h' with
    | number n => exact absurd n no
    | malformed _ _ => exact .error (.malformedNumeral hs)
    | symbol symbol =>
      exact (apart (run _ List.mem_cons_self) (Token.isNumeral_of_symbol? symbol)).elim
    | unexpected hc _ => exact (apart (run _ List.mem_cons_self) hc).elim
  | @symbol c token _ symbol =>
    have hc := Token.isNumeral_of_symbol? symbol
    cases h' with
    | number n => exact (apart (n.inNumeral _ List.mem_cons_self) hc).elim
    | malformed run _ => exact (apart (run _ List.mem_cons_self) hc).elim
    | symbol symbol' =>
      have same := Token.ofChar?_eq_some_iff.2 symbol
      rw [Token.ofChar?_eq_some_iff.2 symbol'] at same
      cases same
      exact .ok hs
    | unexpected _ none => exact absurd symbol (none token)
  | unexpected hc none =>
    cases h' with
    | number n => exact (apart (n.inNumeral _ List.mem_cons_self) hc).elim
    | malformed run _ => exact (apart (run _ List.mem_cons_self) hc).elim
    | symbol symbol => exact absurd symbol (none _)
    | unexpected _ _ => exact .error (.unexpectedCharacter hs)

/-- The same bytes of the two condensed texts come from the spans. -/
def SameRange (c d : Condensed) (s t : Span) : Prop :=
  ∃ start stop, c.span? start stop = some s ∧ d.span? start stop = some t

section
variable {a b : List Char}

/-- Expressions with one condensed text are scanned for alike items. -/
lemma forall₂_alike (h : (Condensed.ofChars a).toChars = (Condensed.ofChars b).toChars) :
    List.Forall₂ (Item.Alike (SameRange (Condensed.ofChars a) (Condensed.ofChars b)))
      (Item.ofChars a) (Item.ofChars b) := by
  obtain ⟨len, reading⟩ := List.forall₂_iff_get.1 (forall₂_reading (Condensed.ofChars a))
  obtain ⟨len', reading'⟩ := List.forall₂_iff_get.1 (h ▸ forall₂_reading (Condensed.ofChars b))
  refine List.forall₂_iff_get.2 ⟨len.symm.trans len', fun i hi hi' => ?_⟩
  have range := span?_scan (List.getElem?_eq_getElem hi)
  have range' := span?_scan (List.getElem?_eq_getElem hi')
  rw [← h] at range'
  have there : i < (pieces (Condensed.ofChars a).toChars).length := by
    rw [len]
    exact hi
  exact (reading i there hi).alike (reading' i there hi') ⟨_, _, range, range'⟩

/-- Expressions with one condensed text are arranged alike. -/
lemma parse_agrees (h : (Condensed.ofChars a).toChars = (Condensed.ofChars b).toChars) :
    Agrees (SyntaxError.Alike (SameRange (Condensed.ofChars a) (Condensed.ofChars b))) Eq
      (parse a) (parse b) :=
  Arrangement.ofItems_agrees (forall₂_alike h)

/-- Expressions with one condensed text have the same value or alike errors. -/
lemma calculate_agrees (h : (Condensed.ofChars a).toChars = (Condensed.ofChars b).toChars) :
    Agrees (CalculationError.Alike (SameRange (Condensed.ofChars a) (Condensed.ofChars b))) Eq
      (calculate a) (calculate b) := by
  rw [calculate, calculate]
  have agrees := parse_agrees h
  generalize parse a = x, parse b = y at agrees
  cases agrees with
  | error he => exact .error (.syntactic he)
  | @ok tokens _ same =>
    subst same
    dsimp only
    cases evaluate tokens with
    | ok result => exact .ok rfl
    | error e => exact .error .evaluation

/-- Expressions with one condensed text have the same tokens and value, or the same error at the
place of the same bytes. -/
theorem parse_eq_or_alike (h : (Condensed.ofChars a).toChars = (Condensed.ofChars b).toChars) :
    (∃ tokens, parse a = .ok tokens ∧ parse b = .ok tokens ∧ calculate a = calculate b) ∨
      ∃ e e', parse a = .error e ∧ parse b = .error e' ∧
        SyntaxError.Alike (SameRange (Condensed.ofChars a) (Condensed.ofChars b)) e e' := by
  have agrees := parse_agrees h
  generalize ea : parse a = x, eb : parse b = y at agrees
  cases agrees with
  | error he => exact .inr ⟨_, _, rfl, rfl, he⟩
  | ok same =>
    subst same
    exact .inl ⟨_, rfl, rfl, by rw [calculate, calculate, ea, eb]⟩

/-- Blanks and implied products may differ before an error. -/
theorem parse_eq_or_alike_unclosed :
    (Condensed.ofChars "2(3".toList).toChars = (Condensed.ofChars " 2 * (3".toList).toChars ∧
      ((∃ tokens, parse "2(3".toList = .ok tokens ∧ parse " 2 * (3".toList = .ok tokens ∧
          calculate "2(3".toList = calculate " 2 * (3".toList) ∨
        ∃ e e', parse "2(3".toList = .error e ∧ parse " 2 * (3".toList = .error e' ∧
          SyntaxError.Alike
            (SameRange (Condensed.ofChars "2(3".toList)
              (Condensed.ofChars " 2 * (3".toList)) e e') := by
  have same : (Condensed.ofChars "2(3".toList).toChars =
      (Condensed.ofChars " 2 * (3".toList).toChars := by
    decide
  exact ⟨same, parse_eq_or_alike same⟩

end

/-- Expressions that differ in blanks only have one condensed text. -/
lemma toChars_ofChars_congr {a b : List Char} (h : Text.strip a = Text.strip b) :
    (Condensed.ofChars a).toChars = (Condensed.ofChars b).toChars := by
  rw [Condensed.toChars_ofChars, Condensed.toChars_ofChars, h]

end Calculator
