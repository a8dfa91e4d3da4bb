import Calculator.Proofs.Grammar.Reading
import Calculator.Proofs.Grammar.Sentence

/-!
# Room for operands

A text has room for one operand more than operators, and behind an operand for no more than
operators: digits and points that stand together are one operand, and a group behind an operand
multiplies it. Only behind a `)` a numeral stands next to an operand with no operator between them.
So there are at most as many operands without room as there are such places
(`Reads.depth_le_clashes`).
-/

namespace Calculator

/-- In how many places a numeral stands directly behind a `)`. -/
def clashes (l : List Char) : Nat :=
  (l.zip l.tail).countP fun p => p.1 == ')' && Decimal.isNumeral p.2

/-- The clashes in the text, and the one with an operand before it. -/
def clashesBehind : Bool → List Char → Nat
  | true, l => clashes (')' :: l)
  | false, l => clashes l

/-- How many operands more than operators a text can have. -/
def room : Bool → Int
  | true => 0
  | false => 1

/-- Room is never negative. -/
lemma room_nonneg {after} : 0 ≤ room after := by
  cases after <;> decide

section
variable {c d : Char} {l n : List Char}

/-- A clash is between two neighbours. -/
lemma clashes_cons_cons :
    clashes (c :: d :: l) = clashes (d :: l) + if c == ')' && Decimal.isNumeral d then 1 else 0 :=
  List.countP_cons

/-- A character in front takes no clash away. -/
lemma clashes_le_cons (c : Char) (l : List Char) : clashes l ≤ clashes (c :: l) := by
  cases l with
  | nil => exact Nat.le_refl 0
  | cons d l =>
    rw [clashes_cons_cons]
    exact Nat.le_add_right _ _

/-- A text in front takes no clash away. -/
lemma clashes_le_append (n l : List Char) : clashes l ≤ clashes (n ++ l) := by
  induction n with
  | nil => exact Nat.le_refl _
  | cons c n ih => exact Nat.le_trans ih (clashes_le_cons c (n ++ l))

/-- An operand before the text takes no clash away. -/
lemma clashes_le_behind (after : Bool) (l : List Char) : clashes l ≤ clashesBehind after l := by
  cases after with
  | true => exact clashes_le_cons ')' l
  | false => exact Nat.le_refl _

/-- A character in front of the text behind it takes no clash away. -/
lemma clashes_le_behind_cons (after : Bool) (c : Char) (l : List Char) :
    clashes l ≤ clashesBehind after (c :: l) :=
  Nat.le_trans (clashes_le_cons c l) (clashes_le_behind after (c :: l))

/-- Nothing clashes with what is no numeral. -/
lemma clashes_closing (head : ∀ d ∈ l.head?, Decimal.isNumeral d = false) :
    clashes (')' :: l) = clashes l := by
  cases l with
  | nil => rfl
  | cons d l =>
    rw [clashes_cons_cons, head d rfl]
    rfl

/-- A numeral directly behind a `)` clashes with it. -/
lemma clashes_closing_numeral (h : Numeral n) :
    clashes (')' :: (n ++ l)) = clashes (n ++ l) + 1 := by
  obtain ⟨d, n, rfl⟩ := List.exists_cons_of_ne_nil h.ne_nil
  rw [List.cons_append, clashes_cons_cons, h.inNumeral d List.mem_cons_self]
  rfl

/-- A text is separated if nothing in it clashes. -/
lemma separated_iff_clashes_eq_zero : Separated l ↔ clashes l = 0 := by
  induction l with
  | nil => exact iff_of_true List.isChain_nil rfl
  | cons c l ih =>
    cases l with
    | nil => exact iff_of_true (List.isChain_singleton c) rfl
    | cons d l =>
      rw [Separated, List.isChain_cons_cons, clashes_cons_cons, Nat.add_eq_zero_iff, ← ih,
        Separated, and_comm]
      simp

end

/-- Operands beyond the room for them clash with a `)`. -/
lemma Reads.depth_le_clashes {after l tokens} (h : Reads after l tokens) :
    depth tokens ≤ room after + clashesBehind after l := by
  induction h with
  | nil => exact Int.add_nonneg room_nonneg (Int.natCast_nonneg _)
  | @numeral after n l tokens numeral head _ ih =>
    have rest : depth tokens ≤ clashes l := by
      rwa [clashesBehind, clashes_closing head, room, Int.zero_add] at ih
    have le := clashes_le_append n l
    rw [depth_number]
    cases after with
    | true =>
      -- the one operand that there is no room for clashes
      rw [clashesBehind, clashes_closing_numeral numeral, room]
      omega
    | false =>
      rw [clashesBehind, room]
      omega
  | @operator after op l tokens _ ih =>
    have rest : depth tokens ≤ 1 + clashes l := ih
    have le := clashes_le_behind_cons after op.char l
    have nonneg : 0 ≤ room after := room_nonneg
    rw [depth_operator]
    omega
  | @opening l tokens _ ih =>
    have rest : depth tokens ≤ 1 + clashes l := ih
    have le := clashes_le_behind_cons false '(' l
    rw [depth_paren, room]
    omega
  | @product l tokens _ ih =>
    have rest : depth tokens ≤ 1 + clashes l := ih
    have le := clashes_le_behind_cons true '(' l
    rw [depth_operator, depth_paren, room]
    omega
  | @closing after l tokens _ ih =>
    have rest : depth tokens ≤ 0 + clashes (')' :: l) := ih
    have le := clashes_le_behind after (')' :: l)
    have nonneg : 0 ≤ room after := room_nonneg
    rw [depth_paren]
    omega

end Calculator
