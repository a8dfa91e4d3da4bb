import Calculator.Proofs.Grammar.Numeral
import Calculator.Proofs.Tree
import Mathlib.Data.List.Chain

/-!
# Sentences of infix arithmetic

An expression is a sum of terms, a term is a product of factors, and a factor is a numeral or a
group, that is an expression in parentheses. Sums and products group to the left. A group directly
behind a term multiplies it. `Derives` says which texts are which phrases and what operator tree
they have.

In a sentence no numeral stands directly behind a `)` (`Derives.separated`). An expression goes on
with any operator and a factor (`Derives.operate`), or with a group that multiplies its last term
(`Derives.multiply`).
-/

namespace Calculator

/-- The kinds of phrases. -/
inductive Phrase where
  | expression
  | term
  | factor
  | group

/-- The text is a phrase of this kind with this tree. -/
inductive Derives : Phrase → List Char → Tree → Prop where
  | ofTerm {l t} :
    Derives .term l t →
    Derives .expression l t
  | sum {l m op t u} :
    op = .add ∨ op = .subtract →
    Derives .expression l t →
    Derives .term m u →
    Derives .expression (l ++ op.char :: m) (.node op t u)
  | ofFactor {l t} :
    Derives .factor l t →
    Derives .term l t
  | product {l m op t u} :
    op = .multiply ∨ op = .divide →
    Derives .term l t →
    Derives .factor m u →
    Derives .term (l ++ op.char :: m) (.node op t u)
  | juxtaposition {l m t u} :
    Derives .term l t →
    Derives .group m u →
    Derives .term (l ++ m) (.node .multiply t u)
  | numeral {l} (h : Numeral l) :
    Derives .factor l (.number (Decimal.ofNumeral l h).toFloat)
  | ofGroup {l t} :
    Derives .group l t →
    Derives .factor l t
  | enclose {l t} :
    Derives .expression l t →
    Derives .group ('(' :: l ++ [')']) t

/-- The text is an expression of the grammar. -/
def Sentence (l : List Char) : Prop :=
  ∃ t, Derives .expression l t

/-- No digit and no point stands directly behind a `)`. -/
def Separated (l : List Char) : Prop :=
  l.IsChain fun c d => c = ')' → Decimal.isNumeral d = false

/-- It can be told whether a text is separated. -/
instance (l : List Char) : Decidable (Separated l) :=
  inferInstanceAs (Decidable (List.IsChain _ l))

/-- No operator is a `)`. -/
@[simp] lemma Operator.char_ne_closing {op : Operator} : op.char ≠ ')' := by
  cases op <;> decide

/-- Separated texts are so together if the second starts with no numeral. -/
lemma Separated.append {l m} (hl : Separated l) (hm : Separated m)
    (head : ∀ d ∈ m.head?, Decimal.isNumeral d = false) : Separated (l ++ m) :=
  List.isChain_append.2 ⟨hl, hm, fun _ _ d mem _ => head d mem⟩

/-- What is not `)` can stand before any separated text. -/
lemma Separated.cons {c l} (hc : c ≠ ')') (hl : Separated l) : Separated (c :: l) :=
  List.isChain_cons.2 ⟨fun _ _ e => absurd e hc, hl⟩

/-- A numeral is separated. -/
lemma Numeral.separated {l} (h : Numeral l) : Separated l := by
  refine List.Pairwise.isChain (List.pairwise_of_forall_mem_list fun c mem d _ e => ?_)
  have := h.inNumeral c mem
  rw [e] at this
  cases this

namespace Derives

/-- A group has an expression between its parentheses. -/
lemma exists_of_group {l t} (h : Derives .group l t) :
    ∃ inside, l = '(' :: inside ++ [')'] ∧ Derives .expression inside t := by
  cases h with
  | enclose h => exact ⟨_, rfl, h⟩

/-- A phrase is separated. -/
lemma separated {k l t} (h : Derives k l t) : Separated l := by
  induction h with
  | ofTerm _ ih | ofFactor _ ih | ofGroup _ ih => exact ih
  | sum _ _ _ ihl ihm | product _ _ _ ihl ihm =>
    exact ihl.append (ihm.cons Operator.char_ne_closing) (by simp)
  | juxtaposition _ hm ihl ihm =>
    obtain ⟨inside, rfl, _⟩ := hm.exists_of_group
    exact ihl.append ihm (by simp [Decimal.isNumeral])
  | numeral h => exact h.separated
  | enclose _ ih =>
    have hc : Separated [')'] := List.isChain_singleton _
    exact (ih.append hc (by simp [Decimal.isNumeral])).cons (by decide)

/-- An operator and a factor go on with an expression. -/
lemma operate {l m t u} (h : Derives .expression l t) (op : Operator) (hm : Derives .factor m u) :
    Sentence (l ++ op.char :: m) := by
  by_cases hop : op = .add ∨ op = .subtract
  · exact ⟨_, .sum hop h (.ofFactor hm)⟩
  · have hop : op = .multiply ∨ op = .divide := by
      cases op <;> simp at hop ⊢
    cases h with
    | ofTerm h => exact ⟨_, .ofTerm (.product hop h hm)⟩
    | sum hsum h hlast =>
      -- the product takes the last term of the sum
      rw [List.append_assoc, List.cons_append]
      exact ⟨_, .sum hsum h (.product hop hlast hm)⟩

/-- A group goes on with an expression. -/
lemma multiply {l m t u} (h : Derives .expression l t) (hm : Derives .group m u) :
    Sentence (l ++ m) := by
  cases h with
  | ofTerm h => exact ⟨_, .ofTerm (.juxtaposition h hm)⟩
  | sum hsum h hlast =>
    rw [List.append_assoc, List.cons_append]
    exact ⟨_, .sum hsum h (.juxtaposition hlast hm)⟩

end Derives

end Calculator
