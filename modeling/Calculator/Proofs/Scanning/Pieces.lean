import Calculator.Lexeme
import Calculator.Proofs.Grammar.Numeral
import Mathlib.Data.List.Forall2
import Mathlib.Data.List.SplitBy

/-!
# Pieces of a text

A text is cut into its longest runs of digits and points and the single characters between them
(`pieces`). What a piece is read as depends on its characters only (`Item.Reading`). Scanning glyphs
reads each of their pieces, and what is read from a piece spans it (`Item.forall₂_scan`).
-/

namespace Calculator

/-- Whether two neighbours belong to one run of digits and points. -/
def joined (c d : Char) : Bool :=
  Decimal.isNumeral c && Decimal.isNumeral d

/-- The longest runs of digits and points, and the characters between them. -/
def pieces (l : List Char) : List (List Char) :=
  l.splitBy joined

/-- What a piece is read as, in any place. -/
inductive Item.Reading : List Char → Item → Prop where
  | number {run span} (h : Numeral run) :
    Reading run (.ok ⟨.number (Decimal.ofNumeral run h).toFloat, span⟩)
  | malformed {run span} :
    (∀ c ∈ run, Decimal.isNumeral c = true) →
    ¬Numeral run →
    Reading run (.error (.malformedNumeral run span))
  | symbol {c token span} :
    token.symbol? = some c →
    Reading [c] (.ok ⟨token, span⟩)
  | unexpected {c span} :
    Decimal.isNumeral c = false →
    (∀ token : Token, token.symbol? ≠ some c) →
    Reading [c] (.error (.unexpectedCharacter c span))

namespace Item

/-- Where in the expression the item comes from. -/
def span : Item → Span
  | .ok lexeme => lexeme.span
  | .error e => e.span

/-- Whether the item is a number or failed to be one. -/
def isNumeral : Item → Bool
  | .ok lexeme => lexeme.token.value?.isSome
  | .error (.malformedNumeral _ _) => true
  | .error (.unexpectedCharacter _ _) => false

end Item

/-- No symbol stands in a numeral. -/
lemma Token.isNumeral_of_symbol? {token : Token} {c} (h : token.symbol? = some c) :
    Decimal.isNumeral c = false := by
  cases token with
  | number value => cases h
  | operator op => cases h; exact Decimal.isNumeral_operator
  | paren side => cases h; cases side <;> rfl

/-- Only runs of digits and points are read as numerals. -/
lemma Item.Reading.isNumeral_eq {piece item} (h : Item.Reading piece item) :
    ∀ c ∈ piece, Decimal.isNumeral c = item.isNumeral := by
  cases h with
  | number h => exact h.inNumeral
  | malformed run _ => exact run
  | @symbol c token _ h =>
    intro d mem
    rw [List.mem_singleton.1 mem, Token.isNumeral_of_symbol? h]
    cases token with
    | number value => cases h
    | operator op => rfl
    | paren side => rfl
  | unexpected hc _ =>
    intro d mem
    rw [List.mem_singleton.1 mem, hc]
    rfl

/-- Whether two glyphs belong to one run of digits and points. -/
def Glyph.joined (g h : Glyph) : Bool :=
  Calculator.joined g.char h.char

/-- The pieces of a condensed expression. -/
def Condensed.pieces (c : Condensed) : List (List Glyph) :=
  c.glyphs.splitBy Glyph.joined

/-- The pieces of a condensed expression are those of its text. -/
lemma map_splitBy_joined (l : List Glyph) :
    (l.splitBy Glyph.joined).map (List.map Glyph.char) = Calculator.pieces (l.map Glyph.char) := by
  refine (List.splitBy_eq_iff.2 ⟨?_, ?_, ?_, ?_⟩).symm
  · rw [← List.map_flatten, List.flatten_splitBy]
  · intro mem
    obtain ⟨piece, mem, e⟩ := List.mem_map.1 mem
    exact List.ne_nil_of_mem_splitBy mem (List.map_eq_nil_iff.1 e)
  · intro piece mem
    obtain ⟨run, run_mem, rfl⟩ := List.mem_map.1 mem
    exact (List.isChain_map _).2 (List.isChain_of_mem_splitBy run_mem)
  · refine (List.isChain_map _).2 ((List.isChain_getLast_head_splitBy _ l).imp ?_)
    intro run next ⟨hr, hn, apart⟩
    refine ⟨by simpa using hr, by simpa using hn, ?_⟩
    rw [List.getLast_map, List.head_map]
    exact apart

section
variable {g : Glyph} {l : List Glyph}

/-- A run has digits and points only. -/
lemma inNumeral_of_mem_run (h : Item.inNumeral g = true) :
    ∀ r ∈ g :: l.takeWhile Item.inNumeral, Item.inNumeral r = true := by
  intro r mem
  rcases List.mem_cons.1 mem with rfl | mem
  · exact h
  · exact List.all_eq_true.1 List.all_takeWhile r mem

/-- A run of digits and points is one piece. -/
lemma splitBy_cons_of_inNumeral (h : Item.inNumeral g = true) :
    (g :: l).splitBy Glyph.joined =
      (g :: l.takeWhile Item.inNumeral) :: (l.dropWhile Item.inNumeral).splitBy Glyph.joined := by
  have run := inNumeral_of_mem_run (l := l) h
  have stop := List.head?_dropWhile_not Item.inNumeral l
  have split : g :: l = (g :: l.takeWhile Item.inNumeral) ++ l.dropWhile Item.inNumeral := by
    rw [List.cons_append, List.takeWhile_append_dropWhile]
  have chain : (g :: l.takeWhile Item.inNumeral).IsChain fun r s => Glyph.joined r s := by
    refine List.Pairwise.isChain (List.pairwise_of_forall_mem_list fun r hr s hs => ?_)
    exact Bool.and_eq_true_iff.2 ⟨run r hr, run s hs⟩
  rw [split, List.splitBy_append, List.splitBy_of_isChain (List.cons_ne_nil _ _) chain]
  · rfl
  · intro r _ s mem
    rw [Option.mem_def.1 mem] at stop
    exact Bool.and_eq_false_iff.2 (.inr stop)

/-- Any other character is a piece by itself. -/
lemma splitBy_cons_of_not_inNumeral (h : Item.inNumeral g = false) :
    (g :: l).splitBy Glyph.joined = [g] :: l.splitBy Glyph.joined := by
  have split : g :: l = [g] ++ l := rfl
  rw [split, List.splitBy_append,
    List.splitBy_of_isChain (List.cons_ne_nil g []) (List.isChain_singleton g)]
  · rfl
  · intro r mem s _
    cases mem
    exact Bool.and_eq_false_iff.2 (.inl h)

end

/-- The item is what the piece is read as and spans it. -/
structure Item.Covers (piece : List Glyph) (item : Item) : Prop where
  reading : Item.Reading (piece.map Glyph.char) item
  span : ∃ ne : piece ≠ [], item.span = (piece.head ne).cover (piece.getLast ne)

namespace Item

/-- A run of digits and points is read as its item. -/
lemma ofRun_covers {g : Glyph} {more : List Glyph} (run : ∀ r ∈ g :: more, inNumeral r = true) :
    Covers (g :: more) (ofRun (g :: more) (g.cover (more.getLastD g))) := by
  have last : (g :: more).getLast (List.cons_ne_nil _ _) = more.getLastD g :=
    List.getLast_eq_getLastD _
  have chars : ∀ c ∈ (g :: more).map Glyph.char, Decimal.isNumeral c = true := by
    intro c mem
    obtain ⟨r, hr, rfl⟩ := List.mem_map.1 mem
    exact run r hr
  by_cases numeral : Numeral ((g :: more).map Glyph.char)
  · simp only [ofRun, Decimal.ofChars?_eq_ofNumeral numeral]
    exact ⟨.number numeral, List.cons_ne_nil _ _, by rw [last]; rfl⟩
  · have none : Decimal.ofChars? ((g :: more).map Glyph.char) = none := by
      rw [← Option.not_isSome_iff_eq_none, Decimal.isSome_ofChars?_iff]
      exact numeral
    simp only [ofRun, none]
    exact ⟨.malformed chars numeral, List.cons_ne_nil _ _, by rw [last]; rfl⟩

/-- Any other character is read as a symbol, if it is one. -/
lemma ofGlyph_covers {g : Glyph} (h : inNumeral g = false) : Covers [g] (ofGlyph g) := by
  cases e : Token.ofChar? g.char with
  | some token =>
    simp only [ofGlyph, e]
    exact ⟨.symbol (Token.ofChar?_eq_some_iff.1 e), List.cons_ne_nil _ _, rfl⟩
  | none =>
    simp only [ofGlyph, e]
    refine ⟨.unexpected h fun token symbol => ?_, List.cons_ne_nil _ _, rfl⟩
    rw [Token.ofChar?_eq_some_iff.2 symbol] at e
    cases e

/-- Scanning reads every piece. -/
lemma forall₂_scan (l : List Glyph) : List.Forall₂ Covers (l.splitBy Glyph.joined) (scan l) := by
  -- a run takes several glyphs at once, so the induction is on the length
  induction len : l.length using Nat.strongRecOn generalizing l with
  | ind k ih =>
    subst len
    cases l with
    | nil =>
      rw [scan_nil, List.splitBy_nil]
      exact .nil
    | cons g l =>
      cases hg : inNumeral g with
      | true =>
        have shorter := Nat.lt_succ_of_le (List.dropWhile_suffix (l := l) inNumeral).length_le
        rw [splitBy_cons_of_inNumeral hg, scan_cons_of_inNumeral hg]
        exact .cons (ofRun_covers (inNumeral_of_mem_run hg)) (ih _ shorter _ rfl)
      | false =>
        rw [splitBy_cons_of_not_inNumeral hg, scan_cons_of_not_inNumeral hg]
        exact .cons (ofGlyph_covers hg) (ih _ (Nat.lt_succ_self _) _ rfl)

end Item

end Calculator
