import Calculator.Lexeme
import Calculator.Proofs.Grammar.Numeral
import Mathlib.Data.List.Forall2

/-!
# Readings of a text

`Reads after l tokens` says what a text without blanks is read as, as far as it is tokens. What
comes before it matters only for a `(`, which multiplies an operand that it stands behind; `after`
says whether there is one. These are the tokens that an expression is scanned for, whatever blanks
it has (`yields_ofChars_iff`).
-/

namespace Calculator

/-- The text, behind an operand or not, is read as these tokens. -/
inductive Reads : Bool → List Char → List Token → Prop where
  | nil {after} :
    Reads after [] []
  | numeral {after n l tokens} (h : Numeral n) :
    (∀ c ∈ l.head?, Decimal.isNumeral c = false) →
    Reads true l tokens →
    Reads after (n ++ l) (.number (Decimal.ofNumeral n h).toFloat :: tokens)
  | operator {after op l tokens} :
    Reads false l tokens →
    Reads after (op.char :: l) (.operator op :: tokens)
  | opening {l tokens} :
    Reads false l tokens →
    Reads false ('(' :: l) (.paren .opening :: tokens)
  | product {l tokens} :
    Reads false l tokens →
    Reads true ('(' :: l) (.operator .multiply :: .paren .opening :: tokens)
  | closing {after l tokens} :
    Reads true l tokens →
    Reads after (')' :: l) (.paren .closing :: tokens)

/-- The item is this token, wherever it stands. -/
def Item.Is (item : Item) (token : Token) : Prop :=
  ∃ span, item = .ok ⟨token, span⟩

/-- The items are these tokens, one by one. -/
def Yields (items : List Item) (tokens : List Token) : Prop :=
  List.Forall₂ Item.Is items tokens

/-- What yields tokens is their lexemes. -/
lemma Yields.exists_lexemes {items tokens} (h : Yields items tokens) :
    ∃ lexemes : List Lexeme, lexemes.map Lexeme.token = tokens ∧ items = lexemes.map .ok := by
  induction h with
  | nil => exact ⟨[], rfl, rfl⟩
  | cons is _ ih =>
    obtain ⟨span, rfl⟩ := is
    obtain ⟨lexemes, rfl, rfl⟩ := ih
    exact ⟨⟨_, span⟩ :: lexemes, rfl, rfl⟩

/-- Lexemes yield their tokens. -/
lemma yields_map_ok (lexemes : List Lexeme) :
    Yields (lexemes.map .ok) (lexemes.map Lexeme.token) := by
  induction lexemes with
  | nil => exact .nil
  | cons lexeme lexemes ih => exact .cons ⟨lexeme.span, rfl⟩ ih

namespace Item

/-- A single character is the token that it stands for. -/
lemma ofGlyph_is_iff {g token} : (ofGlyph g).Is token ↔ Token.ofChar? g.char = some token := by
  unfold ofGlyph Is
  split
  · next token' e =>
    rw [e]
    refine ⟨fun ⟨span, h⟩ => ?_, fun h => ⟨g.cover g, ?_⟩⟩
    · cases h; rfl
    · cases h; rfl
  · next e =>
    rw [e]
    refine ⟨fun ⟨span, h⟩ => ?_, fun h => ?_⟩
    · cases h
    · cases h

/-- A run is a number if it is a numeral. -/
lemma ofRun_is_iff {run span token} :
    (ofRun run span).Is token ↔
      ∃ h : Numeral (run.map Glyph.char), token = .number (Decimal.ofNumeral _ h).toFloat := by
  unfold Is
  refine ⟨fun ⟨place, h⟩ => ?_, fun ⟨h, e⟩ => ⟨span, ?_⟩⟩
  · cases e : Decimal.ofChars? (run.map Glyph.char) with
    | none =>
      simp only [ofRun, e] at h
      cases h
    | some d =>
      have numeral : Numeral (run.map Glyph.char) := Decimal.isSome_ofChars?_iff.1 (by rw [e]; rfl)
      rw [Decimal.ofChars?_eq_ofNumeral numeral] at e
      simp only [ofRun, Decimal.ofChars?_eq_ofNumeral numeral] at h
      cases h
      exact ⟨numeral, rfl⟩
  · simp only [ofRun, Decimal.ofChars?_eq_ofNumeral h, e]

/-- A run of digits and points ends before anything else. -/
lemma scan_run {run l : List Glyph} (hr : ∀ g ∈ run, inNumeral g = true) (ne : run ≠ [])
    (head : ∀ g ∈ l.head?, inNumeral g = false) :
    ∃ span, scan (run ++ l) = ofRun run span :: scan l := by
  obtain ⟨g, run, rfl⟩ := List.exists_cons_of_ne_nil ne
  have hr' : ∀ g ∈ run, inNumeral g = true := fun g mem => hr g (List.mem_cons_of_mem _ mem)
  have stop : l.takeWhile inNumeral = [] ∧ l.dropWhile inNumeral = l := by
    cases l with
    | nil => exact ⟨rfl, rfl⟩
    | cons g l => simp [head g rfl]
  rw [List.cons_append, scan_cons_of_inNumeral (hr g List.mem_cons_self),
    List.takeWhile_append_of_pos hr', List.dropWhile_append_of_pos hr', stop.1, stop.2,
      List.append_nil]
  exact ⟨_, rfl⟩

end Item

namespace Glyph

/-- No product is implied before any other character. -/
lemma supplyProducts_cons {before p l} (h : ¬(p.char = '(' ∧ before.any endsOperand)) :
    supplyProducts before (p :: l) = typed p :: supplyProducts (some p.char) l :=
  if_neg h

/-- A `(` behind an operand implies a product. -/
lemma supplyProducts_cons_of_endsOperand {before p l} (hp : p.char = '(')
    (hb : before.any endsOperand = true) :
    supplyProducts before (p :: l) =
      implied p.offset :: typed p :: supplyProducts (some p.char) l :=
  if_pos ⟨hp, hb⟩

/-- No product is implied inside a run of digits and points. -/
lemma supplyProducts_run {before n l} (hn : ∀ p ∈ n, Decimal.isNumeral p.char = true)
    (ne : n ≠ []) :
    supplyProducts before (n ++ l) =
      n.map typed ++ supplyProducts (some (n.getLast ne).char) l := by
  induction n generalizing before with
  | nil => exact absurd rfl ne
  | cons p n ih =>
    have hp : ¬(p.char = '(' ∧ before.any endsOperand) := by
      intro ⟨e, _⟩
      have := hn p List.mem_cons_self
      rw [e] at this
      cases this
    rw [List.cons_append, supplyProducts_cons hp, List.map_cons, List.cons_append]
    cases n with
    | nil => rfl
    | cons q n =>
      rw [ih (fun p mem => hn p (List.mem_cons_of_mem _ mem)) (List.cons_ne_nil _ _),
        List.getLast_cons_cons]

/-- A typed character stands in a numeral as it does elsewhere. -/
@[simp] lemma inNumeral_typed {p} : Item.inNumeral (typed p) = Decimal.isNumeral p.char := rfl

/-- Implied products do not bring a numeral to the front. -/
lemma inNumeral_head_supplyProducts {l} (before : Option Char)
    (head : ∀ p ∈ l.head?, Decimal.isNumeral p.char = false) :
    ∀ g ∈ (supplyProducts before l).head?, Item.inNumeral g = false := by
  intro g mem
  cases l with
  | nil => cases mem
  | cons p l =>
    by_cases h : p.char = '(' ∧ before.any endsOperand
    · rw [supplyProducts_cons_of_endsOperand h.1 h.2] at mem
      cases mem
      rfl
    · rw [supplyProducts_cons h] at mem
      cases mem
      exact head p rfl

/-- An operator ends no operand. -/
@[simp] lemma endsOperand_operator {op : Operator} : endsOperand op.char = false := by
  cases op <;> rfl

/-- A numeral is an operand. -/
lemma endsOperand_of_isNumeral {c} (h : Decimal.isNumeral c = true) : endsOperand c = true := by
  rw [endsOperand, Bool.and_eq_true, Option.isNone_iff_eq_none, bne_iff_ne]
  refine ⟨Option.eq_none_iff_forall_ne_some.2 fun op e => ?_, fun e => ?_⟩
  · rw [Operator.ofChar?_eq_some_iff.1 e] at h
    cases op <;> cases h
  · rw [e] at h
    cases h

end Glyph

/-- Behind the character `before` the text is scanned for these tokens. -/
def Scans (before : Option Char) (l : List Placed) (tokens : List Token) : Prop :=
  Yields (Item.scan (Glyph.supplyProducts before l)) tokens

section
variable {before : Option Char} {l n : List Placed} {p : Placed} {tokens : List Token}

/-- An empty text is scanned for nothing. -/
lemma scans_nil : Scans before [] tokens ↔ tokens = [] := by
  rw [Scans, Glyph.supplyProducts, Item.scan_nil, Yields, List.forall₂_nil_left_iff]

/-- A character that is scanned by itself. -/
lemma scans_cons (hp : Decimal.isNumeral p.char = false)
    (h : ¬(p.char = '(' ∧ before.any Glyph.endsOperand)) :
    Scans before (p :: l) tokens ↔
      ∃ token rest, Token.ofChar? p.char = some token ∧ Scans (some p.char) l rest ∧
        tokens = token :: rest := by
  have stop : Item.inNumeral (.typed p) = false := hp
  rw [Scans, Glyph.supplyProducts_cons h, Item.scan_cons_of_not_inNumeral stop, Yields,
    List.forall₂_cons_left_iff]
  simp only [Item.ofGlyph_is_iff]
  rfl

/-- A `(` with an implied product. -/
lemma scans_cons_of_endsOperand (hp : p.char = '(') (hb : before.any Glyph.endsOperand = true) :
    Scans before (p :: l) tokens ↔
      ∃ rest, Scans (some p.char) l rest ∧
        tokens = .operator .multiply :: .paren .opening :: rest := by
  have hm : ∀ token, Token.ofChar? (Glyph.implied p.offset).char = some token ↔
      token = .operator .multiply :=
    fun _ => by simp [Glyph.char, Token.ofChar?, Operator.ofChar?, eq_comm]
  have ho : ∀ token, Token.ofChar? (Glyph.typed p).char = some token ↔ token = .paren .opening :=
    fun _ => by simp [Glyph.char, hp, Token.ofChar?, eq_comm]
  have stop : Item.inNumeral (.typed p) = false := by
    rw [Glyph.inNumeral_typed, hp]
    rfl
  rw [Scans, Glyph.supplyProducts_cons_of_endsOperand hp hb, Item.scan_cons_of_not_inNumeral rfl,
    Item.scan_cons_of_not_inNumeral stop, Yields]
  simp only [List.forall₂_cons_left_iff, Item.ofGlyph_is_iff, hm, ho]
  refine ⟨?_, ?_⟩
  · intro ⟨_, _, rfl, ⟨_, rest, rfl, h, rfl⟩, e⟩
    exact ⟨rest, h, e⟩
  · intro ⟨rest, h, e⟩
    exact ⟨_, _, rfl, ⟨_, rest, rfl, h, rfl⟩, e⟩

/-- A run of digits and points. -/
lemma scans_run (hn : ∀ p ∈ n, Decimal.isNumeral p.char = true) (ne : n ≠ [])
    (head : ∀ p ∈ l.head?, Decimal.isNumeral p.char = false) :
    Scans before (n ++ l) tokens ↔
      ∃ (h : Numeral (n.map Placed.char)) (rest : List Token),
        Scans (some (n.getLast ne).char) l rest ∧
        tokens = .number (Decimal.ofNumeral _ h).toFloat :: rest := by
  have hr : ∀ g ∈ n.map Glyph.typed, Item.inNumeral g = true := by
    intro g mem
    obtain ⟨p, hp, rfl⟩ := List.mem_map.1 mem
    exact hn p hp
  obtain ⟨span, run⟩ := Item.scan_run hr (by simpa using ne)
    (Glyph.inNumeral_head_supplyProducts (some (n.getLast ne).char) head)
  have chars : (n.map Glyph.typed).map Glyph.char = n.map Placed.char := List.map_map
  rw [Scans, Glyph.supplyProducts_run hn ne, run, Yields, List.forall₂_cons_left_iff]
  simp only [Item.ofRun_is_iff, chars]
  refine ⟨?_, ?_⟩
  · intro ⟨_, rest, ⟨numeral, rfl⟩, h, e⟩
    exact ⟨numeral, rest, h, e⟩
  · intro ⟨numeral, rest, h, e⟩
    exact ⟨_, rest, ⟨numeral, rfl⟩, h, e⟩

/-- What a text is read as is scanned for, in any places. -/
lemma Reads.scans {after chars} (h : Reads after chars tokens)
    (hb : before.any Glyph.endsOperand = after) (hl : l.map Placed.char = chars) :
    Scans before l tokens := by
  induction h generalizing before l with
  | nil =>
    cases List.map_eq_nil_iff.1 hl
    exact scans_nil.2 rfl
  | numeral numeral head _ ih =>
    obtain ⟨n, rest, rfl, rfl, rfl⟩ := List.map_eq_append_iff.1 hl
    have ne : n ≠ [] := by
      intro e
      rw [e] at numeral
      exact numeral.ne_nil rfl
    have hn : ∀ p ∈ n, Decimal.isNumeral p.char = true :=
      fun p mem => numeral.inNumeral _ (List.mem_map_of_mem mem)
    have head' : ∀ p ∈ rest.head?, Decimal.isNumeral p.char = false := by
      intro p mem
      exact head _ (by rw [List.head?_map]; exact Option.mem_map_of_mem _ mem)
    -- the rest of the text follows an operand
    have last := Glyph.endsOperand_of_isNumeral (hn _ (List.getLast_mem ne))
    exact (scans_run hn ne head').2 ⟨numeral, _, ih last rfl, rfl⟩
  | @operator _ op _ _ _ ih =>
    obtain ⟨p, rest, rfl, hp, rfl⟩ := List.map_eq_cons_iff.1 hl
    have read : Token.ofChar? p.char = some (.operator op) := by
      rw [hp]
      exact Token.ofChar?_eq_some_iff.2 rfl
    refine (scans_cons ?_ ?_).2 ⟨_, _, read, ih ?_ rfl, rfl⟩
    · rw [hp, Decimal.isNumeral_operator]
    · intro ⟨e, _⟩
      rw [e] at read
      cases read
    · rw [hp, Option.any_some, Glyph.endsOperand_operator]
  | opening _ ih =>
    obtain ⟨p, rest, rfl, hp, rfl⟩ := List.map_eq_cons_iff.1 hl
    refine (scans_cons ?_ ?_).2 ⟨.paren .opening, _, ?_, ih ?_ rfl, rfl⟩
    · rw [hp]; rfl
    · simp [hb]
    · rw [hp]; rfl
    · rw [hp]; rfl
  | product _ ih =>
    obtain ⟨p, rest, rfl, hp, rfl⟩ := List.map_eq_cons_iff.1 hl
    exact (scans_cons_of_endsOperand hp hb).2 ⟨_, ih (by rw [hp]; rfl) rfl, rfl⟩
  | closing _ ih =>
    obtain ⟨p, rest, rfl, hp, rfl⟩ := List.map_eq_cons_iff.1 hl
    refine (scans_cons ?_ ?_).2 ⟨.paren .closing, _, ?_, ih ?_ rfl, rfl⟩
    · rw [hp]; rfl
    · simp [hp]
    · rw [hp]; rfl
    · rw [hp]; rfl

/-- A text starts with a run, which may be empty. -/
lemma exists_run (l : List Placed) :
    ∃ n rest, l = n ++ rest ∧ (∀ p ∈ n, Decimal.isNumeral p.char = true) ∧
      ∀ p ∈ rest.head?, Decimal.isNumeral p.char = false := by
  refine ⟨l.takeWhile fun p => Decimal.isNumeral p.char,
    l.dropWhile fun p => Decimal.isNumeral p.char,
    List.takeWhile_append_dropWhile.symm, fun p mem => ?_, fun p mem => ?_⟩
  · exact List.all_eq_true.1 List.all_takeWhile p mem
  · have stop := List.head?_dropWhile_not (fun p : Placed => Decimal.isNumeral p.char) l
    rw [Option.mem_def.1 mem] at stop
    exact stop

/-- A symbol is read in front of what is read behind it. -/
lemma Reads.cons {after c token chars} (h : Reads (Glyph.endsOperand c) chars tokens)
    (hc : Token.ofChar? c = some token) (product : ¬(c = '(' ∧ after = true)) :
    Reads after (c :: chars) (token :: tokens) := by
  rw [Token.ofChar?_eq_some_iff] at hc
  cases token with
  | number value => cases hc
  | operator op =>
    cases hc
    rw [Glyph.endsOperand_operator] at h
    exact .operator h
  | paren side =>
    cases side with
    | opening =>
      cases hc
      rw [Bool.eq_false_iff.2 fun e => product ⟨rfl, e⟩]
      exact .opening h
    | closing =>
      cases hc
      exact .closing h

/-- What a text is scanned for is a reading of it. -/
lemma Scans.reads (h : Scans before l tokens) :
    Reads (before.any Glyph.endsOperand) (l.map Placed.char) tokens := by
  -- a numeral takes several characters at once, so the induction is on the length
  induction len : l.length using Nat.strongRecOn generalizing before l tokens with
  | ind k ih =>
    subst len
    obtain ⟨n, rest, rfl, hn, head⟩ := exists_run l
    by_cases ne : n = []
    · subst ne
      cases rest with
      | nil =>
        cases scans_nil.1 h
        exact .nil
      | cons p rest =>
        rw [List.nil_append] at h ih ⊢
        by_cases product : p.char = '(' ∧ before.any Glyph.endsOperand
        · obtain ⟨hp, hb⟩ := product
          obtain ⟨tokens, ht, rfl⟩ := (scans_cons_of_endsOperand hp hb).1 h
          have := ih _ (Nat.lt_succ_self _) ht rfl
          rw [hp] at this
          rw [hb, List.map_cons, hp]
          exact .product this
        · obtain ⟨token, tokens, hp, ht, rfl⟩ := (scans_cons (head p rfl) product).1 h
          have := ih _ (Nat.lt_succ_self _) ht rfl
          exact this.cons hp product
    · obtain ⟨numeral, tokens, ht, rfl⟩ := (scans_run hn ne head).1 h
      have last := Glyph.endsOperand_of_isNumeral (hn _ (List.getLast_mem ne))
      have lt : rest.length < (n ++ rest).length := by
        have := List.length_pos_of_ne_nil ne
        rw [List.length_append]
        omega
      have := ih _ lt ht rfl
      rw [Option.any_some, last] at this
      rw [List.map_append]
      refine .numeral numeral ?_ this
      intro c mem
      rw [List.head?_map] at mem
      obtain ⟨p, e, rfl⟩ := Option.map_eq_some_iff.1 mem
      exact head p e

end

/-- The characters that are no blanks stay in their order. -/
lemma map_char_filter_ofChars (offset : Nat) (l : List Char) :
    ((Placed.ofChars offset l).filter fun p => !Text.isBlank p.char).map Placed.char =
      Text.strip l := by
  induction l generalizing offset with
  | nil => rfl
  | cons c l ih =>
    have ih := ih (offset + c.utf8Size)
    rw [Placed.ofChars, Text.strip, List.filter_cons, List.filter_cons]
    split
    · rw [List.map_cons, ih, Text.strip]
    · rw [ih, Text.strip]

/-- What is typed is the text without its blanks. -/
lemma map_char_typed (l : List Char) : (Condensed.typed l).map Placed.char = Text.strip l :=
  map_char_filter_ofChars 0 l

/-- An expression is scanned for what it is read as without its blanks. -/
theorem yields_ofChars_iff {l : List Char} {tokens : List Token} :
    Yields (Item.ofChars l) tokens ↔ Reads false (Text.strip l) tokens := by
  show Scans none (Condensed.typed l) tokens ↔ _
  rw [← map_char_typed]
  exact ⟨fun h => h.reads, fun h => h.scans rfl rfl⟩

end Calculator
