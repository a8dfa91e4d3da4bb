import Calculator.Proofs.Condensed.Range
import Calculator.Proofs.Scanning.Tokenization

/-!
# Scanning with a cursor

The condensed text can be scanned in place, by a cursor that counts the bytes behind it. Each call
cuts the text at the cursor, and a run once more where it ends, and looks up where the bytes that it
reads come from. None of this can fail (`cursor_scan`): the cursor always stands between two
characters of the text (`Cursor.StandsBefore`), for each byte there is an origin, and each item
takes up a character or more. So the cursor reads the same items, one with each call, and from then
on it stays at the end.
-/

namespace Calculator

open Text

namespace Item

/-- Reads a run of digits and points, by its characters. -/
def ofLiteral (literal : List Char) (span : Span) : Item :=
  match Decimal.ofChars? literal with
  | some d => .ok ⟨.number d.toFloat, span⟩
  | none => .error (.malformedNumeral literal span)

/-- Reads a character that is no part of a numeral. -/
def ofSymbol (char : Char) (span : Span) : Item :=
  match Token.ofChar? char with
  | some token => .ok ⟨token, span⟩
  | none => .error (.unexpectedCharacter char span)

/-- A run is read by its characters. -/
lemma ofRun_eq_ofLiteral (run : List Glyph) (span : Span) :
    ofRun run span = ofLiteral (run.map Glyph.char) span := rfl

/-- A symbol is read by its character. -/
lemma ofGlyph_eq_ofSymbol (g : Glyph) : ofGlyph g = ofSymbol g.char (g.cover g) := rfl

/-- A literal has the span that it is read with. -/
lemma span_ofLiteral (literal : List Char) (span : Span) :
    (ofLiteral literal span).span = span := by
  rw [ofLiteral]
  split <;> rfl

/-- A symbol has the span that it is read with. -/
lemma span_ofSymbol (char : Char) (span : Span) : (ofSymbol char span).span = span := by
  rw [ofSymbol]
  split <;> rfl

/-- Only from an empty text is nothing read. -/
lemma eq_nil_of_next? {l : List Glyph} (h : next? l = none) : l = [] := by
  cases l with
  | nil => rfl
  | cons g l =>
    simp only [next?] at h
    split at h <;> cases h

/-- Every item takes up a character or more. -/
lemma length_scan_le (l : List Glyph) : (scan l).length ≤ l.length := by
  induction len : l.length using Nat.strongRecOn generalizing l with
  | ind k ih =>
    subst len
    cases e : next? l with
    | none =>
      rw [eq_nil_of_next? e, scan_nil]
      exact Nat.le_refl _
    | some read =>
      obtain ⟨item, rest⟩ := read
      have shorter := length_of_next? e
      rw [scan_of_next? e]
      exact Nat.lt_of_le_of_lt (ih rest.length shorter rest rfl) shorter

end Item

/-- A place in a condensed text. -/
structure Cursor where
  condensed : Condensed
  /-- The number of bytes behind the cursor. -/
  byte : Nat
deriving DecidableEq

namespace Cursor

/-- The cursor before the text that the expression is condensed to. -/
def start (l : List Char) : Cursor where
  condensed := .ofChars l
  byte := 0

/-- Reads the next `size` bytes and moves behind them. -/
def take? (c : Cursor) (size : Nat) (read : Span → Item) : Option (Option Item × Cursor) := do
  let span ← c.condensed.span? c.byte (c.byte + size)
  return (some (read span), { c with byte := c.byte + size })

/-- Reads what comes next, or nothing at the end. There is no result if the text cannot be cut or a
place cannot be looked up. -/
def next? (c : Cursor) : Option (Option Item × Cursor) := do
  let (_, rest) ← splitBytes? c.byte c.condensed.toChars
  match rest with
  | [] => return (none, c)
  | char :: more =>
    if Decimal.isNumeral char then
      let size := byteLength ((char :: more).takeWhile Decimal.isNumeral)
      let (literal, _) ← splitBytes? size (char :: more)
      c.take? size (Item.ofLiteral literal)
    else c.take? char.utf8Size (Item.ofSymbol char)

/-- The cursor after `n` calls. -/
def advance? : Nat → Cursor → Option Cursor
  | 0, c => some c
  | n + 1, c => do
    let (_, d) ← c.next?
    advance? n d

/-- A call reads the item, which spans what is between here and `d`. -/
structure Reads (c : Cursor) (item : Item) (d : Cursor) : Prop where
  next : c.next? = some (some item, d)
  forward : c.byte < d.byte
  bounded : d.byte ≤ byteLength c.condensed.toChars
  span : c.condensed.span? c.byte d.byte = some item.span

/-- The glyphs are those that the cursor has not passed. -/
def StandsBefore (c : Cursor) (rest : List Glyph) : Prop :=
  ∃ done, c.condensed.glyphs = done ++ rest ∧ byteLength (done.map Glyph.char) = c.byte

variable {c : Cursor} {rest : List Glyph}

/-- The cursor stands between characters. -/
lemma StandsBefore.isBoundary (h : StandsBefore c rest) :
    IsBoundary c.condensed.toChars c.byte := by
  obtain ⟨done, e, bytes⟩ := h
  have chars : c.condensed.toChars = done.map Glyph.char ++ rest.map Glyph.char := by
    rw [Condensed.toChars, e, List.map_append]
  exact ⟨_, _, chars, bytes⟩

/-- The cursor stands in the text. -/
lemma StandsBefore.le_byteLength (h : StandsBefore c rest) :
    c.byte ≤ byteLength c.condensed.toChars := by
  obtain ⟨before, after, e, bytes⟩ := h.isBoundary
  rw [e, byteLength_append, bytes]
  exact Nat.le_add_right _ _

/-- The text is cut at the cursor. -/
lemma StandsBefore.splitBytes? (h : StandsBefore c rest) :
    ∃ before, splitBytes? c.byte c.condensed.toChars = some (before, rest.map Glyph.char) := by
  obtain ⟨done, e, bytes⟩ := h
  refine ⟨done.map Glyph.char, splitBytes?_eq_some_iff.2 ⟨?_, bytes⟩⟩
  rw [Condensed.toChars, e, List.map_append]

/-- A call that takes a piece reads and passes it. -/
lemma StandsBefore.reads {piece : List Glyph} (h : StandsBefore c (piece ++ rest))
    (ne : piece ≠ []) {read}
    (next : c.next? = c.take? (byteLength (piece.map Glyph.char)) read)
    (traced : ∀ span, (read span).span = span) :
    ∃ d, c.Reads (read ((piece.head ne).cover (piece.getLast ne))) d ∧ d.condensed = c.condensed ∧
      StandsBefore d rest := by
  obtain ⟨done, e, bytes⟩ := h
  rw [← List.append_assoc] at e
  have stop : byteLength ((done ++ piece).map Glyph.char) =
      c.byte + byteLength (piece.map Glyph.char) := by
    rw [List.map_append, byteLength_append, bytes]
  have span := span?_eq_cover e ne
  rw [bytes, stop] at span
  have passed : StandsBefore { c with byte := c.byte + byteLength (piece.map Glyph.char) } rest :=
    ⟨done ++ piece, e, stop⟩
  refine ⟨_, ⟨?_, ?_, passed.le_byteLength, ?_⟩, rfl, passed⟩
  · rw [next, take?, span]
    rfl
  · obtain ⟨g, piece, rfl⟩ := List.exists_cons_of_ne_nil ne
    exact Nat.lt_add_of_pos_right (Nat.add_pos_left (Char.utf8Size_pos g.char) _)
  · rw [traced]
    exact span

/-- The text is cut where its first characters with the property end. -/
lemma splitBytes?_takeWhile (p : Char → Bool) (l : List Char) :
    Text.splitBytes? (byteLength (l.takeWhile p)) l = some (l.takeWhile p, l.dropWhile p) :=
  splitBytes?_eq_some_iff.2 ⟨List.takeWhile_append_dropWhile.symm, rfl⟩

/-- At the end a call reads nothing. -/
lemma StandsBefore.next?_of_nil (h : StandsBefore c []) : c.next? = some (none, c) := by
  obtain ⟨before, cut⟩ := h.splitBytes?
  rw [next?, cut]
  rfl

/-- A run of digits and points is taken whole. -/
lemma StandsBefore.next?_of_inNumeral {g l} (h : StandsBefore c (g :: l))
    (numeral : Item.inNumeral g = true) :
    c.next? = c.take? (byteLength ((g :: l.takeWhile Item.inNumeral).map Glyph.char))
      (Item.ofLiteral ((g :: l.takeWhile Item.inNumeral).map Glyph.char)) := by
  obtain ⟨before, cut⟩ := h.splitBytes?
  have numeral' : Decimal.isNumeral g.char = true := numeral
  have run : (g.char :: l.map Glyph.char).takeWhile Decimal.isNumeral =
      (g :: l.takeWhile Item.inNumeral).map Glyph.char := by
    rw [List.takeWhile_cons_of_pos numeral', List.takeWhile_map]
    rfl
  have cut' := splitBytes?_takeWhile Decimal.isNumeral (g.char :: l.map Glyph.char)
  rw [run] at cut'
  simp only [next?, cut, List.map_cons, Option.bind_eq_bind, Option.bind_some, numeral',
    if_true] at cut' ⊢
  rw [run, List.map_cons, cut']
  rfl

/-- Any other character is taken by itself. -/
lemma StandsBefore.next?_of_not_inNumeral {g l} (h : StandsBefore c (g :: l))
    (other : Item.inNumeral g = false) :
    c.next? = c.take? (byteLength ([g].map Glyph.char)) (Item.ofSymbol g.char) := by
  obtain ⟨before, cut⟩ := h.splitBytes?
  have other' : Decimal.isNumeral g.char = false := other
  simp only [next?, cut, List.map_cons, Option.bind_eq_bind, Option.bind_some, other',
    Bool.false_eq_true, if_false]
  rfl

/-- A call reads the next item and comes to stand behind it. -/
lemma StandsBefore.step (h : StandsBefore c rest) {item behind}
    (next : Item.next? rest = some (item, behind)) :
    ∃ d, c.Reads item d ∧ d.condensed = c.condensed ∧ StandsBefore d behind := by
  match rest with
  | [] => cases next
  | g :: l =>
    simp only [Item.next?] at next
    by_cases numeral : Item.inNumeral g = true
    · rw [if_pos numeral] at next
      cases next
      have split : g :: l = (g :: l.takeWhile Item.inNumeral) ++ l.dropWhile Item.inNumeral := by
        rw [List.cons_append, List.takeWhile_append_dropWhile]
      have last : (g :: l.takeWhile Item.inNumeral).getLast (List.cons_ne_nil _ _) =
          (l.takeWhile Item.inNumeral).getLastD g := List.getLast_eq_getLastD _
      -- one call takes the whole run
      have call := h.next?_of_inNumeral numeral
      rw [split] at h
      rw [Item.ofRun_eq_ofLiteral, ← last]
      exact h.reads (List.cons_ne_nil _ _) call (Item.span_ofLiteral _)
    · rw [if_neg numeral] at next
      cases next
      have call := h.next?_of_not_inNumeral (Bool.eq_false_of_not_eq_true numeral)
      have single : StandsBefore c ([g] ++ behind) := h
      rw [Item.ofGlyph_eq_ofSymbol]
      exact single.reads (List.cons_ne_nil g []) call (Item.span_ofSymbol _)

/-- By induction, each call has read one item, or the end was come to. -/
lemma StandsBefore.exists_advance? (h : StandsBefore c rest) (n : Nat) :
    ∃ d behind, c.advance? n = some d ∧ d.condensed = c.condensed ∧ StandsBefore d behind ∧
      Item.scan behind = (Item.scan rest).drop n := by
  induction n generalizing c rest with
  | zero => exact ⟨c, rest, rfl, rfl, h, rfl⟩
  | succ n ih =>
    cases e : Item.next? rest with
    | none =>
      obtain rfl := Item.eq_nil_of_next? e
      obtain ⟨d, behind, calls, text, stands, items⟩ := ih h
      refine ⟨d, behind, ?_, text, stands, ?_⟩
      · rw [advance?, h.next?_of_nil]
        exact calls
      · rw [items, Item.scan_nil, List.drop_nil, List.drop_nil]
    | some read =>
      obtain ⟨item, later⟩ := read
      obtain ⟨c', reads, text', stands'⟩ := h.step e
      obtain ⟨d, behind, calls, text, stands, items⟩ := ih stands'
      refine ⟨d, behind, ?_, text.trans text', stands, ?_⟩
      · rw [advance?, reads.next]
        exact calls
      · rw [items, Item.scan_of_next? e, List.drop_succ_cons]

/-- The cursor after `n` calls that scan an expression. -/
structure Sound (l : List Char) (n : Nat) (c : Cursor) : Prop where
  condensed : c.condensed = .ofChars l
  bounded : c.byte ≤ byteLength (Condensed.ofChars l).toChars
  boundary : IsBoundary (Condensed.ofChars l).toChars c.byte
  /-- While there are items left the next call reads the next one. -/
  reads : ∀ item, (Item.ofChars l)[n]? = some item → ∃ d, c.Reads item d
  /-- Behind the last item the next call reads nothing and leaves the cursor where it is. -/
  ends : (Item.ofChars l)[n]? = none → c.next? = some (none, c)

/-- A call reads the first of the items that are left. -/
lemma StandsBefore.next?_cases (h : StandsBefore c rest) :
    (∀ item, (Item.scan rest).head? = some item → ∃ d, c.Reads item d) ∧
      ((Item.scan rest).head? = none → c.next? = some (none, c)) := by
  cases e : Item.next? rest with
  | none =>
    obtain rfl := Item.eq_nil_of_next? e
    rw [Item.scan_nil]
    exact ⟨nofun, fun _ => h.next?_of_nil⟩
  | some read =>
    obtain ⟨item, behind⟩ := read
    obtain ⟨d, reads, -, -⟩ := h.step e
    rw [Item.scan_of_next? e, List.head?_cons]
    refine ⟨fun first eq => ?_, nofun⟩
    cases eq
    exact ⟨d, reads⟩

/-- A cursor before the items that are left is sound. -/
lemma StandsBefore.sound {l n} (h : StandsBefore c rest) (text : c.condensed = .ofChars l)
    (items : Item.scan rest = (Item.ofChars l).drop n) : Sound l n c := by
  obtain ⟨reads, ends⟩ := h.next?_cases
  rw [items, List.head?_drop] at reads ends
  exact ⟨text, text ▸ h.le_byteLength, text ▸ h.isBoundary, reads, ends⟩

end Cursor

/-- The cursor has a result at every call and reads the items one after the other. There is an
origin for each byte, and no more items than characters. -/
theorem cursor_scan (l : List Char) :
    (Condensed.ofChars l).origins.length = byteLength (Condensed.ofChars l).toChars ∧
      (Item.ofChars l).length ≤ (Condensed.ofChars l).toChars.length ∧
      ∀ n, ∃ c, (Cursor.start l).advance? n = some c ∧ Cursor.Sound l n c := by
  refine ⟨Condensed.length_origins _, ?_, fun n => ?_⟩
  · rw [Condensed.toChars, List.length_map]
    exact Item.length_scan_le _
  · have stands : Cursor.StandsBefore (Cursor.start l) (Condensed.ofChars l).glyphs :=
      ⟨[], rfl, rfl⟩
    obtain ⟨c, rest, calls, text, stands, items⟩ := stands.exists_advance? n
    exact ⟨c, calls, stands.sound text items⟩

end Calculator
