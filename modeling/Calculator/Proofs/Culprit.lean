import Calculator.Proofs.Arrangement.Nesting
import Calculator.Proofs.Scanning.Source

/-!
# Culprits

A syntax error is about one item of the expression (`SyntaxError.item`), and no such item is a
product, whether typed or implied. So the error points at what was typed: a character that belongs
to no token, a run of digits and points with blanks in it, or a parenthesis (`exists_culprit`).
-/

namespace Calculator

open Text

/-- The error is met in the scan, or it is the one that is reported. -/
inductive Raised (l : List Char) : SyntaxError → Prop where
  | scanned {e} :
    .error e ∈ Item.ofChars l →
    Raised l (.lexical e)
  | reported {e} :
    parse l = .error e →
    Raised l e

/-- What an error is about, as it was typed. -/
inductive SyntaxError.Culprit : SyntaxError → List Char → Prop where
  | character {c span} :
    Culprit (.lexical (.unexpectedCharacter c span)) [c]
  | numeral {text span first last} :
    text.head? = some first →
    Decimal.isNumeral first = true →
    text.getLast? = some last →
    Decimal.isNumeral last = true →
    Culprit (.lexical (.malformedNumeral (strip text) span)) text
  | closing {span} :
    Culprit (.unmatchedClosing span) [')']
  | opening {span} :
    Culprit (.unclosedGroup span) ['(']

namespace SyntaxError

/-- The item that the error is about. -/
def item : SyntaxError → Item
  | lexical e => .error e
  | unmatchedClosing span => .ok ⟨.paren .closing, span⟩
  | unclosedGroup span => .ok ⟨.paren .opening, span⟩

/-- An error spans what its item spans. -/
lemma span_item (e : SyntaxError) : e.item.span = e.span := by
  cases e <;> rfl

/-- No error is about a multiplication. -/
lemma item_ne_multiply (e : SyntaxError) (span : Span) :
    e.item ≠ .ok ⟨.operator .multiply, span⟩ := by
  cases e <;> simp [item]

end SyntaxError

/-- A reported error is about an item of the expression. -/
lemma item_mem_of_parse {l e} (h : parse l = .error e) : e.item ∈ Item.ofChars l := by
  rw [parse] at h
  generalize Item.ofChars l = items at h
  rcases clear_or_firstFault Item.Unfit items with clear | ⟨i, item, fault, hi⟩
  · rcases ofItems_of_clear clear with ⟨-, tokens, arranged⟩ | ⟨-, i, lexeme, last, reported⟩
    · rw [arranged] at h
      cases h
    · rw [reported] at h
      cases h
      obtain ⟨token, span⟩ := lexeme
      cases last.opening
      exact List.mem_of_getElem? last.here
  · match item with
    | .error e' =>
      rw [ofItems_of_error fault hi] at h
      cases h
      exact List.mem_of_getElem? hi
    | .ok ⟨token, span⟩ =>
      rw [ofItems_of_closing fault hi] at h
      cases h
      obtain ⟨_, _, _, _, _, closing, _⟩ := fault.split hi
      cases closing
      exact List.mem_of_getElem? hi

/-- An error that is raised is about an item of the expression. -/
lemma Raised.item_mem {l e} (h : Raised l e) : e.item ∈ Item.ofChars l := by
  cases h with
  | scanned mem => exact mem
  | reported h => exact item_mem_of_parse h

section
variable {l text : List Char} {span : Span}

/-- One character stands alone in its stretch. -/
lemma Traces.eq_singleton (h : Traces l span text) {c} (e : strip text = [c]) : text = [c] := by
  obtain ⟨d, head, hd⟩ := h.head
  obtain ⟨last, hl, blank⟩ := h.last
  obtain ⟨rest, rfl⟩ := List.head?_eq_some_iff.1 head
  rw [strip_cons_of_not_isBlank hd] at e
  obtain ⟨rfl, none⟩ := List.cons.inj e
  have trimmed : ∀ c ∈ rest.getLast?, isBlank c = false := by
    intro c mem
    rw [List.getLast?_cons, Option.mem_def.1 mem] at hl
    cases hl
    exact blank
  rw [(strip_eq_nil_of_getLast? trimmed).1 none]

/-- A stretch of digits and points starts and ends with one. -/
lemma Traces.isNumeral_ends (h : Traces l span text)
    (run : ∀ c ∈ strip text, Decimal.isNumeral c = true) :
    (∃ c, text.head? = some c ∧ Decimal.isNumeral c = true) ∧
      ∃ c, text.getLast? = some c ∧ Decimal.isNumeral c = true := by
  have kept {c} (mem : c ∈ text) (blank : isBlank c = false) : c ∈ strip text :=
    List.mem_filter.2 ⟨mem, by rw [blank]; rfl⟩
  obtain ⟨c, head, hc⟩ := h.head
  obtain ⟨d, last, hd⟩ := h.last
  exact ⟨⟨c, head, run c (kept (List.mem_of_mem_head? head) hc)⟩,
    d, last, run d (kept (List.mem_of_mem_getLast? last) hd)⟩

/-- What the item of an error is read from is the culprit. -/
lemma Traces.culprit (h : Traces l span text) {e : SyntaxError}
    (reading : Item.Reading (strip text) e.item) : e.Culprit text := by
  have paren {side c place} (reading : Item.Reading (strip text) (.ok ⟨.paren side, place⟩))
      (hc : side.char = c) : text = [c] := by
    generalize es : strip text = piece at reading
    cases reading with
    | symbol symbol =>
      cases symbol
      rw [← hc]
      exact h.eq_singleton es
  match e with
  | .lexical (.unexpectedCharacter c place) =>
    generalize es : strip text = piece at reading
    cases reading with
    | unexpected _ _ =>
      rw [h.eq_singleton es]
      exact .character
  | .lexical (.malformedNumeral literal place) =>
    generalize es : strip text = piece at reading
    cases reading with
    | malformed run _ =>
      rw [← es] at run ⊢
      obtain ⟨⟨c, head, hc⟩, d, last, hd⟩ := h.isNumeral_ends run
      exact .numeral head hc last hd
  | .unmatchedClosing place =>
    rw [paren reading rfl]
    exact .closing
  | .unclosedGroup place =>
    rw [paren reading rfl]
    exact .opening

end

/-- An error points at its culprit: its span is not empty, begins and ends between characters that
are no blanks, and covers the culprit and nothing else. -/
theorem exists_culprit {l : List Char} {e : SyntaxError} (h : Raised l e) (name : String) :
    ∃ text, e.Culprit text ∧ 0 < e.span.length ∧ Traces l e.span text ∧
      (e.diagnostic { text := l, name := name }).excerpt =
        some { label := e.label, span := e.span, snippet := text, sourceName := name } := by
  obtain ⟨text, traces, reading⟩ := Item.exists_traces h.item_mem e.item_ne_multiply
  have culprit := traces.culprit reading
  rw [e.span_item] at traces
  refine ⟨text, culprit, traces.length_pos, traces, ?_⟩
  rw [SyntaxError.diagnostic, Source.excerpt, traces.marks.slice?]
  rfl

/-- The run stands behind a character of three bytes and has blanks in it. -/
theorem exists_culprit_run :
    Raised "€ 1 . 2 .(".toList (.lexical (.malformedNumeral "1.2.".toList ⟨4, 7⟩)) ∧
      ∃ text, SyntaxError.Culprit (.lexical (.malformedNumeral "1.2.".toList ⟨4, 7⟩)) text ∧
        0 < (⟨4, 7⟩ : Span).length ∧ Traces "€ 1 . 2 .(".toList ⟨4, 7⟩ text ∧
        (SyntaxError.diagnostic { text := "€ 1 . 2 .(".toList, name := "<input>" }
            (.lexical (.malformedNumeral "1.2.".toList ⟨4, 7⟩))).excerpt =
          some
            { label := "this numeric literal", span := ⟨4, 7⟩, snippet := text,
              sourceName := "<input>" } := by
  have raised : Raised "€ 1 . 2 .(".toList (.lexical (.malformedNumeral "1.2.".toList ⟨4, 7⟩)) :=
    .scanned (by decide +kernel)
  exact ⟨raised, exists_culprit raised "<input>"⟩

end Calculator
