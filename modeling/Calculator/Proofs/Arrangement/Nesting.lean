import Calculator.Proofs.Arrangement.Run
import Calculator.Proofs.Fault

/-!
# Nesting of groups

Parentheses are `Balanced` if none closes more than was opened before and as many are closed as
opened. Any run over items that can be taken in leaves open exactly the groups whose `(` has no
partner yet, the innermost first: between two neighbours of them, and around all of them, the
parentheses are balanced (`Unclosed`, `exists_run_of_clear`). In a balanced list every `(` has a
partner (`Balanced.matched`). So an unclosed group is reported at the last `(` without one, and the
outcome of `parse` is settled for every expression (`parse_outcome`).
-/

namespace Calculator

/-- Whether the item is a parenthesis of this side. -/
def Item.isParen (side : Paren) : Item → Bool
  | .ok ⟨.paren other, _⟩ => other = side
  | _ => false

/-- How many of the items are parentheses of this side. -/
def parens (side : Paren) (items : List Item) : Nat :=
  items.countP (Item.isParen side)

/-- No `)` comes too early and none is missing. -/
structure Balanced (items : List Item) : Prop where
  closed : ∀ i, parens .closing (items.take i) ≤ parens .opening (items.take i)
  settled : parens .closing items = parens .opening items

/-- The item is an error or a `)` that closes nothing. -/
def Item.Unfit (done : List Item) : Item → Prop
  | .error _ => True
  | .ok lexeme => lexeme.token = .paren .closing ∧ parens .opening done ≤ parens .closing done

/-- Behind the `(` at place `i` come balanced items and a `)`. -/
def Matched (items : List Item) (i : Nat) : Prop :=
  ∃ inside item after,
    items.drop (i + 1) = inside ++ item :: after ∧ Balanced inside ∧ item.isParen .closing

/-- The `(` at place `i` has no partner, and every later one has. -/
structure LastUnmatched (items : List Item) (i : Nat) (lexeme : Lexeme) : Prop where
  here : items[i]? = some (.ok lexeme)
  opening : lexeme.token = .paren .opening
  unmatched : ¬Matched items i
  later : ∀ j item, i < j → items[j]? = some item → item.isParen .opening → Matched items j

section
variable {side : Paren} {item : Item} {l m : List Item}

/-- There are no parentheses in an empty list. -/
@[simp] lemma parens_nil : parens side [] = 0 := rfl

/-- The parentheses of two lists add up. -/
@[simp] lemma parens_append : parens side (l ++ m) = parens side l + parens side m :=
  List.countP_append

/-- An item counts if it is a parenthesis of the side. -/
lemma parens_cons : parens side (item :: l) = parens side l + if item.isParen side then 1 else 0 :=
  List.countP_cons

/-- There are no more parentheses than items. -/
lemma parens_le_length : parens side l ≤ l.length :=
  List.countP_le_length

/-- No item is a parenthesis of both sides. -/
lemma Item.isParen_eq_false {other : Paren} (h : item.isParen side) (ne : side ≠ other) :
    item.isParen other = false := by
  match item with
  | .ok ⟨.paren _, _⟩ =>
    obtain rfl := of_decide_eq_true h
    exact decide_eq_false ne

end

/-- No items are balanced. -/
lemma Balanced.nil : Balanced [] :=
  ⟨fun i => by simp [parens], rfl⟩

/-- Balanced items behind balanced ones are balanced. -/
lemma Balanced.append {l m} (hl : Balanced l) (hm : Balanced m) : Balanced (l ++ m) := by
  refine ⟨fun i => ?_, ?_⟩
  · have := hl.closed i
    have := hm.closed (i - l.length)
    rw [List.take_append, parens_append, parens_append]
    omega
  · rw [parens_append, parens_append, hl.settled, hm.settled]

/-- What is no parenthesis is balanced. -/
lemma Balanced.single {item : Item} (ho : item.isParen .opening = false)
    (hc : item.isParen .closing = false) : Balanced [item] := by
  refine ⟨fun i => ?_, ?_⟩
  · cases i with
    | zero => exact Nat.le_refl _
    | succ i => simp [parens, hc]
  · simp [parens, ho, hc]

/-- A group of balanced items is balanced. -/
lemma Balanced.enclose {first inside last} (h : Balanced inside) (ho : first.isParen .opening)
    (hc : last.isParen .closing) : Balanced (first :: inside ++ [last]) := by
  have hfirst : first.isParen .closing = false := Item.isParen_eq_false ho nofun
  have hlast : last.isParen .opening = false := Item.isParen_eq_false hc nofun
  refine ⟨fun i => ?_, ?_⟩
  · cases i with
    | zero => exact Nat.le_refl _
    | succ i =>
      -- the `(` in front makes up for the `)` at the end
      have inner := h.closed i
      have le : parens .closing ([last].take (i - inside.length)) ≤ 1 :=
        Nat.le_trans parens_le_length (List.length_take_le' _ _)
      rw [List.cons_append, List.take_succ_cons, List.take_append, parens_cons, parens_cons,
        parens_append, parens_append, hfirst, if_pos ho]
      simp only [Bool.false_eq_true, if_false]
      omega
  · rw [List.cons_append, parens_cons, parens_cons, parens_append, parens_append, h.settled,
      parens_cons, parens_cons, hfirst, hlast, if_pos ho, if_pos hc]
    simp [parens]

/-- The item is a `)` with no more `(` than `)` before it. -/
def Item.Early (done : List Item) (item : Item) : Prop :=
  item.isParen .closing ∧ parens .opening done ≤ parens .closing done

/-- Without an early `)` nowhere more is closed than was opened. -/
lemma parens_le_of_clear {l} (clear : Clear Item.Early l) (k : Nat) :
    parens .closing (l.take k) ≤ parens .opening (l.take k) := by
  induction k with
  | zero => exact Nat.le_refl _
  | succ k ih =>
    rw [List.take_add_one]
    cases e : l[k]? with
    | none => rwa [Option.toList_none, List.append_nil]
    | some item =>
      rw [Option.toList_some, parens_append, parens_append, parens_cons, parens_cons,
        parens_nil, parens_nil]
      by_cases hc : item.isParen .closing
      · have later : ¬parens .opening (l.take k) ≤ parens .closing (l.take k) :=
          fun le => clear k ⟨item, e, hc, le⟩
        rw [if_pos hc]
        omega
      · rw [if_neg hc]
        omega

/-- Where more is closed than was opened, there is a first `)` too many. -/
lemma exists_return {l k} (h : parens .opening (l.take k) < parens .closing (l.take k)) :
    ∃ inside item after, l = inside ++ item :: after ∧ Balanced inside ∧ item.isParen .closing := by
  rcases clear_or_firstFault Item.Early l with clear | ⟨i, item, fault, e⟩
  · exact absurd h (Nat.not_lt_of_le (parens_le_of_clear clear k))
  · obtain ⟨inside, after, rfl, rfl, clear, hc, le⟩ := fault.split e
    have closed := parens_le_of_clear clear
    have ge := closed inside.length
    rw [List.take_length] at ge
    exact ⟨inside, item, after, rfl, ⟨closed, Nat.le_antisymm ge le⟩, hc⟩

/-- In a balanced list every `(` has a partner. -/
lemma Balanced.matched {l i item} (h : Balanced l) (e : l[i]? = some item)
    (ho : item.isParen .opening) : Matched l i := by
  obtain ⟨hi, ex⟩ := List.getElem?_eq_some_iff.1 e
  have split : l = l.take i ++ item :: l.drop (i + 1) := by
    rw [← ex, ← List.drop_eq_getElem_cons hi, List.take_append_drop]
  have other : item.isParen .closing = false := Item.isParen_eq_false ho nofun
  have settled := h.settled
  rw [split, parens_append, parens_append, parens_cons, parens_cons, if_pos ho, other] at settled
  have before := h.closed i
  have after : parens .opening (l.drop (i + 1)) < parens .closing (l.drop (i + 1)) := by
    simp only [Bool.false_eq_true, if_false] at settled
    omega
  rw [← List.take_length (l := l.drop (i + 1))] at after
  exact exists_return after

/-- The items leave groups open at these places, the innermost first. -/
inductive Unclosed : List Item → List Span → Prop where
  | balanced {items} :
    Balanced items →
    Unclosed items []
  | group {before span inside spans} :
    Unclosed before spans →
    Balanced inside →
    Unclosed (before ++ .ok ⟨.paren .opening, span⟩ :: inside) (span :: spans)

/-- Balanced items change nothing about the open groups. -/
lemma Unclosed.append {l m spans} (h : Unclosed l spans) (hm : Balanced m) :
    Unclosed (l ++ m) spans := by
  cases h with
  | balanced hl => exact .balanced (hl.append hm)
  | group hb hi =>
    rw [List.append_assoc, List.cons_append]
    exact .group hb (hi.append hm)

/-- A `)` closes the innermost group. -/
lemma Unclosed.close {l span spans place} (h : Unclosed l (span :: spans)) :
    Unclosed (l ++ [.ok ⟨.paren .closing, place⟩]) spans := by
  cases h with
  | group hb hi =>
    rw [List.append_assoc]
    exact hb.append (hi.enclose rfl rfl)

/-- As many groups are open as more `(` than `)` were read. -/
lemma Unclosed.parens_eq {l spans} (h : Unclosed l spans) :
    parens .opening l = parens .closing l + spans.length := by
  induction h with
  | balanced hl => rw [hl.settled]; rfl
  | group hb hi ih =>
    rw [parens_append, parens_append, parens_cons, parens_cons, ih, hi.settled]
    simp [Item.isParen]
    omega

/-- A run over clear items leaves open the groups that they do. -/
lemma exists_run_of_clear {items} (clear : Clear Item.Unfit items) :
    ∃ a : Arrangement, Arrangement.run {} items = .ok a ∧
      Unclosed items (a.groups.map Group.start) := by
  induction items using List.reverseRecOn with
  | nil => exact ⟨{}, rfl, .balanced .nil⟩
  | append_singleton done item ih =>
    obtain ⟨a, run, unclosed⟩ := ih clear.of_append
    have fits : ¬Item.Unfit done item := clear.fits
    match item with
    | .error e => exact absurd trivial fits
    | .ok ⟨.number value, span⟩ =>
      exact ⟨_, Arrangement.run_concat run, unclosed.append (.single rfl rfl)⟩
    | .ok ⟨.operator op, span⟩ =>
      exact ⟨_, Arrangement.run_concat run, unclosed.append (.single rfl rfl)⟩
    | .ok ⟨.paren .opening, span⟩ =>
      exact ⟨_, Arrangement.run_concat run, .group unclosed .nil⟩
    | .ok ⟨.paren .closing, span⟩ =>
      cases eg : a.groups with
      | nil =>
        -- without an open group as many are closed as were opened
        rw [eg] at unclosed
        exact absurd ⟨rfl, Nat.le_of_eq unclosed.parens_eq⟩ fits
      | cons group groups =>
        rw [eg] at unclosed
        exact ⟨_, (Arrangement.run_concat run).trans (Arrangement.step_closing eg), unclosed.close⟩

/-- Partners are looked for to the right. -/
@[simp] lemma matched_cons {item l i} : Matched (item :: l) (i + 1) ↔ Matched l i := Iff.rfl

/-- What comes before has no part in having a partner. -/
@[simp] lemma matched_append {l m i} : Matched (l ++ m) (l.length + i) ↔ Matched m i := by
  rw [Matched, Matched, Nat.add_assoc, List.drop_length_add_append]

/-- A `)` is one too many behind balanced items. -/
lemma Balanced.not_closing {inside item after} (h : Balanced (inside ++ item :: after))
    (hi : Balanced inside) : item.isParen .closing = false := by
  by_contra hc
  rw [Bool.not_eq_false] at hc
  have ho : item.isParen .opening = false := Item.isParen_eq_false hc nofun
  have closed := h.closed (inside.length + 1)
  rw [List.take_length_add_append, List.take_succ_cons, List.take_zero, parens_append,
    parens_append, parens_cons, parens_cons, hi.settled, ho, if_pos hc] at closed
  simp only [Bool.false_eq_true, if_false, parens_nil] at closed
  omega

/-- Before balanced items a `(` is the last one without a partner. -/
lemma lastUnmatched_of_balanced {before inside : List Item} {lexeme : Lexeme}
    (ho : lexeme.token = .paren .opening) (h : Balanced inside) :
    LastUnmatched (before ++ .ok lexeme :: inside) before.length lexeme := by
  refine ⟨by simp, ho, ?_, ?_⟩
  · intro ⟨inside', item, after, e, hi, hc⟩
    rw [List.drop_length_add_append, List.drop_succ_cons, List.drop_zero] at e
    subst e
    rw [h.not_closing hi] at hc
    cases hc
  · intro j item lt e hj
    obtain ⟨k, rfl⟩ := Nat.exists_eq_add_of_lt lt
    rw [Nat.add_assoc] at e ⊢
    rw [List.getElem?_append_right (by omega), Nat.add_sub_cancel_left,
      List.getElem?_cons_succ] at e
    rw [matched_append, matched_cons]
    exact h.matched e hj

/-- An error that cannot be taken in first is reported. -/
lemma ofItems_of_error {items i e} (fault : FirstFault Item.Unfit items i)
    (h : items[i]? = some (.error e)) : Arrangement.ofItems items = .error (.lexical e) := by
  obtain ⟨done, rest, rfl, rfl, clear, _⟩ := fault.split h
  obtain ⟨a, run, _⟩ := exists_run_of_clear clear
  rw [Arrangement.ofItems_eq, Arrangement.run_append_of_error run rfl]
  rfl

/-- A `)` that cannot be taken in first is reported. -/
lemma ofItems_of_closing {items i lexeme} (fault : FirstFault Item.Unfit items i)
    (h : items[i]? = some (.ok lexeme)) :
    Arrangement.ofItems items = .error (.unmatchedClosing lexeme.span) := by
  obtain ⟨done, rest, rfl, rfl, clear, hc, le⟩ := fault.split h
  obtain ⟨a, run, unclosed⟩ := exists_run_of_clear clear
  obtain ⟨token, span⟩ := lexeme
  subst hc
  have none : a.groups = [] := by
    have len := unclosed.parens_eq
    rw [List.length_map] at len
    exact List.eq_nil_of_length_eq_zero (by omega)
  rw [Arrangement.ofItems_eq,
    Arrangement.run_append_of_error run (Arrangement.step_closing_of_nil none)]
  rfl

/-- Clear items are arranged, or the last `(` without a partner is reported. -/
lemma ofItems_of_clear {items} (clear : Clear Item.Unfit items) :
    (Balanced items ∧ ∃ tokens, Arrangement.ofItems items = .ok tokens) ∨
      (parens .closing items < parens .opening items ∧ ∃ i lexeme, LastUnmatched items i lexeme ∧
        Arrangement.ofItems items = .error (.unclosedGroup lexeme.span)) := by
  obtain ⟨a, run, unclosed⟩ := exists_run_of_clear clear
  have count := unclosed.parens_eq
  have ofItems : Arrangement.ofItems items = a.finish := by
    rw [Arrangement.ofItems_eq, run]
    rfl
  generalize es : a.groups.map Group.start = spans at unclosed count
  cases unclosed with
  | balanced hb =>
    rw [List.map_eq_nil_iff] at es
    exact .inl ⟨hb, _, by rw [ofItems, Arrangement.finish, es]⟩
  | @group before span inside spans _ hi =>
    obtain ⟨group, groups, eg, rfl, _⟩ := List.map_eq_cons_iff.1 es
    rw [List.length_cons] at count
    -- the innermost open group is the last one that was opened
    refine .inr ⟨by omega, before.length, _, lastUnmatched_of_balanced rfl hi, ?_⟩
    rw [ofItems, Arrangement.finish, eg]

/-- Tokens with balanced parentheses can all be taken in. -/
lemma Balanced.clear {items} (hb : Balanced items)
    (tokens : ∀ item ∈ items, ∃ lexeme, item = .ok lexeme) :
    Clear Item.Unfit items := by
  intro i ⟨item, e, unfit⟩
  obtain ⟨lexeme, rfl⟩ := tokens item (List.mem_of_getElem? e)
  obtain ⟨hc, le⟩ := unfit
  obtain ⟨token, span⟩ := lexeme
  subst hc
  have closed := hb.closed (i + 1)
  rw [List.take_add_one, e, Option.toList_some, parens_append, parens_append, parens_cons,
    parens_cons] at closed
  simp [Item.isParen] at closed
  omega

/-- What `parse` makes of an expression: the first item that cannot be taken in is reported, else
the last `(` without a partner, and else it is arranged. -/
theorem parse_outcome (l : List Char) :
    (∀ i e, FirstFault Item.Unfit (Item.ofChars l) i → (Item.ofChars l)[i]? = some (.error e) →
      parse l = .error (.lexical e)) ∧
    (∀ i lexeme, FirstFault Item.Unfit (Item.ofChars l) i →
      (Item.ofChars l)[i]? = some (.ok lexeme) →
      parse l = .error (.unmatchedClosing lexeme.span)) ∧
    (Clear Item.Unfit (Item.ofChars l) →
      parens .closing (Item.ofChars l) < parens .opening (Item.ofChars l) →
      ∃ i lexeme, LastUnmatched (Item.ofChars l) i lexeme ∧
        parse l = .error (.unclosedGroup lexeme.span)) ∧
    (Clear Item.Unfit (Item.ofChars l) →
      parens .opening (Item.ofChars l) ≤ parens .closing (Item.ofChars l) →
      ∃ tokens, parse l = .ok tokens) ∧
    ((∃ tokens, parse l = .ok tokens) ↔
      (∀ item ∈ Item.ofChars l, ∃ lexeme, item = .ok lexeme) ∧ Balanced (Item.ofChars l)) := by
  have parse_eq : parse l = Arrangement.ofItems (Item.ofChars l) := rfl
  generalize Item.ofChars l = items at parse_eq
  rw [parse_eq]
  refine ⟨fun i e => ofItems_of_error, fun i lexeme => ofItems_of_closing, fun clear lt => ?_,
    fun clear le => ?_, ?_, ?_⟩
  · rcases ofItems_of_clear clear with ⟨hb, _⟩ | ⟨_, reported⟩
    · exact absurd hb.settled (Nat.ne_of_lt lt)
    · exact reported
  · rcases ofItems_of_clear clear with ⟨_, arranged⟩ | ⟨lt, _⟩
    · exact arranged
    · omega
  · intro ⟨tokens, ok⟩
    -- a fault or an open group would have been reported
    rcases clear_or_firstFault Item.Unfit items with clear | ⟨i, item, fault, e⟩
    · rcases ofItems_of_clear clear with ⟨hb, _⟩ | ⟨_, i, lexeme, _, reported⟩
      · refine ⟨fun item mem => ?_, hb⟩
        obtain ⟨i, e⟩ := List.mem_iff_getElem?.1 mem
        match item with
        | .error e' => exact absurd ⟨_, e, trivial⟩ (clear i)
        | .ok lexeme => exact ⟨lexeme, rfl⟩
      · rw [ok] at reported
        cases reported
    · match item with
      | .error e' => rw [ofItems_of_error fault e] at ok; cases ok
      | .ok lexeme => rw [ofItems_of_closing fault e] at ok; cases ok
  · intro ⟨tokens, hb⟩
    rcases ofItems_of_clear (hb.clear tokens) with ⟨_, arranged⟩ | ⟨lt, _⟩
    · exact arranged
    · exact absurd hb.settled (Nat.ne_of_lt lt)

end Calculator
