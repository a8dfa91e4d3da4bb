import Calculator.Proofs.Arrangement.Nesting
import Mathlib.Data.List.Chain
import Mathlib.Data.Set.List

/-!
# Shunting on one stack

What waits for its place can be kept on a single stack: the operators, and between them the `(` of
the open groups. An operator is then pushed when those on top of the stack that bind at least as
tightly have been written, and a `)` writes what is above the last `(`. This is the same
arrangement, step for step (`Shunting.map_step`), as a stack holds nothing else and its operators
lie on one another in ascending order of precedence, from each `(` up to the next one
(`Shunting.Stands`). So a part of it without a `(` holds two operators at most, and the whole stack
no more than three lexemes for each open group and two in addition (`shunting_stack`).
-/

namespace Calculator

/-- Whether the lexeme is a `(`. -/
def Lexeme.isOpening (lexeme : Lexeme) : Bool :=
  lexeme.token = .paren .opening

/-- Whether the token binds less tightly; what is no operator always does. -/
def Token.isLooser (token other : Token) : Bool :=
  match token.precedence?, other.precedence? with
  | some p, some q => p < q
  | none, some _ => true
  | _, none => false

/-- The token is one that can wait, a `(` or an operator. -/
def Token.Waits (token : Token) : Prop :=
  token = .paren .opening ∨ ∃ op, token = .operator op

/-- An arrangement with one stack for all that waits. -/
structure Shunting where
  /-- The tokens that have found their place. -/
  written : Array Token := #[]
  /-- The operators that wait and the `(` of the open groups, the last one first. -/
  stack : List Lexeme := []

namespace Shunting

/-- Writes the stack down to the first lexeme that satisfies `stop`. -/
def unwind (stop : Lexeme → Bool) (s : Shunting) : Shunting where
  written := s.written ++ (s.stack.takeWhile fun top => !stop top).map Lexeme.token
  stack := s.stack.dropWhile fun top => !stop top

/-- Whether `top` stays on the stack when `token` comes to lie on it. -/
def stays (token : Token) (top : Lexeme) : Bool :=
  top.isOpening || top.token.isLooser token

/-- Lets an operator wait, behind those that bind less tightly. -/
def addOperator (lexeme : Lexeme) (s : Shunting) : Shunting where
  written := (s.unwind (stays lexeme.token)).written
  stack := lexeme :: (s.unwind (stays lexeme.token)).stack

/-- Writes what lies on the last `(` and takes that away. -/
def closeGroup (span : Span) (s : Shunting) : Except SyntaxError Shunting :=
  match (s.unwind Lexeme.isOpening).stack with
  | [] => .error (.unmatchedClosing span)
  | _ :: below => .ok { written := (s.unwind Lexeme.isOpening).written, stack := below }

/-- Takes in what was read next. -/
def step (s : Shunting) : Item → Except SyntaxError Shunting
  | .error e => .error (.lexical e)
  | .ok lexeme =>
    match lexeme.token with
    | .number _ => .ok { s with written := s.written.push lexeme.token }
    | .operator _ => .ok (s.addOperator lexeme)
    | .paren .opening => .ok { s with stack := lexeme :: s.stack }
    | .paren .closing => s.closeGroup lexeme.span

/-- The whole sequence, if no `(` is on the stack. -/
def finish (s : Shunting) : Except SyntaxError (List Token) :=
  match (s.unwind Lexeme.isOpening).stack with
  | [] => .ok (s.unwind Lexeme.isOpening).written.toList
  | pending :: _ => .error (.unclosedGroup pending.span)

/-- Takes in items, one after the other. -/
def run (s : Shunting) (items : List Item) : Except SyntaxError Shunting :=
  items.foldlM step s

/-- Arranges everything that was read. -/
def ofItems (items : List Item) : Except SyntaxError (List Token) :=
  run {} items >>= finish

/-- The operators that wait in the innermost group, and the open groups. -/
def layers : List Lexeme → List Operator × List Group
  | [] => ([], [])
  | ⟨.operator op, _⟩ :: stack => (op :: (layers stack).1, (layers stack).2)
  | ⟨.paren .opening, span⟩ :: stack => ([], ⟨span, (layers stack).1⟩ :: (layers stack).2)
  | _ :: stack => layers stack

/-- The arrangement with the groups of the stack. -/
def arrangement (s : Shunting) : Arrangement where
  written := s.written
  waiting := (layers s.stack).1
  groups := (layers s.stack).2

/-- A `(` rests on anything, an operator on what binds less tightly. -/
def Rests (top below : Token) : Prop :=
  top = .paren .opening ∨ below.isLooser top = true

/-- What each step keeps of the stack behind the items `done`. -/
structure Stands (done : List Item) (stack : List Lexeme) : Prop where
  holds : ∀ lexeme ∈ stack, lexeme.token.Waits
  rests : (stack.map Lexeme.token).IsChain Rests
  /-- The `(` of the stack are those of the groups that the items leave open. -/
  unclosed : Unclosed done ((stack.filter Lexeme.isOpening).map Lexeme.span)

section
variable {stack : List Lexeme}

/-- An operator stays below those that bind more tightly. -/
lemma stays_operator {op top : Operator} {span} :
    stays (.operator op) ⟨.operator top, span⟩ = decide (top.precedence < op.precedence) := rfl

/-- An operator unwinds the innermost group only. -/
lemma layers_unwind_operator (h : ∀ lexeme ∈ stack, lexeme.token.Waits) (op : Operator) :
    (stack.takeWhile fun top => !stays (.operator op) top).map Lexeme.token =
        ((layers stack).1.takeWhile fun top => op.precedence ≤ top.precedence).map Token.operator ∧
      layers (stack.dropWhile fun top => !stays (.operator op) top) =
        ((layers stack).1.dropWhile fun top => op.precedence ≤ top.precedence,
          (layers stack).2) := by
  induction stack with
  | nil => exact ⟨rfl, rfl⟩
  | cons lexeme stack ih =>
    obtain ⟨here, rest⟩ := List.forall_mem_cons.1 h
    obtain ⟨token, span⟩ := lexeme
    rcases here with rfl | ⟨top, rfl⟩
    · exact ⟨rfl, rfl⟩
    · obtain ⟨written, below⟩ := ih rest
      rw [List.takeWhile_cons, List.dropWhile_cons, stays_operator]
      by_cases le : op.precedence ≤ top.precedence
      · simp [layers, le, written, below]
      · simp [layers, le]

/-- A `)` unwinds all of the innermost group. -/
lemma layers_unwind_opening (h : ∀ lexeme ∈ stack, lexeme.token.Waits) :
    (stack.takeWhile fun top => !top.isOpening).map Lexeme.token =
      (layers stack).1.map Token.operator ∧
      (layers stack).2 = match stack.dropWhile fun top => !top.isOpening with
        | [] => []
        | pending :: below => ⟨pending.span, (layers below).1⟩ :: (layers below).2 := by
  induction stack with
  | nil => exact ⟨rfl, rfl⟩
  | cons lexeme stack ih =>
    obtain ⟨here, rest⟩ := List.forall_mem_cons.1 h
    obtain ⟨token, span⟩ := lexeme
    rcases here with rfl | ⟨top, rfl⟩
    · exact ⟨rfl, rfl⟩
    · obtain ⟨written, groups⟩ := ih rest
      have other : (⟨.operator top, span⟩ : Lexeme).isOpening = false := rfl
      rw [List.takeWhile_cons, List.dropWhile_cons, other]
      simp [layers, written, groups]

/-- The steps are those of the arrangement. -/
lemma map_step {s : Shunting} (h : ∀ lexeme ∈ s.stack, lexeme.token.Waits) (item : Item) :
    (s.step item).map arrangement = s.arrangement.step item := by
  match item with
  | .error e => rfl
  | .ok ⟨.number value, span⟩ => rfl
  | .ok ⟨.paren .opening, span⟩ => rfl
  | .ok ⟨.operator op, span⟩ =>
    obtain ⟨written, rest⟩ := layers_unwind_operator h op
    simp only [step, addOperator, unwind, Except.map, arrangement, layers, Arrangement.step,
      Arrangement.addOperator, Arrangement.write, written, rest]
  | .ok ⟨.paren .closing, span⟩ =>
    obtain ⟨written, groups⟩ := layers_unwind_opening h
    simp only [step, closeGroup, unwind, Arrangement.step, Arrangement.closeGroup, arrangement]
    rw [groups]
    cases s.stack.dropWhile fun top => !top.isOpening with
    | nil => rfl
    | cons pending below =>
      simp only [Except.map, arrangement, Arrangement.write, written]

/-- Both are finished alike. -/
lemma finish_eq {s : Shunting} (h : ∀ lexeme ∈ s.stack, lexeme.token.Waits) :
    s.finish = s.arrangement.finish := by
  obtain ⟨written, groups⟩ := layers_unwind_opening h
  simp only [finish, unwind, Arrangement.finish, arrangement]
  rw [groups]
  cases s.stack.dropWhile fun top => !top.isOpening with
  | nil => simp only [Arrangement.write, written]
  | cons pending below => rfl

/-- No `(` is taken away where each is a place to stop. -/
lemma filter_unwind (s : Shunting) (stop : Lexeme → Bool)
    (h : ∀ top, top.isOpening = true → stop top = true) :
    (s.unwind stop).stack.filter Lexeme.isOpening = s.stack.filter Lexeme.isOpening := by
  have taken : (s.stack.takeWhile fun top => !stop top).filter Lexeme.isOpening = [] := by
    refine List.filter_eq_nil_iff.2 fun top mem opening => ?_
    have other := List.all_eq_true.1 List.all_takeWhile top mem
    rw [h top opening] at other
    cases other
  conv_rhs => rw [← List.takeWhile_append_dropWhile (l := s.stack) (p := fun top => !stop top)]
  rw [List.filter_append, taken, List.nil_append]
  rfl

/-- The first lexeme that is left satisfies the condition. -/
lemma stop_of_unwind (s : Shunting) (stop : Lexeme → Bool) :
    ∀ top ∈ (s.unwind stop).stack.head?, stop top = true := by
  intro top mem
  have head : (s.stack.dropWhile fun top => !stop top).head? = some top := mem
  have first := List.head?_dropWhile_not (fun top => !stop top) s.stack
  rw [head] at first
  simpa using first

/-- What is left of a stack in order is in order. -/
lemma Stands.unwind {done} {s : Shunting} (h : Stands done s.stack) (stop : Lexeme → Bool) :
    (∀ lexeme ∈ (s.unwind stop).stack, lexeme.token.Waits) ∧
      ((s.unwind stop).stack.map Lexeme.token).IsChain Rests := by
  have suffix : (s.unwind stop).stack <:+ s.stack := List.dropWhile_suffix _
  exact ⟨fun top mem => h.holds top (suffix.mem mem), h.rests.suffix (suffix.map _)⟩

/-- An operator lies on what stays for it. -/
lemma rests_of_stays {op : Operator} {top : Lexeme} (h : stays (.operator op) top = true) :
    Rests (.operator op) top.token := by
  rcases Bool.or_eq_true_iff.1 h with opening | looser
  · rw [of_decide_eq_true opening]
    exact .inr rfl
  · exact .inr looser

/-- Every step keeps the stack in order. -/
lemma Stands.step {done} {s t : Shunting} {item} (h : Stands done s.stack)
    (step : s.step item = .ok t) :
    Stands (done ++ [item]) t.stack := by
  match item with
  | .error e => cases step
  | .ok ⟨.number value, span⟩ =>
    cases step
    exact ⟨h.holds, h.rests, h.unclosed.append (.single rfl rfl)⟩
  | .ok ⟨.operator op, span⟩ =>
    cases step
    obtain ⟨holds, rests⟩ := h.unwind (stays (.operator op))
    have parens := s.filter_unwind (stays (.operator op)) fun top opening => by
      simp [stays, opening]
    refine ⟨List.forall_mem_cons.2 ⟨.inr ⟨op, rfl⟩, holds⟩, ?_, ?_⟩
    · -- what stays on top is a `(` or binds less tightly than the operator
      refine List.isChain_cons.2 ⟨fun below mem => ?_, rests⟩
      rw [List.head?_map] at mem
      obtain ⟨top, head, rfl⟩ := Option.map_eq_some_iff.1 mem
      exact rests_of_stays (s.stop_of_unwind _ top head)
    · have other : Lexeme.isOpening ⟨.operator op, span⟩ = false := rfl
      show Unclosed _
        (((_ :: (s.unwind (stays (.operator op))).stack).filter Lexeme.isOpening).map Lexeme.span)
      rw [List.filter_cons, other, parens]
      exact h.unclosed.append (.single rfl rfl)
  | .ok ⟨.paren .opening, span⟩ =>
    cases step
    refine ⟨List.forall_mem_cons.2 ⟨.inl rfl, h.holds⟩, ?_, .group h.unclosed .nil⟩
    exact List.isChain_cons.2 ⟨fun _ _ => .inl rfl, h.rests⟩
  | .ok ⟨.paren .closing, span⟩ =>
    obtain ⟨holds, rests⟩ := h.unwind Lexeme.isOpening
    have parens := s.filter_unwind Lexeme.isOpening fun _ => id
    have first := s.stop_of_unwind Lexeme.isOpening
    simp only [Shunting.step, closeGroup] at step
    cases e : (s.unwind Lexeme.isOpening).stack with
    | nil =>
      rw [e] at step
      cases step
    | cons pending below =>
      rw [e] at step holds rests parens first
      cases step
      -- the unwinding stops at the `(` of the innermost open group
      refine ⟨(List.forall_mem_cons.1 holds).2, (List.isChain_cons.1 rests).2, ?_⟩
      have unclosed := h.unclosed
      rw [← parens, List.filter_cons_of_pos (first pending rfl)] at unclosed
      exact unclosed.close

/-- By induction, a run keeps the stack in order, as the arrangement does. -/
lemma Stands.run {done items} {s : Shunting} (h : Stands done s.stack) :
    (∀ t, s.run items = .ok t → Stands (done ++ items) t.stack) ∧
      (s.run items).map arrangement = s.arrangement.run items := by
  induction items generalizing s done with
  | nil =>
    refine ⟨fun t run => ?_, rfl⟩
    cases run
    rwa [List.append_nil]
  | cons item items ih =>
    rw [Shunting.run, Arrangement.run, List.foldlM_cons, List.foldlM_cons, ← map_step h.holds item]
    cases e : s.step item with
    | error e' =>
      refine ⟨fun t run => ?_, rfl⟩
      cases run
    | ok t =>
      rw [List.append_cons]
      exact ih (h.step e)

/-- A run begins with nothing on the stack. -/
lemma stands_of_run (done : List Item) :
    (∀ s, run {} done = .ok s → Stands done s.stack) ∧
      (run {} done).map arrangement = Arrangement.run {} done := by
  have start : Stands [] ({} : Shunting).stack := ⟨List.forall_mem_nil _, .nil, .balanced .nil⟩
  exact start.run

/-- The same is arranged on one stack. -/
lemma ofItems_eq (items : List Item) : ofItems items = Arrangement.ofItems items := by
  obtain ⟨stands, same⟩ := stands_of_run items
  rw [ofItems, Arrangement.ofItems_eq, ← same]
  cases e : run {} items with
  | error e' => rfl
  | ok s => exact finish_eq (stands s e).holds

/-- There are two precedences. -/
lemma precedence_bounds (op : Operator) : 1 ≤ op.precedence ∧ op.precedence ≤ 2 := by
  cases op <;> decide

/-- An operator binds more tightly than the one it rests on. -/
lemma Rests.precedence_lt {top below : Operator} (h : Rests (.operator top) (.operator below)) :
    below.precedence < top.precedence := by
  rcases h with opening | looser
  · cases opening
  · exact of_decide_eq_true looser

/-- How many operators there can be on top of a stack, at its first token. -/
def room (tokens : List Token) : Nat :=
  (tokens.head?.bind Token.precedence?).getD 0

variable {tokens : List Token}

/-- An operator takes up some of the room. -/
lemma room_lt {op : Operator} (holds : ∀ t ∈ tokens, t.Waits)
    (rests : (.operator op :: tokens).IsChain Rests) : room tokens < op.precedence := by
  have pos := (precedence_bounds op).1
  match tokens with
  | [] => exact pos
  | below :: tokens =>
    rcases holds below List.mem_cons_self with rfl | ⟨other, rfl⟩
    · exact pos
    · exact (List.isChain_cons_cons.1 rests).1.precedence_lt

/-- Each `(` and the ground have room for two operators. -/
lemma length_le (holds : ∀ t ∈ tokens, t.Waits) (rests : tokens.IsChain Rests) :
    tokens.length ≤ 3 * tokens.count (.paren .opening) + room tokens ∧ room tokens ≤ 2 := by
  induction tokens with
  | nil => exact ⟨Nat.le_refl _, Nat.zero_le _⟩
  | cons top tokens ih =>
    obtain ⟨here, others⟩ := List.forall_mem_cons.1 holds
    obtain ⟨le, two⟩ := ih others rests.of_cons
    rcases here with rfl | ⟨op, rfl⟩
    · rw [List.length_cons, List.count_cons_self]
      exact ⟨by omega, Nat.zero_le _⟩
    · have lt := room_lt others rests
      have bound := (precedence_bounds op).2
      have same : room (.operator op :: tokens) = op.precedence := rfl
      rw [List.length_cons, List.count_cons_of_ne (by nofun), same]
      exact ⟨by omega, bound⟩

/-- Without a `(` there are two operators at most, in ascending order. -/
lemma exists_operators (holds : ∀ t ∈ tokens, ∃ op, t = .operator op)
    (rests : tokens.IsChain Rests) :
    ∃ ops : List Operator, tokens = ops.map Token.operator ∧
      (ops.Pairwise fun top below => below.precedence < top.precedence) ∧ ops.length ≤ 2 := by
  have none : tokens.count (.paren .opening) = 0 := by
    refine List.count_eq_zero.2 fun mem => ?_
    obtain ⟨op, e⟩ := holds _ mem
    cases e
  obtain ⟨le, two⟩ := length_le (fun t mem => .inr (holds t mem)) rests
  have range : tokens ∈ {l : List Token | ∀ t ∈ l, t ∈ Set.range Token.operator} := by
    intro t mem
    obtain ⟨op, rfl⟩ := holds t mem
    exact ⟨op, rfl⟩
  rw [← Set.range_list_map] at range
  obtain ⟨ops, rfl⟩ := range
  rw [none, List.length_map] at le
  rw [List.isChain_map] at rests
  have ascending : ops.IsChain fun top below => below.precedence < top.precedence :=
    rests.imp fun _ _ => Rests.precedence_lt
  have trans : IsTrans Operator fun top below => below.precedence < top.precedence :=
    ⟨fun _ _ _ first second => Nat.lt_trans second first⟩
  exact ⟨ops, rfl, ascending.pairwise, by omega⟩

end

/-- The stack is in order behind the items `done`. -/
structure Ordered (done : List Item) (stack : List Lexeme) : Prop where
  /-- There are only `(` and operators on it. -/
  holds : ∀ lexeme ∈ stack, lexeme.token = .paren .opening ∨ ∃ op, lexeme.token = .operator op
  /-- Each part of it without a `(` is at most two operators, each of which binds more tightly than
  those below it. -/
  segment : ∀ part, part <:+: stack → (∀ lexeme ∈ part, lexeme.token ≠ .paren .opening) →
    ∃ ops : List Operator, part.map Lexeme.token = ops.map Token.operator ∧
      (ops.Pairwise fun top below => below.precedence < top.precedence) ∧ ops.length ≤ 2
  /-- The `(` on it are those of the groups that the items leave open. -/
  unclosed : Unclosed done ((stack.filter Lexeme.isOpening).map Lexeme.span)
  /-- There are three lexemes on it for each open group and two in addition, or less. As many groups
  are open as more `(` than `)` were taken in. -/
  height : stack.length ≤ 3 * (parens .opening done - parens .closing done) + 2

/-- The open groups bound the height of a stack. -/
lemma Stands.height {done stack} (h : Stands done stack) :
    stack.length ≤ 3 * (parens .opening done - parens .closing done) + 2 := by
  have opened := h.unclosed.parens_eq
  have count : (stack.map Lexeme.token).count (.paren .opening) =
      (stack.filter Lexeme.isOpening).length := by
    rw [List.count, List.countP_map, List.countP_eq_length_filter]
    rfl
  obtain ⟨le, two⟩ := length_le (List.forall_mem_map.2 h.holds) h.rests
  rw [List.length_map, ← count] at opened
  rw [List.length_map] at le
  omega

/-- What each step keeps puts the stack in order. -/
lemma Stands.ordered {done stack} (h : Stands done stack) : Ordered done stack := by
  refine ⟨h.holds, fun part inner free => ?_, h.unclosed, h.height⟩
  have rests := h.rests.infix (inner.map Lexeme.token)
  refine exists_operators (List.forall_mem_map.2 fun lexeme mem => ?_) rests
  exact (h.holds lexeme (inner.mem mem)).resolve_left (free lexeme mem)

end Shunting

/-- `parse` is shunting on one stack. At every moment the stack holds only `(` and operators, these
in ascending order between two `(`, and is no higher than the open groups allow. -/
theorem shunting_stack (l : List Char) :
    Shunting.ofItems (Item.ofChars l) = parse l ∧
      ∀ done, done <+: Item.ofChars l →
        (Shunting.run {} done).map Shunting.arrangement = Arrangement.run {} done ∧
          ∀ s, Shunting.run {} done = .ok s → Shunting.Ordered done s.stack := by
  refine ⟨Shunting.ofItems_eq _, fun done _ => ?_⟩
  obtain ⟨stands, same⟩ := Shunting.stands_of_run done
  exact ⟨same, fun s run => (stands s run).ordered⟩

end Calculator
