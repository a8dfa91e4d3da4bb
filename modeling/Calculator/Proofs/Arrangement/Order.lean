import Calculator.Proofs.Arrangement.Conservation
import Calculator.Proofs.Evaluation
import Calculator.Calculation

/-!
# The order of what is written

An arrangement writes a number as soon as it reads it, and operators later, as they have waited. So
each token that is written can be traced to the place where it was read (`Tracked`), and what stands
before a number in the whole sequence was read before it: the numbers keep their order, and no
operator gets before a number that it stood behind (`parse_arranged`).
-/

namespace Calculator

/-- The tokens that are no parentheses, each with its place. -/
def barePlaces (tokens : List Token) : List (Token × Nat) :=
  tokens.zipIdx.filter fun t => t.1.isNumber || t.1.isOperator

/-- The tokens in their places are the bare ones. -/
lemma map_fst_barePlaces (tokens : List Token) :
    (barePlaces tokens).map Prod.fst = bare tokens := by
  conv_rhs => rw [bare, ← List.zipIdx_map_fst 0 tokens, List.filter_map]
  rfl

/-- A token at the end has the place behind all others. -/
lemma barePlaces_concat (tokens : List Token) (token : Token) :
    barePlaces (tokens ++ [token]) =
      barePlaces tokens ++ [(token, tokens.length)].filter fun t =>
        t.1.isNumber || t.1.isOperator := by
  rw [barePlaces, List.zipIdx_append, List.filter_append, Nat.zero_add]
  rfl

/-- A place is a place of the list. -/
lemma lt_length_of_mem_barePlaces {tokens t} (h : t ∈ barePlaces tokens) : t.2 < tokens.length :=
  List.snd_lt_of_mem_zipIdx (List.mem_filter.1 h).1

/-- A number comes from behind what it stands behind. -/
def Follows (t u : Token × Nat) : Prop :=
  u.1.isNumber = true → t.2 < u.2

/-- Anything that is no number can be appended. -/
lemma pairwise_follows_append {l m : List (Token × Nat)} (h : l.Pairwise Follows)
    (hm : ∀ u ∈ m, u.1.isNumber = false) : (l ++ m).Pairwise Follows := by
  have vacuous {t u : Token × Nat} (hu : u.1.isNumber = false) : Follows t u := by
    intro number
    rw [hu] at number
    cases number
  exact List.pairwise_append.2
    ⟨h, List.pairwise_of_forall_mem_list fun t _ u mem => vacuous (hm u mem),
    fun t _ u mem => vacuous (hm u mem)⟩

/-- Numbers from ever later places are all in their order. -/
lemma filter_isNumber_of_follows {tokens} {placed : List (Token × Nat)}
    (perm : placed.Perm (barePlaces tokens)) (follows : placed.Pairwise Follows) :
    (placed.map Prod.fst).filter Token.isNumber = tokens.filter Token.isNumber := by
  have numbers : (barePlaces tokens).filter (Token.isNumber ∘ Prod.fst) =
      tokens.zipIdx.filter (Token.isNumber ∘ Prod.fst) := by
    rw [barePlaces, List.filter_filter]
    refine List.filter_congr fun t _ => ?_
    cases h : t.1.isNumber <;> simp [h]
  have ascending : (tokens.zipIdx.filter (Token.isNumber ∘ Prod.fst)).Pairwise
      fun t u => t.2 < u.2 := by
    have indices : (tokens.zipIdx.map Prod.snd).Pairwise (· < ·) := by
      rw [List.zipIdx_map_snd]
      exact List.pairwise_lt_range'
    exact (List.pairwise_map.1 indices).sublist List.filter_sublist
  have kept : (placed.filter (Token.isNumber ∘ Prod.fst)).Pairwise fun t u => t.2 < u.2 := by
    refine (follows.sublist List.filter_sublist).imp_of_mem fun _ mem h => h ?_
    exact (List.mem_filter.1 mem).2
  have same := (perm.filter (Token.isNumber ∘ Prod.fst)).trans (.of_eq numbers)
  have eq := same.eq_of_pairwise (fun t u _ _ lt gt => absurd gt (Nat.lt_asymm lt)) kept ascending
  rw [List.filter_map, eq, ← List.filter_map, List.zipIdx_map_fst]

namespace Arrangement

/-- What is written was read in these places, and what waits in those. -/
structure Tracked (tokens : List Token) (a : Arrangement) (out stay : List (Token × Nat)) :
    Prop where
  written : out.map Prod.fst = a.written.toList
  waiting : stay.map Prod.fst = a.pending.map Token.operator
  perm : (out ++ stay).Perm (barePlaces tokens)
  follows : out.Pairwise Follows

/-- What waits is no number. -/
lemma isNumber_of_map_operator {l : List (Token × Nat)} {ops : List Operator}
    (e : l.map Prod.fst = ops.map Token.operator) : ∀ u ∈ l, u.1.isNumber = false := by
  intro u mem
  have mem : u.1 ∈ l.map Prod.fst := List.mem_map_of_mem mem
  rw [e] at mem
  obtain ⟨op, -, eu⟩ := List.mem_map.1 mem
  rw [← eu]
  rfl

/-- A step keeps track of what it moves. -/
lemma Tracked.step {tokens} {a b : Arrangement} {out wait lexeme} (h : Tracked tokens a out wait)
    (step : a.step (.ok lexeme) = .ok b) :
    ∃ out' wait', Tracked (tokens ++ [lexeme.token]) b out' wait' := by
  obtain ⟨moved, left, pending, ew, ep⟩ := exists_moved_of_step step
  have split := h.waiting
  rw [pending, List.map_append] at split
  -- what is written now takes its places with it
  obtain ⟨go, stay, rfl, eg, es⟩ := List.map_eq_append_iff.1 split
  have last : [(lexeme.token, tokens.length)].filter (fun t => t.1.isNumber || t.1.isOperator) =
      [(lexeme.token, tokens.length)].filter (Token.isNumber ∘ Prod.fst) ++
        [(lexeme.token, tokens.length)].filter (Token.isOperator ∘ Prod.fst) := by
    cases lexeme.token <;> rfl
  refine ⟨out ++ go ++ [(lexeme.token, tokens.length)].filter (Token.isNumber ∘ Prod.fst),
    [(lexeme.token, tokens.length)].filter (Token.isOperator ∘ Prod.fst) ++ stay, ?_, ?_, ?_, ?_⟩
  · rw [ew, List.map_append, List.map_append, h.written, eg, ← List.filter_map]
    rfl
  · rw [ep, List.map_append, es, ← List.filter_map]
    rfl
  · rw [barePlaces_concat, last]
    exact (perm_append_moved _ _ _ _ _).trans (h.perm.append_right _)
  · refine List.pairwise_append.2
      ⟨pairwise_follows_append h.follows (isNumber_of_map_operator eg), ?_, ?_⟩
    · exact (List.pairwise_singleton _ _).sublist List.filter_sublist
    · intro t mem u last _
      have mem : t ∈ out ++ (go ++ stay) := by
        rw [← List.append_assoc]
        exact List.mem_append_left _ mem
      rw [List.mem_singleton.1 (List.mem_filter.1 last).1]
      exact lt_length_of_mem_barePlaces (h.perm.mem_iff.1 mem)

/-- By induction, a run keeps track of what it moves. -/
lemma Tracked.run {tokens} {a b : Arrangement} {out wait items} (h : Tracked tokens a out wait)
    (run : a.run items = .ok b) :
    ∃ lexemes : List Lexeme, items = lexemes.map .ok ∧
      ∃ out' wait', Tracked (tokens ++ lexemes.map Lexeme.token) b out' wait' := by
  induction items generalizing tokens a out wait with
  | nil =>
    cases run
    exact ⟨[], rfl, out, wait, by rwa [List.map_nil, List.append_nil]⟩
  | cons item items ih =>
    obtain ⟨c, step, rest⟩ := exists_step_of_run run
    obtain ⟨lexeme, rfl, -⟩ := exists_lexeme_of_step step
    obtain ⟨out, wait, tracked⟩ := h.step step
    obtain ⟨lexemes, rfl, tracked⟩ := ih tracked rest
    refine ⟨lexeme :: lexemes, rfl, ?_⟩
    rwa [List.map_cons, List.append_cons]

/-- A finished arrangement has written its tokens in a traceable order. -/
lemma Tracked.finish {tokens} {a : Arrangement} {out wait written} (h : Tracked tokens a out wait)
    (finish : a.finish = .ok written) :
    ∃ placed : List (Token × Nat), placed.map Prod.fst = written ∧ placed.Perm (barePlaces tokens) ∧
      placed.Pairwise Follows := by
  cases eg : a.groups with
  | cons group groups =>
    rw [Arrangement.finish, eg] at finish
    cases finish
  | nil =>
    rw [Arrangement.finish, eg] at finish
    cases finish
    have pending : a.pending = a.waiting := by
      rw [Arrangement.pending, eg, List.flatMap_nil, List.append_nil]
    refine ⟨out ++ wait, ?_, h.perm,
      pairwise_follows_append h.follows (isNumber_of_map_operator h.waiting)⟩
    rw [List.map_append, h.written, h.waiting, pending]
    simp [write]

end Arrangement

/-- What is arranged was read in places that keep the order. -/
lemma exists_placed_of_parse {l out} (h : parse l = .ok out) :
    ∃ lexemes : List Lexeme, Item.ofChars l = lexemes.map .ok ∧
      ∃ placed : List (Token × Nat), placed.map Prod.fst = out ∧
        placed.Perm (barePlaces (lexemes.map Lexeme.token)) ∧ placed.Pairwise Follows := by
  rw [parse, Arrangement.ofItems_eq] at h
  cases run : Arrangement.run {} (Item.ofChars l) with
  | error e =>
    rw [run] at h
    cases h
  | ok a =>
    rw [run] at h
    have start : Arrangement.Tracked [] {} [] [] := ⟨rfl, rfl, .nil, .nil⟩
    obtain ⟨lexemes, items, _, _, tracked⟩ := start.run run
    exact ⟨lexemes, items, tracked.finish h⟩

/-- Only a parenthesis in the sequence is reported as one. -/
lemma paren_mem_of_reduceWith {apply position values tokens side place}
    (h : reduceWith apply position values tokens = .error (.unexpectedParen side place)) :
    Token.paren side ∈ tokens := by
  induction tokens generalizing position values with
  | nil =>
    by_cases long : 2 ≤ values.length
    · rw [reduceWith_nil_of_long long] at h
      cases h
    · rw [reduceWith_nil_of_short (Nat.lt_of_not_le long)] at h
      cases h
  | cons token tokens ih =>
    cases token with
    | number value =>
      rw [reduceWith_number] at h
      exact List.mem_cons_of_mem _ (ih h)
    | operator op =>
      by_cases short : values.length < 2
      · rw [reduceWith_operator_of_short short] at h
        cases h
      · obtain ⟨right, left, values, rfl⟩ := exists_operands short
        rw [reduceWith_operator] at h
        exact List.mem_cons_of_mem _ (ih h)
    | paren side =>
      rw [reduceWith_paren] at h
      cases h
      exact List.mem_cons_self

/-- The sequence `out` is the tokens without the parentheses, in another order. -/
structure Arranged (tokens out : List Token) : Prop where
  perm : out.Perm (bare tokens)
  numbers : out.filter Token.isNumber = tokens.filter Token.isNumber
  /-- Each token of the sequence has a place of its own among the tokens, and before a number there
  are only tokens from before it. So an operator is behind every number that it was read behind. -/
  placed : ∃ placed : List (Token × Nat), placed.map Prod.fst = out ∧
    placed.Perm (barePlaces tokens) ∧
    placed.Pairwise fun t u => u.1.isNumber = true → t.2 < u.2
  bare : ∀ side, Token.paren side ∉ out

/-- What is arranged is in order. -/
lemma arranged_of_parse {l out} (h : parse l = .ok out) :
    ∃ lexemes : List Lexeme, Item.ofChars l = lexemes.map .ok ∧
      Arranged (lexemes.map Lexeme.token) out := by
  obtain ⟨lexemes, items, placed, rfl, perm, follows⟩ := exists_placed_of_parse h
  have kept : (placed.map Prod.fst).Perm (bare (lexemes.map Lexeme.token)) := by
    rw [← map_fst_barePlaces]
    exact perm.map _
  refine ⟨lexemes, items, kept, filter_isNumber_of_follows perm follows,
    ⟨placed, rfl, perm, follows⟩, ?_⟩
  intro side mem
  have := (List.mem_filter.1 (kept.mem_iff.1 mem)).2
  cases this

/-- Arranged are the tokens without their parentheses, the numbers in their order and each operator
behind those before it. So no evaluation meets a parenthesis. -/
theorem parse_arranged (l : List Char) :
    (∀ out, parse l = .ok out → ∃ lexemes : List Lexeme, Item.ofChars l = lexemes.map .ok ∧
      Arranged (lexemes.map Lexeme.token) out) ∧
    ∀ side position, calculate l ≠ .error (.evaluation (.unexpectedParen side position)) := by
  refine ⟨fun out => arranged_of_parse, fun side position h => ?_⟩
  rw [calculate] at h
  cases e : parse l with
  | error e' =>
    rw [e] at h
    cases h
  | ok out =>
    obtain ⟨lexemes, -, arranged⟩ := arranged_of_parse e
    rw [e] at h
    dsimp only at h
    cases ev : evaluate out with
    | ok result =>
      rw [ev] at h
      cases h
    | error e' =>
      rw [ev] at h
      cases h
      exact arranged.bare side (paren_mem_of_reduceWith ev)

end Calculator
