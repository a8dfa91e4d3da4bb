import Calculator.Proofs.Fault
import Calculator.Proofs.Tree
import Calculator.ReversePolish.Evaluation

/-!
# What a reverse Polish sequence evaluates to

Which tokens an evaluation cannot take is decided by `depth` alone (`Token.Unfit`). Up to the first
of them the stack holds as many values as the depth says (`exists_values_of_clear`). At the end
there is one value if the sequence lists a tree, and then it is the value of the tree
(`reduceWith_postorder`, `exists_tree_of_reduceWith`). Together these decide the outcome for every
sequence (`evaluateWith_outcome`).
-/

namespace Calculator

/-- What has no symbol is a number. -/
lemma Token.symbol?_eq_none {token : Token} (h : token.symbol? = none) :
    ∃ value, token = .number value := by
  cases token with
  | number value => exact ⟨value, rfl⟩
  | operator op => cases h
  | paren side => cases h

/-- A symbol is the symbol of one token only. -/
lemma Token.symbol?_inj {token token' : Token} (h : token.symbol? = token'.symbol?)
    (hs : token'.symbol? ≠ none) : token = token' := by
  obtain ⟨c, hc⟩ := Option.ne_none_iff_exists'.1 hs
  have hc' := ofChar?_eq_some_iff.2 (h.trans hc)
  rw [ofChar?_eq_some_iff.2 hc] at hc'
  exact (Option.some.inj hc').symm

/-- A parenthesis, or an operator behind fewer than two operands. -/
def Token.Unfit (done : List Token) : Token → Prop
  | .number _ => False
  | .operator _ => depth done < 2
  | .paren _ => True

/-- Two values or more are two operands and a rest. -/
lemma exists_operands {values : List Float} (enough : ¬values.length < 2) :
    ∃ right left rest, values = right :: left :: rest := by
  match values, enough with
  | right :: left :: rest, _ => exact ⟨right, left, rest, rfl⟩
  | [_], enough => exact absurd (Nat.lt_succ_self 1) enough
  | [], enough => exact absurd Nat.two_pos enough

section
variable {apply : Operator → Float → Float → Float}

/-- A number is put on the stack. -/
lemma reduceWith_number {position values value tokens} :
    reduceWith apply position values (.number value :: tokens) =
      reduceWith apply (position + 1) (value :: values) tokens := by
  match values with
  | [] => rfl
  | [_] => rfl
  | _ :: _ :: _ => rfl

/-- An operator takes its operands from the stack. -/
lemma reduceWith_operator {position right left values op tokens} :
    reduceWith apply position (right :: left :: values) (.operator op :: tokens) =
      reduceWith apply (position + 1) (apply op left right :: values) tokens :=
  rfl

/-- An operator that finds fewer than two values ends the evaluation. -/
lemma reduceWith_operator_of_short {position values op tokens} (short : values.length < 2) :
    reduceWith apply position values (.operator op :: tokens) =
      .error (.insufficientOperands op position values.length) := by
  match values, short with
  | [], _ => rfl
  | [_], _ => rfl

/-- A parenthesis is reported. -/
lemma reduceWith_paren {position values side tokens} :
    reduceWith apply position values (.paren side :: tokens) =
      .error (.unexpectedParen side position) := by
  match values with
  | [] => rfl
  | [_] => rfl
  | _ :: _ :: _ => rfl

/-- Two values or more at the end are reported. -/
lemma reduceWith_nil_of_long {position values} (long : 2 ≤ values.length) :
    reduceWith apply position values [] = .error (.leftoverOperands values.length) := by
  match values, long with
  | _ :: _ :: _, _ => rfl

/-- The one value at the end is the result. -/
lemma reduceWith_nil_of_short {position values} (short : values.length < 2) :
    reduceWith apply position values [] = .ok values.head? := by
  match values, short with
  | [], _ => rfl
  | [_], _ => rfl

/-- A part without faults leaves as many values as its depth. -/
lemma exists_values_of_clear (apply : Operator → Float → Float → Float) {done}
    (clear : Clear Token.Unfit done) :
    ∃ values : List Float, values.length = depth done ∧
      ∀ tokens, reduceWith apply 0 [] (done ++ tokens) =
        reduceWith apply done.length values tokens := by
  induction done using List.reverseRecOn with
  | nil => exact ⟨[], rfl, fun _ => rfl⟩
  | append_singleton done token ih =>
    obtain ⟨values, len, run⟩ := ih clear.of_append
    simp only [List.append_assoc, List.singleton_append, List.length_append, List.length_singleton,
      depth_append, run]
    cases token with
    | number value =>
      refine ⟨value :: values, ?_, fun _ => reduceWith_number⟩
      simp [len]
    | operator op =>
      have two : ¬depth done < 2 := clear.fits
      have enough : ¬values.length < 2 := by omega
      obtain ⟨right, left, values, rfl⟩ := exists_operands enough
      refine ⟨apply op left right :: values, ?_, fun _ => reduceWith_operator⟩
      simp only [List.length_cons, depth_operator, depth_nil] at len ⊢
      omega
    | paren side => exact absurd trivial clear.fits

/-- A listing puts the value of its tree on the stack. -/
lemma reduceWith_postorder (t : Tree) (position : Nat) (values : List Float) (tokens : List Token) :
    reduceWith apply position values (t.postorder ++ tokens) =
      reduceWith apply (position + t.postorder.length) (t.value apply :: values) tokens := by
  induction t generalizing position values tokens with
  | number value => exact reduceWith_number
  | node op left right ihl ihr =>
    simp only [Tree.postorder, List.append_assoc, List.length_append, List.length_singleton,
      ← Nat.add_assoc]
    rw [ihl, ihr]
    rfl

/-- A result on top of the values of some trees is the value of one tree, whose listing goes on from
theirs. -/
lemma exists_tree_of_reduceWith {tokens position result} (trees : List Tree)
    (h : reduceWith apply position (trees.map (Tree.value apply)) tokens = .ok result) :
    ∃ t : Option Tree, t.map (Tree.value apply) = result ∧
      t.toList.flatMap Tree.postorder = trees.reverse.flatMap Tree.postorder ++ tokens := by
  induction tokens generalizing position trees with
  | nil =>
    rcases trees with _ | ⟨t, _ | ⟨u, trees⟩⟩
    · cases h
      exact ⟨none, rfl, rfl⟩
    · cases h
      exact ⟨some t, rfl, by simp⟩
    · cases h
  | cons token tokens ih =>
    cases token with
    | number value =>
      rw [reduceWith_number] at h
      obtain ⟨t, ev, el⟩ := ih (.number value :: trees) h
      exact ⟨t, ev, by simpa [Tree.postorder] using el⟩
    | operator op =>
      rcases trees with _ | ⟨right, _ | ⟨left, trees⟩⟩
      · cases h
      · cases h
      · -- the operator joins the trees of its operands, the one below is the left one
        obtain ⟨t, ev, el⟩ := ih (.node op left right :: trees) h
        exact ⟨t, ev, by simpa [Tree.postorder] using el⟩
    | paren side => rw [reduceWith_paren] at h; cases h

/-- Only the empty sequence has no result. -/
lemma evaluateWith_eq_none_iff {tokens} : evaluateWith apply tokens = .ok none ↔ tokens = [] := by
  refine ⟨?_, ?_⟩
  · intro h
    obtain ⟨t, ev, rfl⟩ := exists_tree_of_reduceWith [] h
    rw [Option.map_eq_none_iff.1 ev]
    rfl
  · intro e
    subst e
    rfl

/-- The sequences with a value are the listings of trees. -/
lemma evaluateWith_eq_some_iff {tokens v} :
    evaluateWith apply tokens = .ok (some v) ↔
      ∃ t : Tree, t.postorder = tokens ∧ t.value apply = v := by
  refine ⟨?_, ?_⟩
  · intro h
    obtain ⟨t, ev, rfl⟩ := exists_tree_of_reduceWith [] h
    obtain ⟨t, rfl, rfl⟩ := Option.map_eq_some_iff.1 ev
    exact ⟨t, by simp, rfl⟩
  · intro ⟨t, e, ev⟩
    subst e; subst ev
    have run : evaluateWith apply (t.postorder ++ []) = _ := reduceWith_postorder t 0 [] []
    rw [List.append_nil] at run
    exact run

/-- A parenthesis as the first fault is reported. -/
lemma evaluateWith_of_paren {tokens i side} (fault : FirstFault Token.Unfit tokens i)
    (e : tokens[i]? = some (.paren side)) :
    evaluateWith apply tokens = .error (.unexpectedParen side i) := by
  obtain ⟨done, rest, rfl, rfl, clear, _⟩ := fault.split e
  obtain ⟨values, len, run⟩ := exists_values_of_clear apply clear
  rw [evaluateWith, run, reduceWith_paren]

/-- An operator as the first fault is reported with the depth before it. -/
lemma evaluateWith_of_operator {tokens i op} (fault : FirstFault Token.Unfit tokens i)
    (e : tokens[i]? = some (.operator op)) :
    ∃ found : Nat, found = depth (tokens.take i) ∧
      evaluateWith apply tokens = .error (.insufficientOperands op i found) := by
  obtain ⟨done, rest, rfl, rfl, clear, short⟩ := fault.split e
  obtain ⟨values, len, run⟩ := exists_values_of_clear apply clear
  have short : depth done < 2 := short
  refine ⟨values.length, by simpa using len, ?_⟩
  rw [evaluateWith, run, reduceWith_operator_of_short (by omega)]

/-- A sequence without faults that lists no tree leaves several values. -/
lemma evaluateWith_of_clear {tokens} (clear : Clear Token.Unfit tokens) (nonempty : tokens ≠ [])
    (unlisted : ∀ t : Tree, t.postorder ≠ tokens) :
    ∃ count : Nat, count = depth tokens ∧ 2 ≤ count ∧
      evaluateWith apply tokens = .error (.leftoverOperands count) := by
  obtain ⟨values, len, run⟩ := exists_values_of_clear apply clear
  have run := run []
  rw [List.append_nil] at run
  -- with fewer values the sequence would be empty or a listing
  have long : 2 ≤ values.length := by
    match values with
    | [] => exact absurd (evaluateWith_eq_none_iff.1 run) nonempty
    | [value] =>
      obtain ⟨t, e, _⟩ := evaluateWith_eq_some_iff.1 run
      exact absurd e (unlisted t)
    | _ :: _ :: _ => simp
  exact ⟨values.length, len, long, run.trans (reduceWith_nil_of_long long)⟩

/-- Where there is no fault, two operands or more are left over. -/
lemma count_of_evaluateWith {tokens} {count : Nat}
    (h : evaluateWith apply tokens = .error (.leftoverOperands count)) :
    count = depth tokens ∧ 2 ≤ count := by
  rcases clear_or_firstFault Token.Unfit tokens with clear | ⟨i, token, fault, e⟩
  · have nonempty : tokens ≠ [] := by
      intro e
      rw [evaluateWith_eq_none_iff.2 e] at h
      cases h
    have unlisted : ∀ t : Tree, t.postorder ≠ tokens := by
      intro t e
      rw [evaluateWith_eq_some_iff.2 ⟨t, e, rfl⟩] at h
      cases h
    obtain ⟨_, len, two, error⟩ := @evaluateWith_of_clear apply tokens clear nonempty unlisted
    cases h.symm.trans error
    exact ⟨len, two⟩
  · cases token with
    | number value =>
      obtain ⟨done, rest, -, -, -, unfit⟩ := fault.split e
      exact absurd unfit id
    | operator op =>
      obtain ⟨found, -, error⟩ := @evaluateWith_of_operator apply tokens i op fault e
      cases h.symm.trans error
    | paren side => cases h.symm.trans (evaluateWith_of_paren fault e)

/-- How an evaluation fails depends on the symbols among the tokens only. -/
lemma reduceWith_error_congr {apply' : Operator → Float → Float → Float}
    {tokens tokens' position values values' e}
    (symbols : tokens.map Token.symbol? = tokens'.map Token.symbol?)
    (len : values.length = values'.length)
    (h : reduceWith apply position values tokens = .error e) :
    reduceWith apply' position values' tokens' = .error e := by
  -- errors depend on the symbols and on how many values there are, and these stay in step
  induction tokens generalizing tokens' position values values' with
  | nil =>
    cases List.map_eq_nil_iff.1 symbols.symm
    by_cases long : 2 ≤ values.length
    · rw [reduceWith_nil_of_long long, len] at h
      rw [reduceWith_nil_of_long (len ▸ long), h]
    · rw [reduceWith_nil_of_short (Nat.lt_of_not_le long)] at h
      cases h
  | cons token tokens ih =>
    obtain ⟨token', rest, rfl, head, tail⟩ := List.map_eq_cons_iff.1 symbols.symm
    cases token with
    | number value =>
      obtain ⟨value', rfl⟩ := Token.symbol?_eq_none head
      rw [reduceWith_number] at h ⊢
      exact ih tail.symm (by simp [len]) h
    | operator op =>
      cases Token.symbol?_inj head (by simp [Token.symbol?])
      by_cases short : values.length < 2
      · rw [reduceWith_operator_of_short short, len] at h
        rw [reduceWith_operator_of_short (len ▸ short), h]
      · obtain ⟨right, left, values, rfl⟩ := exists_operands short
        obtain ⟨right', left', values', rfl⟩ := exists_operands (len ▸ short)
        rw [reduceWith_operator] at h ⊢
        refine ih tail.symm ?_ h
        simpa using len
    | paren side =>
      cases Token.symbol?_inj head (by simp [Token.symbol?])
      rw [reduceWith_paren] at h ⊢
      exact h

end

/-- The outcome of a sequence: no result if it is empty, the value of the one tree that it lists, or
its first fault. Errors do not depend on the numbers. -/
theorem evaluateWith_outcome (apply : Operator → Float → Float → Float) (tokens : List Token) :
    evaluate tokens = evaluateWith Operator.apply tokens ∧
    (evaluateWith apply tokens = .ok none ↔ tokens = []) ∧
    (∀ v, evaluateWith apply tokens = .ok (some v) ↔
      ∃ t : Tree, t.postorder = tokens ∧ t.value apply = v ∧
        ∀ u : Tree, u.postorder = tokens → u = t) ∧
    (∀ i side, FirstFault Token.Unfit tokens i → tokens[i]? = some (.paren side) →
      evaluateWith apply tokens = .error (.unexpectedParen side i)) ∧
    (∀ i op, FirstFault Token.Unfit tokens i → tokens[i]? = some (.operator op) →
      ∃ found : Nat, found = depth (tokens.take i) ∧
        evaluateWith apply tokens = .error (.insufficientOperands op i found)) ∧
    (tokens ≠ [] → (∀ t : Tree, t.postorder ≠ tokens) → Clear Token.Unfit tokens →
      ∃ count : Nat, count = depth tokens ∧ 2 ≤ count ∧
        evaluateWith apply tokens = .error (.leftoverOperands count)) ∧
    (∀ (apply' : Operator → Float → Float → Float) (tokens' : List Token),
      tokens'.map Token.symbol? = tokens.map Token.symbol? →
        ∀ e, evaluateWith apply' tokens' = .error e ↔ evaluateWith apply tokens = .error e) := by
  refine ⟨rfl, evaluateWith_eq_none_iff, fun v => ?_, fun i side => evaluateWith_of_paren,
    fun i op => evaluateWith_of_operator, fun nonempty unlisted clear => ?_, ?_⟩
  · rw [evaluateWith_eq_some_iff]
    refine ⟨?_, ?_⟩
    · intro ⟨t, e, ev⟩
      exact ⟨t, e, ev, fun u eu => Tree.postorder_injective (eu.trans e.symm)⟩
    · intro ⟨t, e, ev, _⟩
      exact ⟨t, e, ev⟩
  · exact evaluateWith_of_clear clear nonempty unlisted
  · intro apply' tokens' symbols e
    exact ⟨reduceWith_error_congr symbols rfl, reduceWith_error_congr symbols.symm rfl⟩

end Calculator
