import Calculator.Proofs.Grammar.Rejection

/-!
# Operands left over

Operands are left over only where the text has no room for them, so each of them but one stands
directly behind a `)` (`clashes_of_leftoverOperands`). A text without such a place and without an
empty group is blank, a sentence or in error for another reason (`settled_of_separated`).
-/

namespace Calculator

/-- No group is empty: no `)` stands directly behind a `(`. -/
def Filled (l : List Char) : Prop :=
  l.IsChain fun c d => c = '(' → d ≠ ')'

/-- It can be told whether no group is empty. -/
instance (l : List Char) : Decidable (Filled l) :=
  inferInstanceAs (Decidable (List.IsChain _ l))

/-- What has no result is blank, what has a value a sentence, and nothing is left over. -/
structure Settled (l : List Char) : Prop where
  blank : calculate l = .ok none ↔ Text.isAllBlank l = true
  sentence : (∃ v, calculate l = .ok (some v)) ↔ Sentence (Text.strip l)
  otherwise : Text.isAllBlank l = false → ¬Sentence (Text.strip l) → ∃ e, calculate l = .error e
  nothing_left : ∀ count, calculate l ≠ .error (.evaluation (.leftoverOperands count))

variable {l : List Char}

/-- What fails in the evaluation is arranged. -/
lemma exists_parse_of_evaluation {e} (h : calculate l = .error (.evaluation e)) :
    ∃ tokens, parse l = .ok tokens ∧ evaluate tokens = .error e := by
  obtain ⟨e', -, failed⟩ | ⟨tokens, e', read, ev, failed⟩ | ⟨tokens, result, -, -, value⟩ :=
    calculate_cases l
  · cases h.symm.trans failed
  · cases h.symm.trans failed
    exact ⟨tokens, read, ev⟩
  · cases h.symm.trans value

/-- Left over are the operands that the tokens have too many of. -/
lemma exists_reads_of_leftover {count : Nat}
    (h : calculate l = .error (.evaluation (.leftoverOperands count))) :
    ∃ tokens, Reads false (Text.strip l) tokens ∧ depth tokens = count ∧ 2 ≤ count := by
  obtain ⟨out, ep, ev⟩ := exists_parse_of_evaluation h
  obtain ⟨tokens, reads, -, perm⟩ := exists_reads_of_parse ep
  obtain ⟨len, two⟩ := count_of_evaluateWith ev
  exact ⟨tokens, reads, by rw [← depth_bare, ← depth_perm perm, len], two⟩

/-- In a separated text nothing is left over. -/
lemma leftover_ne_of_separated (hs : Separated (Text.strip l)) (count : Nat) :
    calculate l ≠ .error (.evaluation (.leftoverOperands count)) := by
  intro h
  obtain ⟨tokens, reads, len, two⟩ := exists_reads_of_leftover h
  have le : depth tokens ≤ 1 := reads.depth_le hs
  omega

/-- Some `(` and as many `)` have an empty group in them. -/
lemma eq_zero_of_filled {n : Nat} (h : Filled (List.replicate n '(' ++ List.replicate n ')')) :
    n = 0 := by
  cases n with
  | zero => rfl
  | succ n =>
    have last : '(' ∈ (List.replicate (n + 1) '(').getLast? := by
      rw [List.getLast?_replicate, if_neg n.succ_ne_zero]
      rfl
    have apart := (List.isChain_append.1 h).2.2
    exact absurd rfl (apart '(' last ')' rfl rfl)

/-- Where no group is empty, only blank texts have no result. -/
lemma calculate_eq_none_iff_of_filled (hf : Filled (Text.strip l)) :
    calculate l = .ok none ↔ Text.isAllBlank l = true := by
  rw [calculate_eq_none_iff, ← Text.strip_eq_nil_iff]
  constructor
  · intro ⟨n, e⟩
    rw [e] at hf
    rw [e, eq_zero_of_filled hf]
    rfl
  · intro e
    exact ⟨0, e⟩

/-- With no numeral directly behind a `)` and no empty group, an expression is blank, a sentence
with a value, or an error, but no operands are left over. -/
theorem settled_of_separated (hs : Separated (Text.strip l)) (hf : Filled (Text.strip l)) :
    Settled l := by
  have blank := calculate_eq_none_iff_of_filled hf
  have sentence : (∃ v, calculate l = .ok (some v)) ↔ Sentence (Text.strip l) := by
    constructor
    · intro ⟨v, value⟩
      exact sentence_of_calculate hs value
    · intro ⟨t, derives⟩
      exact ⟨_, calculate_of_parse derives.parse_eq⟩
  refine ⟨blank, sentence, fun hb hn => ?_, leftover_ne_of_separated hs⟩
  cases e : calculate l with
  | error e' => exact ⟨e', rfl⟩
  | ok result =>
    cases result with
    | none =>
      rw [blank.1 e] at hb
      cases hb
    | some v => exact absurd (sentence.1 ⟨v, e⟩) hn

/-- An operator without its second operand is an error. -/
theorem settled_of_separated_malformed :
    Separated (Text.strip "2 (3 +) * 4".toList) ∧ Filled (Text.strip "2 (3 +) * 4".toList) ∧
      Settled "2 (3 +) * 4".toList := by
  have separated : Separated (Text.strip "2 (3 +) * 4".toList) := by decide
  have filled : Filled (Text.strip "2 (3 +) * 4".toList) := by decide
  exact ⟨separated, filled, settled_of_separated separated filled⟩

/-- Where operands are left over, at least one fewer numerals stand directly behind a `)`. -/
theorem clashes_of_leftoverOperands {count : Nat}
    (h : calculate l = .error (.evaluation (.leftoverOperands count))) :
    2 ≤ count ∧ count - 1 ≤ clashes (Text.strip l) ∧
      ∃ before d after, Text.strip l = before ++ ')' :: d :: after ∧
        Decimal.isNumeral d = true := by
  obtain ⟨tokens, reads, len, two⟩ := exists_reads_of_leftover h
  have le : depth tokens ≤ 1 + clashes (Text.strip l) := reads.depth_le_clashes
  refine ⟨two, by omega, ?_⟩
  by_contra none
  have separated : Separated (Text.strip l) := by
    refine List.isChain_iff_forall_rel_of_append_cons_cons.2 fun c d before after e hc => ?_
    rw [hc] at e
    exact Bool.eq_false_iff.2 fun hd => none ⟨before, d, after, e, hd⟩
  exact leftover_ne_of_separated separated count h

/-- Two numerals behind groups leave three operands. -/
theorem clashes_of_leftoverOperands_groups :
    calculate "(2)3(4)5".toList = .error (.evaluation (.leftoverOperands 3)) ∧
      2 ≤ 3 ∧ 3 - 1 ≤ clashes (Text.strip "(2)3(4)5".toList) ∧
      ∃ before d after, Text.strip "(2)3(4)5".toList = before ++ ')' :: d :: after ∧
        Decimal.isNumeral d = true := by
  have leftover : calculate "(2)3(4)5".toList = .error (.evaluation (.leftoverOperands 3)) := by
    decide +kernel
  exact ⟨leftover, clashes_of_leftoverOperands leftover⟩

end Calculator
