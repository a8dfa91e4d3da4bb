import Calculator.Proofs.Arrangement.Conservation
import Calculator.Proofs.Grammar.Acceptance
import Calculator.Proofs.Grammar.Room

/-!
# What has a value

Neither the arrangement nor the evaluation looks at the order in which operands and operators stand
in a text. But a separated text has room for one operand more than operators and holds no more
(`Reads.depth_le`), and behind the beginning of a sentence there is as much room as is still needed.
A value leaves no room, so it is filled at every place, and that makes the text a sentence
(`Reads.sentence`).

Behind a `)` a numeral is one operand too many, and an operator at any other place makes up for it:
`(2)3+` has a value (`exists_value_of_no_sentence`). Parentheses alone have no value and are no
error either. All other texts are errors if they are no sentences (`calculate_outcome`).
-/

namespace Calculator

/-- The text is separated, also from an operand before it. -/
def SeparatedBehind : Bool → List Char → Prop
  | true, l => Separated (')' :: l)
  | false, l => Separated l

/-- Without room there is an operand before. -/
lemma eq_true_of_room {after} (h : room after ≤ 0) : after = true := by
  cases after with
  | true => rfl
  | false => exact absurd h (by decide)

/-- A separated text stays so without its first character. -/
lemma Separated.tail {c l} (h : Separated (c :: l)) : Separated l :=
  (List.isChain_cons.1 h).2

/-- What is separated from an operand is separated. -/
lemma SeparatedBehind.separated {after l} (h : SeparatedBehind after l) : Separated l := by
  cases after with
  | true => exact Separated.tail h
  | false => exact h

/-- A numeral is separated from nothing only. -/
lemma SeparatedBehind.eq_false {after n l} (h : SeparatedBehind after (n ++ l)) (hn : Numeral n) :
    after = false := by
  cases after with
  | false => rfl
  | true =>
    obtain ⟨c, n, rfl⟩ := List.exists_cons_of_ne_nil hn.ne_nil
    have : Decimal.isNumeral c = false := (List.isChain_cons_cons.1 h).1 rfl
    rw [hn.inNumeral c List.mem_cons_self] at this
    cases this

/-- What does not go on with a numeral is separated from it. -/
lemma SeparatedBehind.of_numeral {after n l} (h : SeparatedBehind after (n ++ l))
    (head : ∀ c ∈ l.head?, Decimal.isNumeral c = false) : SeparatedBehind true l := by
  obtain ⟨_, hl, _⟩ := List.isChain_append.1 h.separated
  exact List.isChain_cons.2 ⟨fun c mem _ => head c mem, hl⟩

/-- A separated text has no clashes. -/
lemma SeparatedBehind.clashesBehind_eq_zero {after l} (h : SeparatedBehind after l) :
    clashesBehind after l = 0 := by
  cases after with
  | true => exact separated_iff_clashes_eq_zero.1 h
  | false => exact separated_iff_clashes_eq_zero.1 h

/-- A separated text has at most as many operands as there is room for. -/
lemma Reads.depth_le {after l tokens} (h : Reads after l tokens) (hs : SeparatedBehind after l) :
    depth tokens ≤ room after := by
  have le := h.depth_le_clashes
  rwa [hs.clashesBehind_eq_zero, Int.natCast_zero, Int.add_zero] at le

/-- The beginning of a sentence with this many groups open. -/
inductive Opened : Nat → List Char → Prop where
  | nil :
    Opened 0 []
  | group {d q x} :
    Opened d q →
    (∀ m t, Derives .group m t → Sentence (x ++ m)) →
    Opened (d + 1) (q ++ x ++ ['('])

/-- An expression, or the beginning of one that a factor completes. -/
def Begun : Bool → List Char → Prop
  | true, x => Sentence x
  | false, x => ∀ m t, Derives .factor m t → Sentence (x ++ m)

/-- Every expression can begin. -/
lemma begun_nil : Begun false [] :=
  fun _ _ h => ⟨_, .ofTerm (.ofFactor h)⟩

/-- Behind an expression an operator begins a longer one. -/
lemma Begun.operator {x} (h : Begun true x) (op : Operator) : Begun false (x ++ [op.char]) := by
  intro m t hm
  obtain ⟨u, h⟩ := h
  rw [List.append_assoc]
  exact h.operate op hm

/-- A `(` opens a group where a factor may stand. -/
lemma Begun.opens {d q x after} (h : Begun after x) (hq : Opened d q) :
    Opened (d + 1) (q ++ x ++ ['(']) := by
  refine hq.group fun m t hm => ?_
  cases after with
  | true =>
    obtain ⟨u, h⟩ := h
    exact h.multiply hm
  | false => exact h m t (.ofGroup hm)

/-- A `)` makes a group of the expression before it. -/
lemma Begun.closes {d q x} (h : Begun true x) (hq : Opened (d + 1) q) :
    ∃ p y, Opened d p ∧ Begun true y ∧ q ++ x ++ [')'] = p ++ y := by
  cases hq with
  | @group _ p y hp hy =>
    obtain ⟨t, h⟩ := h
    exact ⟨p, y ++ ('(' :: x ++ [')']), hp, hy _ _ (.enclose h), by simp⟩

/-- A separated text without room completes what is begun before it. -/
lemma Reads.sentence {after l tokens} (h : Reads after l tokens) {d q x}
    (hs : SeparatedBehind after l)
    (hd : depth tokens = room after) (hn : Nests d tokens) (hq : Opened d q) (hx : Begun after x) :
    Sentence (q ++ x ++ l) := by
  induction h generalizing d q x with
  | @nil after =>
    cases eq_true_of_room (Int.le_of_eq hd.symm)
    cases hn
    cases hq
    rw [List.append_nil]
    exact hx
  | numeral numeral head _ ih =>
    cases hs.eq_false numeral
    cases hn with
    | number hn =>
      rw [depth_number] at hd
      have := ih (hs.of_numeral head) ((Int.add_left_inj 1).1 hd) hn hq (hx _ _ (.numeral numeral))
      rw [List.append_assoc] at this ⊢
      rwa [List.append_assoc] at this
  | @operator after op l tokens hl ih =>
    have hs' : SeparatedBehind false l := hs.separated.tail
    have le : depth tokens ≤ 1 := hl.depth_le hs'
    rw [depth_operator] at hd
    -- in the place of an operand an operator leaves room that nothing behind it fills
    cases eq_true_of_room (hd ▸ Int.sub_nonpos_of_le le)
    cases hn with
    | operator hn =>
      have := ih hs' (Int.eq_of_sub_eq_zero hd) hn hq (hx.operator op)
      simpa using this
  | opening _ ih =>
    cases hn with
    | opening hn =>
      rw [depth_paren] at hd
      have := ih (Separated.tail hs) hd hn (hx.opens hq) begun_nil
      simpa using this
  | product _ ih =>
    cases hn with
    | operator hn =>
      cases hn with
      | opening hn =>
        rw [depth_operator, depth_paren] at hd
        have := ih hs.separated.tail (Int.eq_of_sub_eq_zero hd) hn (hx.opens hq) begun_nil
        simpa using this
  | @closing _ _ tokens hl ih =>
    have le : depth tokens ≤ 0 := hl.depth_le hs.separated
    rw [depth_paren] at hd
    cases eq_true_of_room (hd ▸ le)
    cases hn with
    | closing hn =>
      obtain ⟨p, y, hp, hy, e⟩ := hx.closes hq
      have := ih hs.separated hd hn hp hy
      rw [← e] at this
      simpa using this

/-- What is read as parentheses only is some `(` and then some `)`. -/
lemma Reads.exists_parens {after l tokens} (h : Reads after l tokens) {d} (hb : bare tokens = [])
    (hn : Nests d tokens) :
    ∃ n, l = List.replicate n '(' ++ List.replicate (d + n) ')' ∧ (after = true → n = 0) := by
  induction h generalizing d with
  | nil =>
    cases hn
    exact ⟨0, rfl, fun _ => rfl⟩
  | numeral | operator | product => cases hb
  | opening _ ih =>
    cases hn with
    | opening hn =>
      obtain ⟨n, rfl, _⟩ := ih hb hn
      refine ⟨n + 1, ?_, nofun⟩
      rw [Nat.add_right_comm, Nat.add_assoc]
      rfl
  | closing _ ih =>
    cases hn with
    | @closing d _ hn =>
      obtain ⟨n, rfl, hzero⟩ := ih hb hn
      cases hzero rfl
      exact ⟨0, rfl, fun _ => rfl⟩

/-- Each `)` is read as one. -/
lemma reads_replicate_closing (after : Bool) (n : Nat) :
    Reads after (List.replicate n ')') (List.replicate n (.paren .closing)) := by
  induction n generalizing after with
  | zero => exact .nil
  | succ n ih => exact .closing (ih true)

/-- Each `(` in front is read as one. -/
lemma reads_replicate_opening {l tokens} (h : Reads false l tokens) (n : Nat) :
    Reads false (List.replicate n '(' ++ l) (List.replicate n (.paren .opening) ++ tokens) := by
  induction n with
  | zero => exact h
  | succ n ih => exact .opening ih

/-- As many `)` as there are open groups end them all. -/
lemma nests_replicate_closing (d : Nat) : Nests d (List.replicate d (.paren .closing)) := by
  induction d with
  | zero => exact .nil
  | succ d ih => exact .closing ih

/-- Each `(` in front opens a group. -/
lemma nests_replicate_opening {d tokens} {n : Nat} (h : Nests (d + n) tokens) :
    Nests d (List.replicate n (.paren .opening) ++ tokens) := by
  induction n generalizing d with
  | zero => exact h
  | succ n ih =>
    rw [Nat.add_comm n, ← Nat.add_assoc] at h
    exact .opening (ih h)

/-- A result is what the arranged sequence evaluates to. -/
lemma exists_parse_of_calculate {l result} (h : calculate l = .ok result) :
    ∃ tokens, parse l = .ok tokens ∧ evaluate tokens = .ok result := by
  obtain ⟨e, -, failed⟩ | ⟨tokens, e, -, -, failed⟩ | ⟨tokens, result', read, ev, value⟩ :=
    calculate_cases l
  · cases h.symm.trans failed
  · cases h.symm.trans failed
  · cases h.symm.trans value
    exact ⟨tokens, read, ev⟩

/-- What is arranged is read as tokens that nest. -/
lemma exists_reads_of_parse {l out} (h : parse l = .ok out) :
    ∃ tokens, Reads false (Text.strip l) tokens ∧ Nests 0 tokens ∧ out.Perm (bare tokens) := by
  obtain ⟨lexemes, items, perm, nests⟩ := exists_lexemes_of_parse h
  exact ⟨_, yields_ofChars_iff.1 (items ▸ yields_map_ok lexemes), nests, perm⟩

/-- What has a value has one operand more than operators. -/
lemma exists_tokens_of_calculate {l v} (h : calculate l = .ok (some v)) :
    ∃ tokens, Reads false (Text.strip l) tokens ∧ Nests 0 tokens ∧ depth tokens = 1 := by
  obtain ⟨out, ep, ev⟩ := exists_parse_of_calculate h
  obtain ⟨t, rfl, _⟩ := evaluateWith_eq_some_iff.1 ev
  obtain ⟨tokens, reads, nests, perm⟩ := exists_reads_of_parse ep
  refine ⟨tokens, reads, nests, ?_⟩
  rw [← depth_bare, ← depth_perm perm, t.depth_postorder]

/-- A separated text with a value is a sentence. -/
lemma sentence_of_calculate {l v} (hs : Separated (Text.strip l)) (h : calculate l = .ok (some v)) :
    Sentence (Text.strip l) := by
  obtain ⟨tokens, reads, nests, one⟩ := exists_tokens_of_calculate h
  exact reads.sentence hs one nests .nil begun_nil

/-- Without a result are some `(` and then as many `)`. -/
lemma calculate_eq_none_iff {l} :
    calculate l = .ok none ↔ ∃ n, Text.strip l = List.replicate n '(' ++ List.replicate n ')' := by
  refine ⟨fun h => ?_, fun ⟨n, e⟩ => ?_⟩
  · obtain ⟨out, ep, ev⟩ := exists_parse_of_calculate h
    cases evaluateWith_eq_none_iff.1 ev
    obtain ⟨tokens, reads, nests, perm⟩ := exists_reads_of_parse ep
    obtain ⟨n, e, _⟩ := reads.exists_parens perm.nil_eq.symm nests
    rw [Nat.zero_add] at e
    exact ⟨n, e⟩
  · have reads := reads_replicate_opening (reads_replicate_closing false n) n
    rw [← e] at reads
    obtain ⟨lexemes, et, items⟩ := (yields_ofChars_iff.2 reads).exists_lexemes
    have nests : Nests 0 (lexemes.map Lexeme.token) := by
      rw [et]
      refine nests_replicate_opening ?_
      rw [Nat.zero_add]
      exact nests_replicate_closing n
    -- what is written is what is left without the parentheses
    obtain ⟨out, ep⟩ := exists_parse_of_nests items nests
    obtain ⟨lexemes', items', perm, _⟩ := exists_lexemes_of_parse ep
    have same := List.map_injective_iff.2 (fun _ _ => Except.ok.inj) (items.symm.trans items')
    rw [← same, et, bare_append, bare_replicate_paren, bare_replicate_paren] at perm
    rw [perm.eq_nil] at ep
    rw [calculate, ep]
    rfl

/-- A separated text has a value if and only if it is a sentence. What has a value nests, with one
operand more than operators. Only some `(` and as many `)` have no result, and any other separated
text is an error. -/
theorem calculate_outcome (l : List Char) :
    (Sentence (Text.strip l) ↔ Separated (Text.strip l) ∧ ∃ v, calculate l = .ok (some v)) ∧
    (∀ v, calculate l = .ok (some v) →
      ∃ tokens, Yields (Item.ofChars l) tokens ∧ Nests 0 tokens ∧ depth tokens = 1) ∧
    (calculate l = .ok none ↔
      ∃ n, Text.strip l = List.replicate n '(' ++ List.replicate n ')') ∧
    (Separated (Text.strip l) → ¬Sentence (Text.strip l) →
      (∀ n, Text.strip l ≠ List.replicate n '(' ++ List.replicate n ')') →
        ∃ e, calculate l = .error e) := by
  refine ⟨⟨?_, ?_⟩, fun v h => ?_, calculate_eq_none_iff, fun hs hn parens => ?_⟩
  · intro ⟨t, h⟩
    exact ⟨h.separated, _, calculate_of_parse h.parse_eq⟩
  · intro ⟨hs, v, h⟩
    exact sentence_of_calculate hs h
  · obtain ⟨tokens, reads, nests, one⟩ := exists_tokens_of_calculate h
    exact ⟨tokens, yields_ofChars_iff.2 reads, nests, one⟩
  · cases e : calculate l with
    | error e' => exact ⟨e', rfl⟩
    | ok result =>
      cases result with
      | some v => exact absurd (sentence_of_calculate hs e) hn
      | none =>
        obtain ⟨n, en⟩ := calculate_eq_none_iff.1 e
        exact absurd en (parens n)

/-- Operators in the wrong order can have a value, and an empty group is no error. -/
theorem exists_value_of_no_sentence :
    calculate "(2)3+".toList = .ok (some 5) ∧ ¬Sentence (Text.strip "(2)3+".toList) ∧
      calculate "()".toList = .ok none ∧ ¬Sentence (Text.strip "()".toList) := by
  have empty : calculate "()".toList = .ok none := by decide +kernel
  refine ⟨by decide +kernel, fun ⟨t, h⟩ => ?_, empty, fun ⟨t, h⟩ => ?_⟩
  · exact absurd h.separated (by decide)
  · have value := calculate_of_parse h.parse_eq
    rw [empty] at value
    cases value

end Calculator
