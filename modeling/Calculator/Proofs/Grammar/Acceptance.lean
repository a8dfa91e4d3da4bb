import Calculator.Calculation
import Calculator.Proofs.Arrangement.Precedence
import Calculator.Proofs.Evaluation
import Calculator.Proofs.Grammar.Reading
import Calculator.Proofs.Grammar.Sentence

/-!
# Sentences are calculated

By induction on derivations, a phrase is read as tokens that arrange to its operator tree, at the
precedence level that its kind calls for (`Derives.exists_tokens`). So an expression that is a
sentence is arranged to the listing of its tree and has the value of the tree
(`calculate_of_derives`).
-/

namespace Calculator

/-- How tightly the operators of a phrase bind outside of its groups. -/
def Phrase.level : Phrase → Nat
  | expression => 1
  | term => 2
  | factor | group => 3

/-- The text is read as these tokens before all that goes on with no numeral. -/
def Spells (after : Bool) (l : List Char) (tokens : List Token) : Prop :=
  ∀ m rest, (∀ c ∈ m.head?, Decimal.isNumeral c = false) → Reads true m rest →
    Reads after (l ++ m) (tokens ++ rest)

/-- Texts one after the other are read one after the other. -/
lemma Spells.append {after l m left right} (hl : Spells after l left) (hm : Spells true m right)
    (head : ∀ n, ∀ c ∈ (m ++ n).head?, Decimal.isNumeral c = false) :
    Spells after (l ++ m) (left ++ right) := by
  intro n rest hn h
  rw [List.append_assoc, List.append_assoc]
  exact hl (m ++ n) (right ++ rest) (head n) (hm n rest hn h)

/-- An operator stands in front of what is read behind it. -/
lemma Spells.operator {after op m right} (hm : Spells false m right) :
    Spells after (op.char :: m) (.operator op :: right) := by
  intro n rest hn h
  exact .operator (hm n rest hn h)

/-- A group is read as what it encloses, between parentheses. -/
lemma Spells.enclose {l tokens} (hl : Spells false l tokens) :
    Spells false ('(' :: l ++ [')']) (.paren .opening :: tokens ++ [.paren .closing]) ∧
      Spells true ('(' :: l ++ [')'])
        (.operator .multiply :: .paren .opening :: tokens ++ [.paren .closing]) := by
  have inside : ∀ n rest, Reads true n rest →
      Reads false (l ++ ')' :: n) (tokens ++ .paren .closing :: rest) := by
    intro n rest h
    exact hl _ _ (by simp [Decimal.isNumeral]) (.closing h)
  refine ⟨?_, ?_⟩
  · intro n rest _ h
    simp only [List.cons_append, List.append_assoc]
    exact .opening (inside n rest h)
  · intro n rest _ h
    simp only [List.cons_append, List.append_assoc]
    exact .product (inside n rest h)

/-- A phrase is read as tokens that arrange to its tree. -/
lemma Derives.exists_tokens {k l t} (h : Derives k l t) :
    ∃ tokens, Arranges k.level tokens t ∧ Spells false l tokens ∧
      (k = .group → Spells true l (.operator .multiply :: tokens)) := by
  induction h with
  | ofTerm _ ih =>
    obtain ⟨tokens, ha, hs, _⟩ := ih
    exact ⟨tokens, ha.lower (Nat.le_succ 1), hs, fun e => by cases e⟩
  | sum hop _ _ ihl ihm =>
    obtain ⟨left, hla, hls, _⟩ := ihl
    obtain ⟨right, hma, hms, _⟩ := ihm
    refine ⟨_, hla.join ?_ hma, hls.append hms.operator (by simp), fun e => by cases e⟩
    rcases hop with rfl | rfl
    · rfl
    · rfl
  | ofFactor _ ih =>
    obtain ⟨tokens, ha, hs, _⟩ := ih
    exact ⟨tokens, ha.lower (Nat.le_succ 2), hs, fun e => by cases e⟩
  | product hop _ _ ihl ihm =>
    obtain ⟨left, hla, hls, _⟩ := ihl
    obtain ⟨right, hma, hms, _⟩ := ihm
    refine ⟨_, hla.join ?_ hma, hls.append hms.operator (by simp), fun e => by cases e⟩
    rcases hop with rfl | rfl
    · rfl
    · rfl
  | juxtaposition _ hm ihl ihm =>
    obtain ⟨left, hla, hls, _⟩ := ihl
    obtain ⟨right, hma, _, hms⟩ := ihm
    -- the factor ends an operand, so the `(` of the group is read as a product
    obtain ⟨inside, rfl, _⟩ := hm.exists_of_group
    exact ⟨_, hla.join rfl hma, hls.append (hms rfl) (by simp [Decimal.isNumeral]),
      fun e => by cases e⟩
  | numeral h =>
    refine ⟨_, .number, fun m rest head hm => ?_, fun e => by cases e⟩
    exact .numeral h head hm
  | ofGroup _ ih =>
    obtain ⟨tokens, ha, hs, _⟩ := ih
    exact ⟨tokens, ha, hs, fun e => by cases e⟩
  | enclose _ ih =>
    obtain ⟨tokens, ha, hs, _⟩ := ih
    exact ⟨_, ha.enclose, hs.enclose.1, fun _ => hs.enclose.2⟩

/-- A sentence is arranged to the listing of its tree. -/
lemma Derives.parse_eq {l t} (h : Derives .expression (Text.strip l) t) :
    parse l = .ok t.postorder := by
  obtain ⟨tokens, ha, hs, _⟩ := h.exists_tokens
  have reads := hs [] [] (by simp) .nil
  rw [List.append_nil, List.append_nil] at reads
  obtain ⟨lexemes, et, items⟩ := (yields_ofChars_iff.2 reads).exists_lexemes
  rw [parse, items]
  exact ha.ofItems et

/-- An arranged listing has the value of its tree. -/
lemma calculate_of_parse {l} {t : Tree} (h : parse l = .ok t.postorder) :
    calculate l = .ok (some (t.value Operator.apply)) := by
  have value : evaluate t.postorder = .ok (some (t.value Operator.apply)) :=
    evaluateWith_eq_some_iff.2 ⟨t, rfl, rfl⟩
  simp only [calculate, h, value]
  rfl

/-- A sentence is arranged to the listing of its tree, which has the value of the tree, whatever the
operations, and so has the expression. -/
theorem calculate_of_derives {l t} (h : Derives .expression (Text.strip l) t) :
    parse l = .ok t.postorder ∧
      (∀ apply, evaluateWith apply t.postorder = .ok (some (t.value apply))) ∧
      calculate l = .ok (some (t.value Operator.apply)) :=
  ⟨h.parse_eq, fun _ => evaluateWith_eq_some_iff.2 ⟨t, rfl, rfl⟩, calculate_of_parse h.parse_eq⟩

/-- Blanks stand inside a numeral, and a group behind it multiplies it. -/
theorem calculate_of_derives_product :
    ∃ t, Derives .expression (Text.strip " 1 2 (3 + 4)".toList) t ∧
      parse " 1 2 (3 + 4)".toList = .ok t.postorder ∧
      (∀ apply, evaluateWith apply t.postorder = .ok (some (t.value apply))) ∧
      calculate " 1 2 (3 + 4)".toList = .ok (some (t.value Operator.apply)) := by
  have text : Text.strip " 1 2 (3 + 4)".toList =
      ['1', '2'] ++ ('(' :: (['3'] ++ Operator.add.char :: ['4']) ++ [')']) := by decide
  have twelve : Numeral ['1', '2'] := by decide
  have three : Numeral ['3'] := by decide
  have four : Numeral ['4'] := by decide
  have inside := Derives.sum (.inl rfl) (.ofTerm (.ofFactor (.numeral three)))
    (.ofFactor (.numeral four))
  have derives := Derives.ofTerm (.juxtaposition (.ofFactor (.numeral twelve)) (.enclose inside))
  rw [← text] at derives
  exact ⟨_, derives, calculate_of_derives derives⟩

end Calculator
