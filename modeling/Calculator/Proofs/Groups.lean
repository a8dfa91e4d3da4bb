import Calculator.Proofs.Grammar.Rejection
import Calculator.Proofs.Spelling

/-!
# Groups

What stands in a group is arranged as if it stood alone: inside of the group an arrangement takes
the same steps, and nothing that waits outside is reached (`Arrangement.run_inside`). At its end the
group has written what its inside is arranged to, as the end of an expression would have
(`Arrangement.run_group`). It is read in the same way too, since nothing is implied behind a `(`,
and a numeral goes on neither into the group nor out of it (`Reads.close`). So groups compose
(`parse_groups`).
-/

namespace Calculator

namespace Arrangement

/-- The arrangement `a` inside of a group that was opened in `outer`. -/
def inside (outer : Arrangement) (start : Span) (a : Arrangement) : Arrangement where
  written := outer.written ++ a.written
  waiting := a.waiting
  groups := a.groups ++ ⟨start, outer.waiting⟩ :: outer.groups

variable {outer a b : Arrangement} {start place : Span} {items : List Item} {out : List Token}

/-- A group begins with nothing inside. -/
lemma openGroup_eq_inside : outer.openGroup start = outer.inside start {} := by
  rw [openGroup, inside, Array.append_empty]
  rfl

/-- Operators are written behind what was written before. -/
lemma write_append_array {written written' : Array Token} {ops} :
    write (written ++ written') ops = written ++ write written' ops := by
  refine Array.ext' ?_
  simp [write]

/-- No step inside of a group reaches below its `(`. -/
lemma step_inside {item} (h : a.step item = .ok b) :
    (outer.inside start a).step item = .ok (outer.inside start b) := by
  match item with
  | .error e => cases h
  | .ok ⟨.number value, span⟩ =>
    cases h
    simp only [step, inside, Array.append_push]
  | .ok ⟨.operator op, span⟩ =>
    cases h
    simp only [step, addOperator, inside, write_append_array]
  | .ok ⟨.paren .opening, span⟩ =>
    cases h
    rfl
  | .ok ⟨.paren .closing, span⟩ =>
    cases eg : a.groups with
    | nil =>
      rw [step_closing_of_nil eg] at h
      cases h
    | cons group groups =>
      have opened : (outer.inside start a).groups =
          group :: (groups ++ ⟨start, outer.waiting⟩ :: outer.groups) := by
        rw [inside, eg, List.cons_append]
      rw [step_closing eg] at h
      cases h
      rw [step_closing opened, inside, inside, write_append_array]

/-- By induction, a run inside of a group is the run on its own. -/
lemma run_inside (h : a.run items = .ok b) :
    (outer.inside start a).run items = .ok (outer.inside start b) := by
  induction items generalizing a with
  | nil =>
    cases h
    rfl
  | cons item items ih =>
    obtain ⟨c, step, run⟩ := exists_step_of_run h
    rw [run_cons (step_inside step), ih run]

/-- A group writes what its inside is arranged to, and no more. -/
lemma run_group (h : ofItems items = .ok out) :
    outer.run (.ok ⟨.paren .opening, start⟩ :: items ++ [.ok ⟨.paren .closing, place⟩]) =
      .ok { outer with written := outer.written ++ out } := by
  rw [ofItems_eq] at h
  cases run : Arrangement.run {} items with
  | error e =>
    rw [run] at h
    cases h
  | ok a =>
    have finish : a.finish = .ok out := by
      rw [run] at h
      exact h
    cases eg : a.groups with
    | cons group groups =>
      rw [Arrangement.finish, eg] at finish
      cases finish
    | nil =>
      rw [Arrangement.finish, eg] at finish
      cases finish
      -- the run inside the group begins with nothing that waits and ends with no open group
      have first : outer.step (.ok ⟨.paren .opening, start⟩) = .ok (outer.inside start {}) := by
        rw [← openGroup_eq_inside]
        rfl
      have last : (outer.inside start a).groups = ⟨start, outer.waiting⟩ :: outer.groups := by
        rw [inside, eg, List.nil_append]
      have written : write (outer.written ++ a.written) a.waiting =
          outer.written ++ (write a.written a.waiting).toList := by
        refine Array.ext' ?_
        simp [write]
      rw [List.cons_append, run_cons first, run_concat (run_inside run), step_closing last, inside,
        written]

end Arrangement

/-- Lexemes of these tokens are arranged to `out`. -/
def Writes (tokens out : List Token) : Prop :=
  ∀ lexemes : List Lexeme, lexemes.map Lexeme.token = tokens →
    Arrangement.ofItems (lexemes.map .ok) = .ok out

variable {l m : List Char} {tokens rest out : List Token}

/-- Places have no part in what tokens are arranged to. -/
lemma writes_of_ofItems {lexemes : List Lexeme}
    (h : Arrangement.ofItems (lexemes.map .ok) = .ok out) :
    Writes (lexemes.map Lexeme.token) out := by
  intro others same
  have tokens : List.Forall₂ Eq (lexemes.map Lexeme.token) (others.map Lexeme.token) := by
    rw [same, List.forall₂_eq_eq_eq]
  rw [List.forall₂_map_left_iff, List.forall₂_map_right_iff] at tokens
  have alike : List.Forall₂ (Item.Alike fun _ _ => True) (lexemes.map .ok) (others.map .ok) := by
    rw [List.forall₂_map_left_iff, List.forall₂_map_right_iff]
    refine tokens.imp fun ⟨token, s⟩ ⟨token', t⟩ e => ?_
    cases e
    exact .ok trivial
  have agrees := Arrangement.ofItems_agrees alike
  rw [h] at agrees
  generalize Arrangement.ofItems (others.map .ok) = result at agrees ⊢
  cases agrees with
  | ok e => rw [e]

/-- An arrangement depends on the tokens that are read only. -/
lemma parse_eq_ok_iff : parse l = .ok out ↔
    ∃ tokens, Reads false (Text.strip l) tokens ∧ Writes tokens out := by
  refine ⟨fun h => ?_, fun ⟨tokens, reads, writes⟩ => ?_⟩
  · obtain ⟨lexemes, items, -, -⟩ := exists_lexemes_of_parse h
    rw [parse, items] at h
    exact ⟨_, yields_ofChars_iff.1 (items ▸ yields_map_ok lexemes), writes_of_ofItems h⟩
  · obtain ⟨lexemes, et, items⟩ := (yields_ofChars_iff.2 reads).exists_lexemes
    rw [parse, items]
    exact writes lexemes et

/-- The tokens of a group. -/
def enclosed (tokens : List Token) : List Token :=
  .paren .opening :: tokens ++ [.paren .closing]

section
variable {left right l' r' : List Token}

/-- A group of such tokens writes what they are arranged to. -/
lemma Writes.run_enclosed {outer : Arrangement} {lexemes : List Lexeme} (h : Writes tokens out)
    (et : lexemes.map Lexeme.token = enclosed tokens) :
    outer.run (lexemes.map .ok) = .ok { outer with written := outer.written ++ out } := by
  obtain ⟨⟨token, start⟩, more, rfl, rfl, em⟩ := List.map_eq_cons_iff.1 et
  obtain ⟨inside, last, rfl, ei, el⟩ := List.map_eq_append_iff.1 em
  obtain ⟨⟨token, place⟩, none, rfl, rfl, en⟩ := List.map_eq_cons_iff.1 el
  cases List.map_eq_nil_iff.1 en
  rw [List.map_cons, List.map_append]
  exact Arrangement.run_group (h inside ei)

/-- A group alone is arranged as its inside. -/
lemma Writes.enclose (h : Writes tokens out) : Writes (enclosed tokens) out := by
  intro lexemes et
  rw [Arrangement.ofItems_eq, h.run_enclosed et]
  show Except.ok _ = _
  simp [Arrangement.write]

/-- An operator between two groups is written behind what they write. -/
lemma Writes.join (hl : Writes left l') (hr : Writes right r') (op : Operator) :
    Writes (enclosed left ++ .operator op :: enclosed right) (l' ++ r' ++ [.operator op]) := by
  intro lexemes et
  obtain ⟨first, more, rfl, ef, em⟩ := List.map_eq_append_iff.1 et
  obtain ⟨⟨token, span⟩, second, rfl, rfl, es⟩ := List.map_eq_cons_iff.1 em
  -- the first group leaves nothing that waits, so the operator waits alone
  rw [Arrangement.ofItems_eq, List.map_append, List.map_cons,
    Arrangement.run_append (hl.run_enclosed ef), Arrangement.run_cons rfl, hr.run_enclosed es]
  show Except.ok _ = _
  simp [Arrangement.write, Arrangement.addOperator]

end

/-- A `)` ends what is read before it. -/
lemma Reads.close {after} (h : Reads after l tokens) (hm : Reads true m rest) :
    Reads after (l ++ ')' :: m) (tokens ++ .paren .closing :: rest) := by
  induction h with
  | nil => exact .closing hm
  | @numeral _ n l _ numeral head _ ih =>
    rw [List.append_assoc]
    refine .numeral numeral (fun c mem => ?_) ih
    cases l with
    | nil =>
      cases mem
      rfl
    | cons d l => exact head c mem
  | operator _ ih => exact .operator ih
  | opening _ ih => exact .opening ih
  | product _ ih => exact .product ih
  | closing _ ih => exact .closing ih

/-- Parentheses around a text are read as a group. -/
lemma Reads.enclose (h : Reads false l tokens) :
    Reads false ('(' :: l ++ [')']) (enclosed tokens) :=
  .opening (h.close .nil)

/-- A group is read on its own before what comes behind it. -/
lemma Reads.enclose_append (h : Reads false l tokens) (hm : Reads true m rest) :
    Reads false (('(' :: l ++ [')']) ++ m) (enclosed tokens ++ rest) := by
  rw [enclosed, List.append_assoc, List.append_assoc]
  exact .opening (h.close hm)

/-- Behind an operand a group is read with its implied product. -/
lemma Reads.multiply_enclose (h : Reads false l tokens) :
    Reads true ('(' :: l ++ [')']) (.operator .multiply :: enclosed tokens) :=
  .product (h.close .nil)

/-- Parentheses are no blanks. -/
lemma strip_enclose (l : List Char) :
    Text.strip ('(' :: l ++ [')']) = '(' :: Text.strip l ++ [')'] := by
  rw [Text.strip_append, Text.strip_cons_of_not_isBlank (by decide)]
  rfl

/-- A group is arranged as its inside, and two groups to both of theirs and then the operator
between them, which is a multiplication if it is left implied. -/
theorem parse_groups {a b : List Char} {ta tb : List Token} (ha : parse a = .ok ta)
    (hb : parse b = .ok tb) :
    parse ('(' :: a ++ [')']) = .ok ta ∧
      (∀ op : Operator, parse (('(' :: a ++ [')']) ++ op.char :: ('(' :: b ++ [')'])) =
        .ok (ta ++ tb ++ [.operator op])) ∧
      parse (('(' :: a ++ [')']) ++ ('(' :: b ++ [')'])) =
        .ok (ta ++ tb ++ [.operator .multiply]) := by
  obtain ⟨left, ra, wa⟩ := parse_eq_ok_iff.1 ha
  obtain ⟨right, rb, wb⟩ := parse_eq_ok_iff.1 hb
  refine ⟨parse_eq_ok_iff.2 ⟨_, ?_, wa.enclose⟩, fun op => parse_eq_ok_iff.2 ⟨_, ?_, wa.join wb op⟩,
    parse_eq_ok_iff.2 ⟨_, ?_, wa.join wb .multiply⟩⟩
  · rw [strip_enclose]
    exact ra.enclose
  · have symbol : (Token.operator op).symbol? = some op.char := rfl
    rw [Text.strip_append, Text.strip_cons_of_not_isBlank (Text.isBlank_of_symbol? symbol),
      strip_enclose, strip_enclose]
    exact ra.enclose_append (.operator rb.enclose)
  · rw [Text.strip_append, strip_enclose, strip_enclose]
    exact ra.enclose_append rb.multiply_enclose

/-- What is enclosed need not be a sentence. -/
theorem parse_groups_operators :
    parse " ".toList = .ok [] ∧ parse "-(/)".toList = .ok [.operator .divide, .operator .subtract] ∧
      parse ('(' :: " ".toList ++ [')']) = .ok [] ∧
      (∀ op : Operator,
        parse (('(' :: " ".toList ++ [')']) ++ op.char :: ('(' :: "-(/)".toList ++ [')'])) =
        .ok ([] ++ [.operator .divide, .operator .subtract] ++ [.operator op])) ∧
      parse (('(' :: " ".toList ++ [')']) ++ ('(' :: "-(/)".toList ++ [')'])) =
        .ok ([] ++ [.operator .divide, .operator .subtract] ++ [.operator .multiply]) := by
  have blank : parse " ".toList = .ok [] := by decide +kernel
  have operators : parse "-(/)".toList = .ok [.operator .divide, .operator .subtract] := by
    decide +kernel
  exact ⟨blank, operators, parse_groups blank operators⟩

end Calculator
