import Calculator.Proofs.Arrangement.Run
import Calculator.Proofs.Tree

/-!
# What an arrangement keeps

An arrangement moves tokens and loses none but the parentheses: at any time it holds the others that
it has taken in, written or waiting (`Arrangement.exists_lexemes_of_run`). What it takes in to the
end `Nests`: every `)` ends an open group, and all groups are ended.
-/

namespace Calculator

/-- The tokens that are no parentheses. -/
def bare (tokens : List Token) : List Token :=
  tokens.filter fun token => token.isNumber || token.isOperator

/-- The empty sequence has no parentheses. -/
@[simp] lemma bare_nil : bare [] = [] := rfl

/-- Numbers are kept. -/
@[simp] lemma bare_number {value tokens} :
    bare (.number value :: tokens) = .number value :: bare tokens := rfl

/-- Operators are kept. -/
@[simp] lemma bare_operator {op tokens} :
    bare (.operator op :: tokens) = .operator op :: bare tokens := rfl

/-- Parentheses are left out. -/
@[simp] lemma bare_paren {side tokens} : bare (.paren side :: tokens) = bare tokens := rfl

/-- Parentheses are left out of each part. -/
lemma bare_append {l m} : bare (l ++ m) = bare l ++ bare m :=
  List.filter_append l m

/-- Nothing but parentheses leaves nothing. -/
lemma bare_replicate_paren {n side} : bare (List.replicate n (.paren side)) = [] := by
  induction n with
  | zero => rfl
  | succ n ih => exact ih

/-- Parentheses do not change the depth. -/
lemma depth_bare (tokens : List Token) : depth (bare tokens) = depth tokens := by
  induction tokens with
  | nil => rfl
  | cons token tokens ih =>
    cases token with
    | number value => simp [ih]
    | operator op => simp [ih]
    | paren side => simp [ih]

/-- The tokens end these open groups and each that they open. -/
inductive Nests : Nat → List Token → Prop where
  | nil :
    Nests 0 []
  | number {d value tokens} :
    Nests d tokens →
    Nests d (.number value :: tokens)
  | operator {d op tokens} :
    Nests d tokens →
    Nests d (.operator op :: tokens)
  | opening {d tokens} :
    Nests (d + 1) tokens →
    Nests d (.paren .opening :: tokens)
  | closing {d tokens} :
    Nests d tokens →
    Nests (d + 1) (.paren .closing :: tokens)

namespace Arrangement

/-- The tokens that are written or wait. -/
def held (a : Arrangement) : List Token :=
  a.written.toList ++ (a.waiting ++ a.groups.flatMap Group.outside).map Token.operator

/-- All operators that wait, the last one first. -/
def pending (a : Arrangement) : List Operator :=
  a.waiting ++ a.groups.flatMap Group.outside

/-- A step writes the last operators that wait, and then a number or none. -/
lemma exists_moved_of_step {a b : Arrangement} {lexeme} (h : a.step (.ok lexeme) = .ok b) :
    ∃ moved left, a.pending = moved ++ left ∧
      b.written.toList =
        a.written.toList ++ moved.map Token.operator ++ [lexeme.token].filter Token.isNumber ∧
      b.pending.map Token.operator =
        [lexeme.token].filter Token.isOperator ++ left.map Token.operator := by
  match lexeme with
  | ⟨.number value, span⟩ =>
    cases h
    refine ⟨[], a.pending, rfl, ?_, rfl⟩
    rw [List.map_nil, List.append_nil]
    exact Array.toList_push
  | ⟨.operator op, span⟩ =>
    cases h
    have waiting := List.takeWhile_append_dropWhile (l := a.waiting)
      (p := fun top => op.precedence ≤ top.precedence)
    refine ⟨a.waiting.takeWhile fun top => op.precedence ≤ top.precedence,
      (a.waiting.dropWhile fun top => op.precedence ≤ top.precedence) ++
        a.groups.flatMap Group.outside, ?_, ?_, rfl⟩
    · rw [pending, ← List.append_assoc, waiting]
    · simp [addOperator, write, Token.isNumber]
  | ⟨.paren .opening, span⟩ =>
    cases h
    refine ⟨[], a.pending, rfl, ?_, rfl⟩
    rw [List.map_nil, List.append_nil]
    exact (List.append_nil _).symm
  | ⟨.paren .closing, span⟩ =>
    cases eg : a.groups with
    | nil =>
      rw [step_closing_of_nil eg] at h
      cases h
    | cons group groups =>
      rw [step_closing eg] at h
      cases h
      -- what waits inside the group is written, and what waits outside waits again
      refine ⟨a.waiting, group.outside ++ groups.flatMap Group.outside, ?_, ?_, rfl⟩
      · rw [pending, eg, List.flatMap_cons]
      · simp [write, Token.isNumber]

/-- What waits comes behind what is written. -/
lemma held_eq (a : Arrangement) : a.held = a.written.toList ++ a.pending.map Token.operator := rfl

/-- What moves from those that wait to those that are written is kept. -/
lemma perm_append_moved {α : Type} (out moved left number operator : List α) :
    (out ++ moved ++ number ++ (operator ++ left)).Perm
      (out ++ (moved ++ left) ++ (number ++ operator)) := by
  simp only [List.append_assoc]
  refine (List.Perm.append_left _ ?_).append_left _
  rw [← List.append_assoc]
  exact List.perm_append_comm

/-- A step adds its token to those that are held. -/
lemma held_perm_of_step {a b : Arrangement} {lexeme} (h : a.step (.ok lexeme) = .ok b) :
    b.held.Perm (a.held ++ bare [lexeme.token]) := by
  obtain ⟨moved, left, pending, written, waits⟩ := exists_moved_of_step h
  have last : bare [lexeme.token] =
      [lexeme.token].filter Token.isNumber ++ [lexeme.token].filter Token.isOperator := by
    cases lexeme.token <;> rfl
  rw [held_eq, held_eq, written, waits, pending, last, List.map_append]
  exact perm_append_moved _ _ _ _ _

/-- What a step takes in is a token, which nests if what follows does. -/
lemma exists_lexeme_of_step {a b : Arrangement} {item} (h : a.step item = .ok b) :
    ∃ lexeme, item = .ok lexeme ∧
      ∀ rest, Nests b.groups.length rest → Nests a.groups.length (lexeme.token :: rest) := by
  match item with
  | .error e => cases h
  | .ok ⟨.number value, span⟩ =>
    cases h
    exact ⟨_, rfl, fun _ => .number⟩
  | .ok ⟨.operator op, span⟩ =>
    cases h
    exact ⟨_, rfl, fun _ => .operator⟩
  | .ok ⟨.paren .opening, span⟩ =>
    cases h
    exact ⟨_, rfl, fun _ => .opening⟩
  | .ok ⟨.paren .closing, span⟩ =>
    cases eg : a.groups with
    | nil =>
      rw [step_closing_of_nil eg] at h
      cases h
    | cons group groups =>
      rw [step_closing eg] at h
      cases h
      exact ⟨_, rfl, fun _ => .closing⟩

/-- A run takes in lexemes, holds them but for their parentheses, and nests them. -/
lemma exists_lexemes_of_run {a b : Arrangement} {items} (h : a.run items = .ok b) :
    ∃ lexemes : List Lexeme, items = lexemes.map .ok ∧
      b.held.Perm (a.held ++ bare (lexemes.map Lexeme.token)) ∧
      ∀ rest, Nests b.groups.length rest →
        Nests a.groups.length (lexemes.map Lexeme.token ++ rest) := by
  induction items generalizing a with
  | nil =>
    cases h
    exact ⟨[], rfl, by simp, fun _ => id⟩
  | cons item items ih =>
    obtain ⟨c, step, run⟩ := exists_step_of_run h
    obtain ⟨lexeme, rfl, hn⟩ := exists_lexeme_of_step step
    have hp := held_perm_of_step step
    obtain ⟨lexemes, rfl, hps, hns⟩ := ih run
    refine ⟨lexeme :: lexemes, rfl, ?_, fun rest hr => hn _ (hns rest hr)⟩
    refine hps.trans ((hp.append_right _).trans (.of_eq ?_))
    rw [List.append_assoc, ← bare_append]
    rfl

/-- Lexemes that nest in the open groups can be taken in. -/
lemma exists_run_of_nests {a : Arrangement} {lexemes : List Lexeme}
    (h : Nests a.groups.length (lexemes.map Lexeme.token)) :
    ∃ b : Arrangement, a.run (lexemes.map .ok) = .ok b ∧ b.groups = [] := by
  induction lexemes generalizing a with
  | nil =>
    generalize len : a.groups.length = d at h
    cases h
    exact ⟨a, rfl, List.eq_nil_of_length_eq_zero len⟩
  | cons lexeme lexemes ih =>
    obtain ⟨token, span⟩ := lexeme
    generalize len : a.groups.length = d at h
    cases h with
    | @number _ value _ h =>
      have step : a.step (.ok ⟨.number value, span⟩) =
        .ok { a with written := a.written.push (.number value) } := rfl
      rw [List.map_cons, run_cons step]
      subst len
      exact ih h
    | @operator _ op _ h =>
      have step : a.step (.ok ⟨.operator op, span⟩) = .ok (a.addOperator op) := rfl
      rw [List.map_cons, run_cons step]
      subst len
      exact ih h
    | opening h =>
      have step : a.step (.ok ⟨.paren .opening, span⟩) = .ok (a.openGroup span) := rfl
      rw [List.map_cons, run_cons step]
      subst len
      exact ih h
    | closing h =>
      obtain ⟨group, groups, eg⟩ := List.exists_cons_of_length_eq_add_one len
      rw [List.map_cons, run_cons (step_closing eg)]
      rw [eg] at len
      cases len
      exact ih h

end Arrangement

/-- What is arranged is lexemes that nest, without the parentheses. -/
lemma exists_lexemes_of_parse {l tokens} (h : parse l = .ok tokens) :
    ∃ lexemes : List Lexeme, Item.ofChars l = lexemes.map .ok ∧
      tokens.Perm (bare (lexemes.map Lexeme.token)) ∧ Nests 0 (lexemes.map Lexeme.token) := by
  rw [parse, Arrangement.ofItems_eq] at h
  cases run : Arrangement.run {} (Item.ofChars l) with
  | error e =>
    rw [run] at h
    cases h
  | ok a =>
    rw [run] at h
    obtain ⟨lexemes, items, hp, hn⟩ := Arrangement.exists_lexemes_of_run run
    have finish : a.finish = .ok tokens := h
    cases eg : a.groups with
    | nil =>
      rw [Arrangement.finish, eg] at finish
      cases finish
      have ends := hn [] (by rw [eg]; exact .nil)
      rw [List.append_nil] at ends
      refine ⟨lexemes, items, ?_, ends⟩
      simpa [Arrangement.held, Arrangement.write, eg] using hp
    | cons group groups =>
      rw [Arrangement.finish, eg] at finish
      cases finish

/-- Lexemes that nest can be arranged. -/
lemma exists_parse_of_nests {l} {lexemes : List Lexeme} (items : Item.ofChars l = lexemes.map .ok)
    (h : Nests 0 (lexemes.map Lexeme.token)) : ∃ tokens, parse l = .ok tokens := by
  obtain ⟨b, run, none⟩ := Arrangement.exists_run_of_nests (a := {}) h
  refine ⟨(Arrangement.write b.written b.waiting).toList, ?_⟩
  rw [parse, Arrangement.ofItems_eq, items, run]
  show b.finish = _
  rw [Arrangement.finish, none]

end Calculator
