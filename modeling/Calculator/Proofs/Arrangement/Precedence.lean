import Calculator.Proofs.Arrangement.Run
import Calculator.Proofs.Tree

/-!
# Precedence

Tokens `Arrange` to a tree at a precedence level if taking them in, behind operators that bind less
tightly, writes the listing of the tree but for some operators at its end, which bind at least as
tightly as the level and wait. Numbers and groups arrange at every level, and an operator joins what
arranges at its own level on the left and above it on the right (`Arranges.join`): this is how
precedence and grouping to the left come about.
-/

namespace Calculator

/-- Lexemes of these tokens are arranged to the listing of the tree. -/
def Arranges (level : Nat) (tokens : List Token) (t : Tree) : Prop :=
  ∀ (lexemes : List Lexeme) (a : Arrangement), lexemes.map Lexeme.token = tokens →
    (∀ op ∈ a.waiting, op.precedence < level) →
    ∃ written ops, written ++ ops.map Token.operator = t.postorder ∧
      (∀ op ∈ ops, level ≤ op.precedence) ∧
      a.run (lexemes.map .ok) = .ok ⟨a.written ++ written, ops ++ a.waiting, a.groups⟩

/-- What binds tightly enough for a level does so for a lower one. -/
lemma Arranges.lower {level high tokens t} (h : Arranges high tokens t) (le : level ≤ high) :
    Arranges level tokens t := by
  intro lexemes a et loose
  obtain ⟨written, ops, ep, tight, run⟩ :=
    h lexemes a et fun op mem => Nat.lt_of_lt_of_le (loose op mem) le
  exact ⟨written, ops, ep, fun op mem => Nat.le_trans le (tight op mem), run⟩

/-- A number is a tree by itself. -/
lemma Arranges.number {level value} : Arranges level [.number value] (.number value) := by
  intro lexemes a et loose
  obtain ⟨⟨token, span⟩, rest, rfl, rfl, er⟩ := List.map_eq_cons_iff.1 et
  cases List.map_eq_nil_iff.1 er
  refine ⟨[.number value], [], rfl, by simp, ?_⟩
  rfl

/-- An operator joins a left operand of its level and a tighter right one. -/
lemma Arranges.join {level left right op t u} (hp : op.precedence = level)
    (hl : Arranges level left t) (hr : Arranges (level + 1) right u) :
    Arranges level (left ++ .operator op :: right) (.node op t u) := by
  intro lexemes a et loose
  obtain ⟨l, rest, rfl, el, eo⟩ := List.map_eq_append_iff.1 et
  obtain ⟨⟨token, span⟩, r, rfl, rfl, er⟩ := List.map_eq_cons_iff.1 eo
  obtain ⟨lwritten, lops, elp, ltight, lrun⟩ := hl l a el loose
  subst hp
  -- what waits from the left operand binds at least as tightly, so the operator writes it
  have step : Arrangement.step ⟨a.written ++ lwritten, lops ++ a.waiting, a.groups⟩
      (.ok ⟨.operator op, span⟩) = .ok ⟨a.written ++ t.postorder, op :: a.waiting, a.groups⟩ := by
    rw [Arrangement.step_operator rfl ltight loose, Arrangement.write_append, elp]
  have loose' : ∀ top ∈ op :: a.waiting, top.precedence < op.precedence + 1 := by
    intro top mem
    rcases List.mem_cons.1 mem with rfl | mem
    · exact Nat.lt_succ_self _
    · exact Nat.lt_succ_of_lt (loose top mem)
  obtain ⟨rwritten, rops, erp, rtight, rrun⟩ := hr r ⟨_, op :: a.waiting, a.groups⟩ er loose'
  refine ⟨t.postorder ++ rwritten, rops ++ [op], ?_, ?_, ?_⟩
  · simp [Tree.postorder, ← erp]
  · intro top mem
    rcases List.mem_append.1 mem with mem | mem
    · exact Nat.le_of_succ_le (rtight top mem)
    · exact Nat.le_of_eq (by rw [List.mem_singleton.1 mem])
  · rw [List.map_append, List.map_cons, Arrangement.run_append lrun,
      Arrangement.run_cons step, rrun]
    simp only [List.append_assoc, List.singleton_append]
    congr 2
    refine Array.ext' ?_
    simp

/-- A group is written to its end, whatever waits outside of it. -/
lemma Arranges.enclose {level tokens t} (h : Arranges 1 tokens t) :
    Arranges level (.paren .opening :: tokens ++ [.paren .closing]) t := by
  intro lexemes a et loose
  obtain ⟨⟨token, start⟩, rest, rfl, rfl, er⟩ := List.map_eq_cons_iff.1 et
  obtain ⟨inside, last, rfl, ei, el⟩ := List.map_eq_append_iff.1 er
  obtain ⟨⟨token, place⟩, none, rfl, rfl, en⟩ := List.map_eq_cons_iff.1 el
  cases List.map_eq_nil_iff.1 en
  -- inside the group no operator waits yet, so nothing is asked of those outside
  obtain ⟨written, ops, ep, tight, run⟩ :=
    h inside (a.openGroup start) ei fun op mem => absurd mem List.not_mem_nil
  refine ⟨t.postorder, [], List.append_nil _, fun op mem => absurd mem List.not_mem_nil, ?_⟩
  have first : a.step (.ok ⟨.paren .opening, start⟩) = .ok (a.openGroup start) := rfl
  have waiting : (a.openGroup start).waiting = [] := rfl
  rw [List.map_cons, List.map_append, Arrangement.run_cons first, List.map_singleton,
    Arrangement.run_concat run, Arrangement.step_closing rfl, waiting, List.append_nil,
    Arrangement.write_append, ep]
  rfl

/-- Tokens that arrange to a tree are arranged to its listing. -/
lemma Arranges.ofItems {tokens t} (h : Arranges 1 tokens t) {lexemes : List Lexeme}
    (et : lexemes.map Lexeme.token = tokens) :
    Arrangement.ofItems (lexemes.map .ok) = .ok t.postorder := by
  obtain ⟨written, ops, ep, tight, run⟩ := h lexemes {} et (by simp)
  rw [Arrangement.ofItems_eq, run, ← ep]
  show Except.ok _ = _
  simp [Arrangement.write]

end Calculator
