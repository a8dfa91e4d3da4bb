import Calculator.Text.Line
import Mathlib.Data.List.Basic
import Mathlib.Tactic.Lemma
import Mathlib.Tactic.SplitIfs

/-!
# Cutting a text into lines

`Cut` says which lines a text has, without saying how they are found: each of them is free of line
feeds, and behind it there is a line end or, if it is the last one and not empty, nothing. There is
exactly one such list of lines, the one that `cutLines` finds (`cut_iff`).
-/

namespace Calculator.Text

variable {α : Type}

/-- The text has these lines. -/
inductive Cut (feed carriage : α) : List α → List (List α) → Prop where
  | nil :
    Cut feed carriage [] []
  | last {line : List α} :
    line ≠ [] →
    feed ∉ line →
    Cut feed carriage line [line]
  | feed {line l ls} :
    feed ∉ line →
    carriage ∉ line.getLast? →
    Cut feed carriage l ls →
    Cut feed carriage (line ++ feed :: l) (line :: ls)
  | carriage {line l ls} :
    feed ∉ line →
    Cut feed carriage l ls →
    Cut feed carriage (line ++ carriage :: feed :: l) (line :: ls)

variable {feed carriage a : α} {l line : List α} {ls : List (List α)}

/-- A character that belongs to no line end lengthens the first line. -/
lemma Cut.cons (h : Cut feed carriage l ls) (hf : a ≠ feed)
    (hc : ¬(a = carriage ∧ l.head? = some feed)) :
    Cut feed carriage (a :: l) (prependToFirst a ls) := by
  cases h with
  | nil => exact .last (List.cons_ne_nil _ _) (by simpa using hf.symm)
  | last ne free =>
    exact .last (List.cons_ne_nil _ _) (List.not_mem_cons_of_ne_of_not_mem hf.symm free)
  | @feed line l ls free last h =>
    refine @Cut.feed _ _ _ (a :: line) _ _ (List.not_mem_cons_of_ne_of_not_mem hf.symm free) ?_ h
    cases line with
    | nil =>
      rintro ⟨⟩
      exact hc ⟨rfl, rfl⟩
    | cons b line => exact last
  | @carriage line l ls free h =>
    exact @Cut.carriage _ _ _ (a :: line) _ _ (List.not_mem_cons_of_ne_of_not_mem hf.symm free) h

/-- A line feed at the start ends an empty line. -/
lemma Cut.exists_of_cons_feed (ne : feed ≠ carriage) (h : Cut feed carriage (feed :: l) ls) :
    ∃ ls', ls = [] :: ls' ∧ Cut feed carriage l ls' := by
  generalize e : feed :: l = m at h
  cases h with
  | nil => cases e
  | last _ free =>
    rw [← e] at free
    exact absurd List.mem_cons_self free
  | @feed line _ ls free _ h =>
    cases line with
    | nil =>
      cases e
      exact ⟨ls, rfl, h⟩
    | cons b line =>
      -- the line would hold its own line feed
      cases e
      exact absurd List.mem_cons_self free
  | @carriage line _ ls free h =>
    cases line with
    | nil =>
      cases e
      exact absurd rfl ne
    | cons b line =>
      cases e
      exact absurd List.mem_cons_self free

/-- Characters in front come to the first line. -/
lemma foldr_prependToFirst (line first : List α) (ls : List (List α)) :
    line.foldr prependToFirst (first :: ls) = (line ++ first) :: ls := by
  induction line with
  | nil => rfl
  | cons a line ih => rw [List.foldr_cons, ih, prependToFirst, List.cons_append]

variable [DecidableEq α]

/-- The lines that are found are lines of the text. -/
lemma cut_cutLines (ne : feed ≠ carriage) (l : List α) :
    Cut feed carriage l (cutLines feed carriage l) := by
  induction l with
  | nil => exact .nil
  | cons a l ih =>
    rw [cutLines]
    split_ifs with hf hc
    · subst hf
      exact @Cut.feed _ _ _ [] _ _ List.not_mem_nil nofun ih
    · obtain ⟨rfl, head⟩ := hc
      obtain ⟨l, rfl⟩ := List.head?_eq_some_iff.1 head
      obtain ⟨ls, e, h⟩ := ih.exists_of_cons_feed ne
      rw [e]
      exact @Cut.carriage _ _ _ [] _ _ List.not_mem_nil h
    · exact ih.cons hf hc

/-- Characters without a line end among them lengthen the first line. -/
lemma cutLines_append (free : feed ∉ line) (h : carriage ∉ line.getLast? ∨ l.head? ≠ some feed) :
    cutLines feed carriage (line ++ l) = line.foldr prependToFirst (cutLines feed carriage l) := by
  induction line with
  | nil => rfl
  | cons a line ih =>
    obtain ⟨hf, free⟩ := List.ne_and_not_mem_of_not_mem_cons free
    -- a carriage return at the end of the line must not stand in front of a line feed
    have hc : ¬(a = carriage ∧ (line ++ l).head? = some feed) := by
      rintro ⟨rfl, head⟩
      cases line with
      | nil => exact h.elim (· rfl) (· head)
      | cons b line =>
        cases head
        exact free List.mem_cons_self
    have rest : carriage ∉ line.getLast? ∨ l.head? ≠ some feed := by
      cases line with
      | nil => exact .inl nofun
      | cons b line => exact h
    rw [List.cons_append, cutLines, if_neg hf.symm, if_neg hc, ih free rest, List.foldr_cons]

/-- The lines of a text are found. -/
lemma Cut.cutLines_eq (ne : feed ≠ carriage) (h : Cut feed carriage l ls) :
    cutLines feed carriage l = ls := by
  induction h with
  | nil => rfl
  | @last line nonempty free =>
    have cut : cutLines feed carriage (line ++ []) = _ := cutLines_append free (.inr nofun)
    rw [List.append_nil, cutLines] at cut
    rw [cut, ← List.dropLast_concat_getLast nonempty, List.foldr_append, List.foldr_cons,
      List.foldr_nil, prependToFirst, foldr_prependToFirst]
  | @feed line l ls free last h ih =>
    rw [cutLines_append free (.inl last), cutLines, if_pos rfl, foldr_prependToFirst,
      List.append_nil, ih]
  | @carriage line l ls free h ih =>
    have head : (carriage :: feed :: l).head? ≠ some feed := fun e => ne (Option.some.inj e).symm
    rw [cutLines_append free (.inr head), cutLines, if_neg ne.symm, if_pos ⟨rfl, rfl⟩, cutLines,
      if_pos rfl, foldr_prependToFirst, List.append_nil, ih]

/-- The lines that are found are the lines, and no others are. -/
theorem cut_iff (ne : feed ≠ carriage) : Cut feed carriage l ls ↔ cutLines feed carriage l = ls :=
  ⟨fun h => h.cutLines_eq ne, fun e => e ▸ cut_cutLines ne l⟩

end Calculator.Text
