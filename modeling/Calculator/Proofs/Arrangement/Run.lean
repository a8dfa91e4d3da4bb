import Calculator.ReversePolish.Arrangement
import Mathlib.Tactic.Lemma

/-!
# Runs of an arrangement

`Arrangement.run` takes in items one after the other until the first failure. A run over a list that
is put together goes on where the run over the first part ends (`Arrangement.run_append`).
-/

namespace Calculator.Arrangement

/-- Takes in items, one after the other. -/
def run (a : Arrangement) (items : List Item) : Except SyntaxError Arrangement :=
  items.foldlM step a

/-- To arrange is to run and to finish. -/
lemma ofItems_eq {items} : ofItems items = run {} items >>= finish := rfl

/-- Nothing to take in leaves an arrangement as it is. -/
@[simp] lemma run_nil {a : Arrangement} : a.run [] = .ok a := rfl

/-- A run goes on behind its first step. -/
lemma run_cons {a b : Arrangement} {item items} (h : a.step item = .ok b) :
    a.run (item :: items) = b.run items := by
  simp only [run, List.foldlM_cons, h]
  rfl

/-- A run that comes to its end has taken in the first item. -/
lemma exists_step_of_run {a b : Arrangement} {item items} (h : a.run (item :: items) = .ok b) :
    ∃ c, a.step item = .ok c ∧ c.run items = .ok b := by
  simp only [run, List.foldlM_cons] at h
  cases e : a.step item with
  | error e' =>
    rw [e] at h
    cases h
  | ok c =>
    rw [e] at h
    exact ⟨c, rfl, h⟩

/-- A run goes on from where it got to. -/
lemma run_append {a b : Arrangement} {l m} (h : a.run l = .ok b) : a.run (l ++ m) = b.run m := by
  rw [run] at h
  simp only [run, List.foldlM_append, h]
  rfl

/-- A step that fails ends a run, whatever comes behind it. -/
lemma run_append_of_error {a b : Arrangement} {l item m e} (h : a.run l = .ok b)
    (stop : b.step item = .error e) : a.run (l ++ item :: m) = .error e := by
  rw [run_append h]
  simp only [run, List.foldlM_cons, stop]
  rfl

/-- The last item of a run is one more step. -/
lemma run_concat {a b : Arrangement} {l item} (h : a.run l = .ok b) :
    a.run (l ++ [item]) = b.step item := by
  rw [run_append h]
  simp only [run, List.foldlM_cons, List.foldlM_nil, bind_pure]

/-- What is written and what waits behind it may be parted anywhere. -/
lemma write_append {written : Array Token} {l : List Token} {ops} :
    write (written ++ l) ops = written ++ (l ++ ops.map Token.operator) := by
  refine Array.ext' ?_
  simp [write]

/-- An operator waits behind those that bind less tightly. -/
lemma step_operator {a : Arrangement} {op span tight loose} (split : a.waiting = tight ++ loose)
    (ht : ∀ top ∈ tight, op.precedence ≤ top.precedence)
    (hl : ∀ top ∈ loose, top.precedence < op.precedence) :
    a.step (.ok ⟨.operator op, span⟩) = .ok ⟨write a.written tight, op :: loose, a.groups⟩ := by
  have head : (loose.takeWhile fun top => op.precedence ≤ top.precedence) = [] ∧
      (loose.dropWhile fun top => op.precedence ≤ top.precedence) = loose := by
    cases loose with
    | nil => exact ⟨rfl, rfl⟩
    | cons top loose =>
      have stop : ¬op.precedence ≤ top.precedence := Nat.not_le_of_lt (hl top List.mem_cons_self)
      simp [stop]
  simp only [step, addOperator, split]
  rw [List.takeWhile_append_of_pos (by simpa using ht),
    List.dropWhile_append_of_pos (by simpa using ht), head.1, head.2, List.append_nil]

/-- A `)` ends the innermost group. -/
lemma step_closing {a : Arrangement} {group groups span} (h : a.groups = group :: groups) :
    a.step (.ok ⟨.paren .closing, span⟩) =
      .ok ⟨write a.written a.waiting, group.outside, groups⟩ := by
  simp only [step, closeGroup, h]

/-- Without an open group a `)` is reported. -/
lemma step_closing_of_nil {a : Arrangement} {span} (h : a.groups = []) :
    a.step (.ok ⟨.paren .closing, span⟩) = .error (.unmatchedClosing span) := by
  simp only [step, closeGroup, h]

end Calculator.Arrangement
