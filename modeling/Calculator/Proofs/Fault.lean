import Mathlib.Data.List.Induction
import Mathlib.Tactic.Lemma

/-!
# First faults

A list is taken element by element from the left, and whether an element can be taken depends on
those before it: `unfit done x` says that `x` cannot be taken behind `done`. A place with an unfit
element is a fault. A list is clear up to its first fault (`FirstFault.split`), and a clear list
stays clear when its end is cut off (`Clear.of_append`), so what a run does on clear lists is shown
by induction from the end.
-/

namespace Calculator

variable {α : Type} {unfit : List α → α → Prop}

/-- The element at place `i` cannot be taken behind those before it. -/
def Faulty (unfit : List α → α → Prop) (l : List α) (i : Nat) : Prop :=
  ∃ x, l[i]? = some x ∧ unfit (l.take i) x

/-- There is a fault at place `i` and none before it. -/
structure FirstFault (unfit : List α → α → Prop) (l : List α) (i : Nat) : Prop where
  faulty : Faulty unfit l i
  earlier : ∀ j < i, ¬Faulty unfit l j

/-- There is no fault at all. -/
def Clear (unfit : List α → α → Prop) (l : List α) : Prop :=
  ∀ i, ¬Faulty unfit l i

/-- A fault is at a place of the list. -/
lemma Faulty.lt_length {l i} (h : Faulty unfit l i) : i < l.length := by
  obtain ⟨x, e, _⟩ := h
  exact (List.getElem?_eq_some_iff.1 e).1

/-- What comes behind an element has no part in its fault. -/
lemma faulty_append_left {l m i} (h : i < l.length) :
    Faulty unfit (l ++ m) i ↔ Faulty unfit l i := by
  rw [Faulty, Faulty, List.getElem?_append_left h, List.take_append_of_le_length (Nat.le_of_lt h)]

/-- An element is a fault if it is unfit behind those before it. -/
lemma faulty_append_cons {l x m} : Faulty unfit (l ++ x :: m) l.length ↔ unfit l x := by
  simp [Faulty]

/-- The empty list is clear. -/
lemma Clear.nil : Clear unfit [] := by
  intro i h
  exact absurd h.lt_length (Nat.not_lt_zero i)

/-- What is before the end of a clear list is clear. -/
lemma Clear.of_append {l m} (h : Clear unfit (l ++ m)) : Clear unfit l := by
  intro i hi
  exact h i ((faulty_append_left hi.lt_length).2 hi)

/-- In a clear list every element fits behind those before it. -/
lemma Clear.fits {l x m} (h : Clear unfit (l ++ x :: m)) : ¬unfit l x := by
  intro hx
  exact h l.length (faulty_append_cons.2 hx)

/-- A list is clear or has a first fault. -/
lemma clear_or_firstFault (unfit : List α → α → Prop) (l : List α) :
    Clear unfit l ∨ ∃ i x, FirstFault unfit l i ∧ l[i]? = some x := by
  induction l using List.reverseRecOn with
  | nil => exact .inl .nil
  | append_singleton l x ih =>
    rcases ih with clear | ⟨i, y, fault, e⟩
    · have earlier : ∀ j < l.length, ¬Faulty unfit (l ++ [x]) j := by
        intro j lt hj
        exact clear j ((faulty_append_left lt).1 hj)
      by_cases hx : unfit l x
      · exact .inr ⟨l.length, x, ⟨faulty_append_cons.2 hx, earlier⟩, by simp⟩
      · refine .inl fun j hj => ?_
        have lt := hj.lt_length
        rw [List.length_append, List.length_singleton] at lt
        rcases Nat.lt_succ_iff_lt_or_eq.1 lt with lt | rfl
        · exact earlier j lt hj
        · exact hx (faulty_append_cons.1 hj)
    · have lt := fault.faulty.lt_length
      refine .inr ⟨i, y, ⟨(faulty_append_left lt).2 fault.faulty, fun j hj h => ?_⟩, ?_⟩
      · exact fault.earlier j hj ((faulty_append_left (by omega)).1 h)
      · rw [List.getElem?_append_left lt, e]

/-- What is before the first fault is clear. -/
lemma FirstFault.split {l i x} (h : FirstFault unfit l i) (e : l[i]? = some x) :
    ∃ done rest, l = done ++ x :: rest ∧ done.length = i ∧ Clear unfit done ∧ unfit done x := by
  obtain ⟨hi, ex⟩ := List.getElem?_eq_some_iff.1 e
  have split : l = l.take i ++ x :: l.drop (i + 1) := by
    rw [← ex, ← List.drop_eq_getElem_cons hi, List.take_append_drop]
  have len : (l.take i).length = i := List.length_take_of_le (Nat.le_of_lt hi)
  refine ⟨_, _, split, len, ?_, ?_⟩
  · intro j hj
    have lt := hj.lt_length
    refine h.earlier j (by omega) ?_
    rw [split]
    exact (faulty_append_left lt).2 hj
  · obtain ⟨y, ey, hy⟩ := h.faulty
    cases e.symm.trans ey
    exact hy

end Calculator
