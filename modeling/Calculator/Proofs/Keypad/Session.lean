import Calculator.Proofs.Fault
import Calculator.Proofs.Keypad.Buffer

/-!
# Sessions

Keys that are pressed together are pressed one at a time, up to the first press that fails: where
every press succeeds the display is the one that all of them lead to (`pressAll_of_clear`), and
otherwise the response is that of the first press that fails (`pressAll_of_firstFault`). A press
that fails is one of `=`, or there is no such key, and it leaves the keypad as it was
(`press_of_failure`). So a failure keeps what the presses before it have done, and nothing else
(`pressAll_atomic`).
-/

namespace Calculator.Keypad

/-- No key has the label, or the press of its key fails. -/
inductive Fails (k : Keypad) (label : String) : PressError → Prop where
  | unknownKey :
    Key.ofLabel? label = none →
    Fails k label (.unknownKey label)
  | press {key e} :
    Key.ofLabel? label = some key →
    (k.press key).failure = some e →
    Fails k label e

/-- Behind the keys `done` the press of this label fails. -/
def Rejects (k : Keypad) (done : List String) (label : String) : Prop :=
  ∃ e, (k.pressEach done).Fails label e

/-- Goes on with the keypad, unless the response is a failure. -/
def Response.andThen (r : Response) (next : Keypad → Response) : Response :=
  match r.failure with
  | none => next r.keypad
  | some _ => r

variable {k k' : Keypad} {label : String} {labels : List String} {e : PressError}

/-- A label fails for what its response says. -/
lemma failure_pressLabel_iff : (k.pressLabel label).failure = some e ↔ k.Fails label e := by
  rw [pressLabel]
  cases ek : Key.ofLabel? label with
  | none =>
    refine ⟨fun h => ?_, fun h => ?_⟩
    · cases h
      exact .unknownKey ek
    · cases h with
      | unknownKey => rfl
      | press known _ => cases ek.symm.trans known
  | some key =>
    refine ⟨.press ek, fun h => ?_⟩
    cases h with
    | unknownKey unknown => cases ek.symm.trans unknown
    | press known failure =>
      cases ek.symm.trans known
      exact failure

/-- A rejected label is one whose press fails. -/
lemma rejects_iff {done} : k.Rejects done label ↔
    ((k.pressEach done).pressLabel label).failure ≠ none := by
  simp only [Rejects, ← failure_pressLabel_iff, Option.ne_none_iff_exists']

/-- A session over two lists is one over each, in turn. -/
lemma pressEach_append (k : Keypad) (l m : List String) :
    k.pressEach (l ++ m) = (k.pressEach l).pressEach m := by
  induction l generalizing k with
  | nil => rfl
  | cons label l ih => rw [List.cons_append, pressEach_cons, pressEach_cons, ih]

/-- A run goes on behind a press that succeeds. -/
lemma pressAll_cons (h : k.pressLabel label = { keypad := k' }) :
    k.pressAll (label :: labels) = k'.pressAll labels := by
  rw [pressAll, h]

/-- A press that fails ends the run. -/
lemma pressAll_cons_of_failure (h : (k.pressLabel label).failure ≠ none) :
    k.pressAll (label :: labels) = k.pressLabel label := by
  obtain ⟨e, he⟩ := Option.ne_none_iff_exists'.1 h
  rw [pressAll, he]

/-- Behind presses that all succeed a run goes on. -/
lemma pressAll_append (h : Clear k.Rejects labels) (more : List String) :
    k.pressAll (labels ++ more) = (k.pressEach labels).pressAll more := by
  induction labels using List.reverseRecOn generalizing more with
  | nil => rfl
  | append_singleton labels label ih =>
    have accepted : ((k.pressEach labels).pressLabel label).failure = none :=
      not_not.1 (mt rejects_iff.2 h.fits)
    have response : (k.pressEach labels).pressLabel label =
        { keypad := k.pressEach (labels ++ [label]) } := by
      rw [pressEach_append, pressEach_cons, pressEach, ← accepted]
    rw [List.append_assoc, ih h.of_append, List.singleton_append, pressAll_cons response]

/-- A run without failures is a session. -/
lemma pressAll_of_clear (h : Clear k.Rejects labels) :
    k.pressAll labels = { keypad := k.pressEach labels } := by
  have run := pressAll_append h []
  rwa [List.append_nil] at run

/-- A run comes to what the first press that fails does. -/
lemma pressAll_of_firstFault {i : Nat} (h : FirstFault k.Rejects labels i)
    (e : labels[i]? = some label) :
    k.pressAll labels = (k.pressEach (labels.take i)).pressLabel label ∧
      (k.pressAll labels).failure ≠ none := by
  obtain ⟨done, rest, rfl, rfl, clear, rejected⟩ := h.split e
  have failed := rejects_iff.1 rejected
  rw [pressAll_append clear, pressAll_cons_of_failure failed, List.take_left]
  exact ⟨rfl, failed⟩

/-- An empty display has no result. -/
lemma display_ne_nil (h : calculate k.display ≠ .ok none) : k.display ≠ [] := by
  intro empty
  have value : calculate [] = .ok none := by decide +kernel
  rw [empty] at h
  exact h value

/-- A result is put on the display. -/
lemma equals_of_value {l : List Char} {v} (ne : l ≠ []) (h : calculate l = .ok (some v)) :
    equals { display := l } = { keypad := { display := formatResult v } } := by
  rw [equals, if_neg (mt List.isEmpty_iff.1 ne), h]
  rfl

/-- An error leaves the display as it is. -/
lemma equals_of_error {l : List Char} {e} (ne : l ≠ []) (h : calculate l = .error e) :
    equals { display := l } =
      { keypad := { display := l }, failure := some (.calculation l e) } := by
  rw [equals, if_neg (mt List.isEmpty_iff.1 ne), h]

/-- A press of `=` fails on an expression with an error. -/
lemma rejects_equals {done : List String} {e}
    (h : calculate (k.pressEach done).display = .error e) :
    k.Rejects done "=" := by
  have ne : (k.pressEach done).display ≠ [] := display_ne_nil (by simp [h])
  have response : (k.pressEach done).pressLabel "=" =
      { keypad := k.pressEach done, failure := some (.calculation (k.pressEach done).display e) } :=
    equals_of_error ne h
  rw [rejects_iff, response]
  exact Option.some_ne_none _

/-- Only `=` fails, on an expression without a value, and leaves it there. -/
lemma press_of_failure {key : Key} (h : (k.press key).failure = some e) :
    key = .equals ∧ k.display ≠ [] ∧ k.press key = { keypad := k, failure := some e } ∧
      ∃ e', calculate k.display = .error e' ∧ e = .calculation k.display e' := by
  cases key with
  | digit | point | symbol | clear | backspace => cases h
  | equals =>
    have response : k.press .equals = k.equals := rfl
    rw [response] at h ⊢
    by_cases ne : k.display = []
    · rw [equals, if_pos (List.isEmpty_iff.2 ne)] at h
      cases h
    · rw [equals, if_neg (mt List.isEmpty_iff.1 ne)] at h ⊢
      cases value : calculate k.display with
      | ok result =>
        rw [value] at h
        cases h
      | error e' =>
        rw [value] at h
        cases h
        exact ⟨rfl, ne, rfl, e', rfl, rfl⟩

/-- A label that fails leaves the keypad as it is. -/
lemma pressLabel_of_fails (h : k.Fails label e) :
    k.pressLabel label = { keypad := k, failure := some e } := by
  rw [pressLabel]
  cases h with
  | unknownKey unknown => rw [unknown]
  | press known failure =>
    obtain ⟨-, -, response, -⟩ := press_of_failure failure
    rw [known]
    exact response

/-- A run over two lists goes on with the second unless the first fails. -/
lemma pressAll_append_eq_andThen (k : Keypad) (labels more : List String) :
    k.pressAll (labels ++ more) = (k.pressAll labels).andThen fun k' => k'.pressAll more := by
  induction labels generalizing k with
  | nil => rfl
  | cons label labels ih =>
    cases failure : (k.pressLabel label).failure with
    | none =>
      have accepted : k.pressLabel label = { keypad := (k.pressLabel label).keypad } := by
        rw [← failure]
      rw [List.cons_append, pressAll_cons accepted, pressAll_cons accepted, ih]
    | some e =>
      have rejected : (k.pressLabel label).failure ≠ none := by simp [failure]
      rw [List.cons_append, pressAll_cons_of_failure rejected, pressAll_cons_of_failure rejected,
        Response.andThen, failure]

/-- A run does all of its presses, or those before the first one that fails, whose reason it ends
with. Only `=` fails on a key, and leaves the display as it is. So runs compose. -/
theorem pressAll_atomic (k : Keypad) (labels : List String) :
    (Clear k.Rejects labels → k.pressAll labels = { keypad := k.pressEach labels }) ∧
    (∀ i, FirstFault k.Rejects labels i →
      ∃ label e, labels[i]? = some label ∧ (k.pressEach (labels.take i)).Fails label e ∧
        k.pressAll labels = { keypad := k.pressEach (labels.take i), failure := some e } ∧
        ∀ later, k.pressAll (labels.take (i + 1) ++ later) = k.pressAll labels) ∧
    (∀ key e, (k.press key).failure = some e →
      key = .equals ∧ k.display ≠ [] ∧ k.press key = { keypad := k, failure := some e } ∧
        ∃ e', calculate k.display = .error e' ∧ e = .calculation k.display e') ∧
    ∀ more, k.pressAll (labels ++ more) = (k.pressAll labels).andThen fun k' =>
      k'.pressAll more := by
  refine ⟨pressAll_of_clear, fun i fault => ?_, fun key e => press_of_failure,
    pressAll_append_eq_andThen k labels⟩
  obtain ⟨label, el, -⟩ := fault.faulty
  obtain ⟨done, rest, rfl, rfl, clear, e, fails⟩ := fault.split el
  have failed := rejects_iff.1 ⟨e, fails⟩
  have stop (later : List String) : k.pressAll (done ++ label :: later) =
      { keypad := k.pressEach done, failure := some e } := by
    rw [pressAll_append clear, pressAll_cons_of_failure failed, pressLabel_of_fails fails]
  rw [List.take_left, List.take_length_add_append, stop rest]
  refine ⟨label, e, el, fails, rfl, fun later => ?_⟩
  rw [List.append_assoc]
  exact stop later

end Calculator.Keypad
