import Calculator.Keypad.Basic
import Calculator.Proofs.Decimal.Result
import Calculator.Proofs.Spelling

/-!
# The keypad as a buffer

Without its blanks a display is a buffer: a line of characters that keys append to, drop from and
clear, and that `=` puts the result in the place of (`Buffer.press`). In any session, whatever
presses fail in it, the display shows the buffer that the same keys lead to, and a press fails on
both or on neither (`strip_display_pressEach`). What carries this through a session is that a
display never ends in a blank (`Shows`), so that the last character is the last one of the buffer
too.
-/

namespace Calculator

/-- Presses the keys with these labels in turn, past those that fail. -/
def Keypad.pressEach (k : Keypad) : List String → Keypad
  | [] => k
  | label :: labels =>
    match Key.ofLabel? label with
    | some key => (k.press key).keypad.pressEach labels
    | none => k.pressEach labels

/-- A session goes on from what the first label leads to. -/
lemma Keypad.pressEach_cons (k : Keypad) (label : String) (labels : List String) :
    k.pressEach (label :: labels) = (k.pressLabel label).keypad.pressEach labels := by
  rw [pressEach, pressLabel]
  cases Key.ofLabel? label <;> rfl

/-- A line of characters with no blanks. -/
structure Buffer where
  chars : List Char := []
deriving DecidableEq, Repr

namespace Buffer

/-- The buffer after a press and, if it failed, the reason. -/
structure Response where
  buffer : Buffer
  failure : Option PressError := none
deriving DecidableEq, Repr

/-- Presses a key. -/
def press (m : Buffer) : Key → Response
  | .digit c => { buffer := { chars := m.chars ++ [c] } }
  | .point => { buffer := { chars := m.chars ++ ['.'] } }
  | .symbol c => { buffer := { chars := m.chars ++ [c] } }
  | .clear => { buffer := {} }
  | .backspace => { buffer := { chars := m.chars.dropLast } }
  | .equals =>
    if m.chars = [] then { buffer := m }
    else
      match calculate m.chars with
      | .ok (some v) => { buffer := { chars := formatResult v } }
      | .ok none => { buffer := {} }
      | .error e => { buffer := m, failure := some (.calculation m.chars e) }

/-- Presses the key with this label, if there is one. -/
def pressLabel (m : Buffer) (label : String) : Response :=
  match Key.ofLabel? label with
  | some key => m.press key
  | none => { buffer := m, failure := some (.unknownKey label) }

/-- Presses the keys with these labels in turn, past those that fail. -/
def pressEach (m : Buffer) : List String → Buffer
  | [] => m
  | label :: labels => (m.pressLabel label).buffer.pressEach labels

end Buffer

/-- The errors are of one kind and differ in places and expressions only. -/
inductive PressError.Alike : PressError → PressError → Prop where
  | unknownKey {label} :
    Alike (.unknownKey label) (.unknownKey label)
  | calculation {l m e e'} :
    CalculationError.Alike (SameRange (Condensed.ofChars l) (Condensed.ofChars m)) e e' →
    Alike (.calculation l e) (.calculation m e')

/-- The display without its blanks is the buffer and ends in none. -/
structure Shows (k : Keypad) (m : Buffer) : Prop where
  chars : Text.strip k.display = m.chars
  trimmed : ∀ c ∈ k.display.getLast?, Text.isBlank c = false

/-- The character that the key appends, if it does. -/
def Key.char? : Key → Option Char
  | digit c => some c
  | point => some '.'
  | symbol c => some c
  | _ => none

/-- A key that has a label carries a digit or a symbol, if anything. -/
inductive Key.Labelled : Key → Prop where
  | digit {c} :
    c.isDigit = true →
    Labelled (.digit c)
  | point :
    Labelled .point
  | symbol {c} {token : Token} :
    token.symbol? = some c →
    Labelled (.symbol c)
  | clear :
    Labelled .clear
  | backspace :
    Labelled .backspace
  | equals :
    Labelled .equals

/-- A key that is found by its label has one. -/
lemma Key.labelled_of_ofLabel? {label key} (h : ofLabel? label = some key) : key.Labelled := by
  rw [ofLabel?] at h
  split at h
  · unfold ofChar? at h
    split at h
    · next digit =>
      cases h
      exact .digit digit
    · split at h
      · next symbol =>
        cases h
        obtain ⟨token, e⟩ := Option.isSome_iff_exists.1 symbol
        exact .symbol (Token.ofChar?_eq_some_iff.1 e)
      · have multiply : (Token.operator .multiply).symbol? = some Operator.multiply.char := rfl
        have divide : (Token.operator .divide).symbol? = some Operator.divide.char := rfl
        split at h <;> cases h
        exacts [.point, .symbol multiply, .symbol divide, .clear, .backspace, .equals]
  · cases h

/-- No key with a label appends a blank. -/
lemma Key.Labelled.isBlank_eq_false {key c} (h : Labelled key) (hc : key.char? = some c) :
    Text.isBlank c = false := by
  cases h with
  | digit digit =>
    cases hc
    exact Text.isBlank_of_isNumeral (Decimal.isNumeral_iff.2 (.inl digit))
  | point =>
    cases hc
    decide
  | symbol symbol =>
    cases hc
    exact Text.isBlank_of_symbol? symbol
  | clear | backspace | equals => cases hc

variable {k : Keypad} {m : Buffer} {key : Key} {c : Char}

/-- What is appended behind a space is appended to the buffer. -/
lemma Shows.pushSpaced (h : Shows k m) (hc : Text.isBlank c = false) :
    Shows (k.pushSpaced c) { chars := m.chars ++ [c] } := by
  rw [Keypad.pushSpaced]
  split
  · next empty =>
    rw [List.isEmpty_iff] at empty
    refine ⟨?_, ?_⟩
    · rw [← h.chars, empty]
      exact Text.strip_concat (l := []) hc
    · simpa using hc
  · refine ⟨?_, ?_⟩
    · have space : Text.strip [' '] = [] := by decide
      rw [List.append_cons, Text.strip_concat hc, Text.strip_append, space, List.append_nil,
        h.chars]
    · simpa using hc

/-- What goes on with a numeral is appended to the buffer. -/
lemma Shows.pushNumeral (h : Shows k m) (hc : Text.isBlank c = false) :
    Shows (k.pushNumeral c) { chars := m.chars ++ [c] } := by
  rw [Keypad.pushNumeral]
  split
  · refine ⟨?_, ?_⟩
    · rw [← h.chars, Text.strip_concat hc]
    · simpa using hc
  · exact h.pushSpaced hc

/-- The last character of the display is that of the buffer. -/
lemma Shows.eraseLast (h : Shows k m) : Shows k.eraseLast { chars := m.chars.dropLast } := by
  refine ⟨?_, Text.isBlank_getLast?_trim _⟩
  rw [Keypad.eraseLast, Text.strip_trim, ← h.chars]
  rcases List.eq_nil_or_concat k.display with e | ⟨l, c, e⟩
  · rw [e]
    rfl
  · have last : Text.isBlank c = false := h.trimmed c (by simp [e])
    rw [e, List.concat_eq_append, Text.strip_concat last, List.dropLast_concat,
      List.dropLast_concat]

/-- The expression on the display has the value of the buffer. -/
lemma Shows.calculate_agrees (h : Shows k m) :
    Agrees (CalculationError.Alike
      (SameRange (Condensed.ofChars k.display) (Condensed.ofChars m.chars)))
      Eq (calculate k.display) (calculate m.chars) := by
  refine Calculator.calculate_agrees (toChars_ofChars_congr ?_)
  rw [← h.chars, Text.strip_strip]

/-- The same result comes on the display and in the buffer. -/
lemma Shows.equals (h : Shows k m) :
    Shows k.equals.keypad (m.press .equals).buffer ∧
      Option.Rel PressError.Alike k.equals.failure (m.press .equals).failure := by
  have empty : m.chars = [] ↔ k.display = [] := by
    rw [← h.chars, Text.strip_eq_nil_of_getLast? h.trimmed]
  rw [Keypad.equals, Buffer.press]
  by_cases ne : k.display = []
  · rw [if_pos (List.isEmpty_iff.2 ne), if_pos (empty.2 ne)]
    exact ⟨h, .none⟩
  · rw [if_neg (mt List.isEmpty_iff.1 ne), if_neg (mt empty.1 ne)]
    have agrees := h.calculate_agrees
    generalize calculate k.display = x, calculate m.chars = y at agrees
    cases agrees with
    | error he => exact ⟨h, .some (.calculation he)⟩
    | @ok result _ same =>
      subst same
      cases result with
      | none => exact ⟨⟨rfl, by simp⟩, .none⟩
      | some v =>
        refine ⟨⟨Text.strip_eq_self isBlank_of_mem_formatResult, fun c mem => ?_⟩, .none⟩
        exact isBlank_of_mem_formatResult c (List.mem_of_mem_getLast? mem)

/-- A press keeps the buffer shown and fails on both or on neither. -/
lemma Shows.press (h : Shows k m) (hk : ∀ c, key.char? = some c → Text.isBlank c = false) :
    Shows (k.press key).keypad (m.press key).buffer ∧
      Option.Rel PressError.Alike (k.press key).failure (m.press key).failure := by
  cases key with
  | digit c => exact ⟨h.pushNumeral (hk c rfl), .none⟩
  | point => exact ⟨h.pushNumeral (hk '.' rfl), .none⟩
  | symbol c => exact ⟨h.pushSpaced (hk c rfl), .none⟩
  | clear => exact ⟨⟨rfl, by simp [Keypad.press]⟩, .none⟩
  | backspace => exact ⟨h.eraseLast, .none⟩
  | equals => exact h.equals

/-- The same holds of the press of a label. -/
lemma Shows.pressLabel (h : Shows k m) (label : String) :
    Shows (k.pressLabel label).keypad (m.pressLabel label).buffer ∧
      Option.Rel PressError.Alike (k.pressLabel label).failure (m.pressLabel label).failure := by
  rw [Keypad.pressLabel, Buffer.pressLabel]
  cases e : Key.ofLabel? label with
  | none => exact ⟨h, .some .unknownKey⟩
  | some key => exact h.press fun c => (Key.labelled_of_ofLabel? e).isBlank_eq_false

/-- By induction, a session keeps the buffer shown. -/
lemma Shows.pressEach (h : Shows k m) (labels : List String) :
    Shows (k.pressEach labels) (m.pressEach labels) := by
  induction labels generalizing k m with
  | nil => exact h
  | cons label labels ih =>
    rw [Keypad.pressEach_cons]
    exact ih (h.pressLabel label).1

/-- After any session the display shows the buffer, and the next press fails on both or on neither,
for the same reason. -/
theorem strip_display_pressEach (labels : List String) :
    Text.strip (({} : Keypad).pressEach labels).display = (({} : Buffer).pressEach labels).chars ∧
      ∀ label, Option.Rel PressError.Alike
        ((({} : Keypad).pressEach labels).pressLabel label).failure
        ((({} : Buffer).pressEach labels).pressLabel label).failure := by
  have shows : Shows (({} : Keypad).pressEach labels) (({} : Buffer).pressEach labels) :=
    Shows.pressEach ⟨rfl, by simp⟩ labels
  exact ⟨shows.chars, fun label => (shows.pressLabel label).2⟩

end Calculator
