import Calculator.Proofs.Keypad.Buffer
import Calculator.Proofs.Scanning.Runs

/-!
# What a display looks like

Keys append a character directly or behind a single space, and that space never parts two numerals.
So the displays of a keypad are built in this way (`Spaced`), whatever is pressed, and what a key
has appended is what a backspace takes away (`Spaced.eraseLast_pushSpaced`,
`Spaced.eraseLast_pushNumeral`). A text that is built in this way is `Tidy`, and has the same runs
of digits and points with its spaces and without them (`Spaced.runs_strip`). So the numerals that
are read from a display are those that it shows (`orderly_pressEach`).
-/

namespace Calculator

/-- The blanks are single spaces, none at an end, that part no numerals. -/
structure Tidy (l : List Char) : Prop where
  start : ∀ c ∈ l.head?, Text.isBlank c = false
  stop : ∀ c ∈ l.getLast?, Text.isBlank c = false
  space : ∀ c ∈ l, Text.isBlank c = true → c = ' '
  single : l.IsChain fun c d => ¬(Text.isBlank c = true ∧ Text.isBlank d = true)
  /-- A space has no digit and no point on one of its sides. -/
  apart : ∀ c d, [c, ' ', d] <:+: l → joined c d = false

/-- A keypad that loses nothing between what is typed, shown and read. -/
structure Orderly (k : Keypad) : Prop where
  tidy : Tidy k.display
  /-- The numerals that are read from the display, well formed or not, are the runs of digits and
  points that it shows, one by one. -/
  numerals : List.Forall₂ Item.Reading (runs k.display)
      ((Item.ofChars k.display).filter Item.isNumeral)
  /-- A backspace undoes a press that appends a character. -/
  undone : ∀ (key : Key) c, key.char? = some c →
    ∃ k', k.press key = { keypad := k' } ∧ k'.press .backspace = { keypad := k }

/-- A text of characters, each appended directly or behind a space. -/
inductive Spaced : List Char → Prop where
  | nil :
    Spaced []
  | next {l c} :
    Spaced l →
    Text.isBlank c = false →
    Spaced (l ++ [c])
  | apart {l c} :
    Spaced l →
    l ≠ [] →
    Text.isBlank c = false →
    (∀ d ∈ l.getLast?, joined d c = false) →
    Spaced (l ++ [' ', c])

/-- Suffixes that end alike are suffixes without their ends. -/
lemma suffix_concat_inj {m l : List Char} {d c : Char} (h : m ++ [d] <:+ l ++ [c]) :
    m <:+ l ∧ d = c := by
  obtain ⟨n, e⟩ := h
  rw [← List.append_assoc] at e
  obtain ⟨e, last⟩ := List.append_inj' e rfl
  exact ⟨⟨n, e⟩, List.singleton_inj.1 last⟩

namespace Spaced
variable {l : List Char}

/-- A text without blanks needs no spaces. -/
lemma of_not_isBlank (h : ∀ c ∈ l, Text.isBlank c = false) : Spaced l := by
  induction l using List.reverseRecOn with
  | nil => exact .nil
  | append_singleton l c ih => exact .next (ih fun d mem => h d (by simp [mem])) (h c (by simp))

/-- No spaced text starts with a blank. -/
lemma isBlank_head? (h : Spaced l) : ∀ c ∈ l.head?, Text.isBlank c = false := by
  induction h with
  | nil => simp
  | @next l c _ hc ih =>
    cases l with
    | nil => simpa using hc
    | cons d l => exact ih
  | @apart l c _ ne _ _ ih =>
    cases l with
    | nil => exact absurd rfl ne
    | cons d l => exact ih

/-- No spaced text ends with a blank. -/
lemma isBlank_getLast? (h : Spaced l) : ∀ c ∈ l.getLast?, Text.isBlank c = false := by
  cases h with
  | nil => simp
  | next _ hc => simpa using hc
  | apart _ _ hc _ => simpa using hc

/-- The only blanks are spaces. -/
lemma eq_space (h : Spaced l) : ∀ c ∈ l, Text.isBlank c = true → c = ' ' := by
  induction h with
  | nil => simp
  | next _ hc ih =>
    intro d mem blank
    rcases List.mem_append.1 mem with mem | mem
    · exact ih d mem blank
    · rw [List.mem_singleton.1 mem, hc] at blank
      cases blank
  | apart _ _ hc _ ih =>
    intro d mem blank
    rcases List.mem_append.1 mem with mem | mem
    · exact ih d mem blank
    · rcases List.mem_cons.1 mem with rfl | mem
      · rfl
      · rw [List.mem_singleton.1 mem, hc] at blank
        cases blank

/-- No blanks are neighbours. -/
lemma isChain (h : Spaced l) :
    l.IsChain fun c d => ¬(Text.isBlank c = true ∧ Text.isBlank d = true) := by
  induction h with
  | nil => exact .nil
  | next _ hc ih =>
    refine List.isChain_append.2 ⟨ih, List.isChain_singleton _, fun d _ e mem ⟨_, blank⟩ => ?_⟩
    cases mem
    rw [hc] at blank
    cases blank
  | apart hl _ hc _ ih =>
    refine List.isChain_append.2 ⟨ih, ?_, fun d mem e _ ⟨blank, _⟩ => ?_⟩
    · simp [hc]
    · rw [hl.isBlank_getLast? d mem] at blank
      cases blank

/-- A space parts no numeral. -/
lemma joined_eq_false (h : Spaced l) : ∀ b d, [b, ' ', d] <:+: l → joined b d = false := by
  induction h with
  | nil => simp
  | @next l c hl hc ih =>
    intro b d inside
    rcases List.infix_concat_iff.1 inside with last | inside
    · -- then the text would have ended in a space
      obtain ⟨⟨_, rfl⟩, _⟩ := suffix_concat_inj (m := [b, ' ']) last
      exact absurd (hl.isBlank_getLast? ' ' (by simp)) (by decide)
    · exact ih b d inside
  | @apart l c hl ne hc parted ih =>
    intro b d inside
    rw [List.append_cons] at inside
    rcases List.infix_concat_iff.1 inside with last | inside
    · obtain ⟨before, rfl⟩ := suffix_concat_inj (m := [b, ' ']) last
      obtain ⟨⟨_, rfl⟩, _⟩ := suffix_concat_inj (m := [b]) before
      exact parted b (by simp)
    · rcases List.infix_concat_iff.1 inside with last | inside
      · obtain ⟨_, rfl⟩ := suffix_concat_inj (m := [b, ' ']) last
        exact Bool.and_false _
      · exact ih b d inside

/-- A spaced text is tidy. -/
lemma tidy (h : Spaced l) : Tidy l :=
  ⟨h.isBlank_head?, h.isBlank_getLast?, h.eq_space, h.isChain, h.joined_eq_false⟩

/-- Without its spaces a text has the same runs before what comes behind it. -/
lemma runs_strip_append (h : Spaced l) (n : List Char) :
    runs (Text.strip l ++ n) = runs (l ++ n) := by
  induction h generalizing n with
  | nil => rfl
  | @next l c _ hc ih => rw [Text.strip_concat hc, ← List.append_cons, ← List.append_cons, ih]
  | @apart l c hl _ hc parted ih =>
    have space : Text.strip [' '] = [] := by decide
    have before : ∀ d ∈ (Text.strip l).getLast?, ∀ e ∈ (c :: n).head?, joined d e = false := by
      rw [Text.getLast?_strip hl.isBlank_getLast?]
      intro d mem e head
      cases head
      exact parted d mem
    have text : runs (Text.strip l) = runs l := by simpa using ih []
    rw [List.append_cons l ' ', Text.strip_concat hc, Text.strip_append, space, List.append_nil,
      ← List.append_cons, runs_append before, text, ← List.append_cons, ← List.append_cons,
      runs_append_cons rfl]

/-- Without its spaces a text has the same runs. -/
lemma runs_strip (h : Spaced l) : runs (Text.strip l) = runs l := by
  have text := h.runs_strip_append []
  rwa [List.append_nil, List.append_nil] at text

/-- Blanks behind a spaced text are trimmed, and nothing else. -/
lemma trim_append (h : Spaced l) {m : List Char} (blank : ∀ c ∈ m, Text.isBlank c = true) :
    Text.trim (l ++ m) = l :=
  Text.trim_append h.isBlank_head? h.isBlank_getLast? blank

/-- There is nothing to trim on a spaced text. -/
lemma trim_eq (h : Spaced l) : Text.trim l = l := by
  have trimmed := h.trim_append (m := []) (by simp)
  rwa [List.append_nil] at trimmed

/-- A space behind a spaced text is trimmed. -/
lemma trim_concat_space (h : Spaced l) : Text.trim (l ++ [' ']) = l := by
  have blank : ∀ c ∈ [' '], Text.isBlank c = true := List.forall_mem_singleton.2 (by decide)
  exact h.trim_append blank

end Spaced

section
variable {k : Keypad} {key : Key} {c : Char}

/-- A character behind a space keeps a display spaced. -/
lemma Spaced.pushSpaced (h : Spaced k.display) (hc : Text.isBlank c = false)
    (parted : ∀ d ∈ k.display.getLast?, joined d c = false) : Spaced (k.pushSpaced c).display := by
  rw [Keypad.pushSpaced]
  split
  · exact .next .nil hc
  · next ne => exact .apart h (mt List.isEmpty_iff.2 ne) hc parted

/-- A digit or point keeps a display spaced. -/
lemma Spaced.pushNumeral (h : Spaced k.display) (hc : Text.isBlank c = false) :
    Spaced (k.pushNumeral c).display := by
  rw [Keypad.pushNumeral]
  split
  · exact .next h hc
  · next other =>
    refine h.pushSpaced hc fun d mem => ?_
    rw [Option.mem_def.1 mem, Option.any_some, Bool.not_eq_true] at other
    rw [joined, other, Bool.false_and]

/-- A character behind a space is taken away with it. -/
lemma Spaced.eraseLast_pushSpaced (h : Spaced k.display) (c : Char) :
    (k.pushSpaced c).eraseLast = k := by
  rw [Keypad.pushSpaced, Keypad.eraseLast]
  split
  · next empty =>
    have nothing : Text.trim [c].dropLast = k.display := (List.isEmpty_iff.1 empty).symm
    rw [nothing]
  · rw [List.append_cons, List.dropLast_concat, h.trim_concat_space]

/-- A digit or point is taken away again. -/
lemma Spaced.eraseLast_pushNumeral (h : Spaced k.display) (c : Char) :
    (k.pushNumeral c).eraseLast = k := by
  rw [Keypad.pushNumeral]
  split
  · rw [Keypad.eraseLast, List.dropLast_concat, h.trim_eq]
  · exact h.eraseLast_pushSpaced c

/-- A backspace takes away what was appended last. -/
lemma Spaced.eraseLast (h : Spaced k.display) : Spaced k.eraseLast.display := by
  rw [Keypad.eraseLast]
  generalize k.display = l at h
  cases h with
  | nil => exact .nil
  | next h _ =>
    rw [List.dropLast_concat, h.trim_eq]
    exact h
  | apart h _ _ _ =>
    rw [List.append_cons, List.dropLast_concat, h.trim_concat_space]
    exact h

/-- A result keeps a display spaced. -/
lemma Spaced.equals (h : Spaced k.display) : Spaced k.equals.keypad.display := by
  rw [Keypad.equals]
  split
  · exact h
  · split
    · next result _ =>
      cases result with
      | none => exact .nil
      | some v => exact .of_not_isBlank isBlank_of_mem_formatResult
    · exact h

/-- A press of a key with a label keeps a display spaced. -/
lemma Spaced.press (h : Spaced k.display) (hk : key.Labelled) :
    Spaced (k.press key).keypad.display := by
  have hc : ∀ c, key.char? = some c → Text.isBlank c = false := fun c => hk.isBlank_eq_false
  cases hk with
  | digit => exact h.pushNumeral (hc _ rfl)
  | point => exact h.pushNumeral (hc _ rfl)
  | symbol symbol =>
    refine h.pushSpaced (hc _ rfl) fun d _ => ?_
    rw [joined, Token.isNumeral_of_symbol? symbol, Bool.and_false]
  | clear => exact .nil
  | backspace => exact h.eraseLast
  | equals => exact h.equals

/-- The same holds of the press of a label. -/
lemma Spaced.pressLabel (h : Spaced k.display) (label : String) :
    Spaced (k.pressLabel label).keypad.display := by
  rw [Keypad.pressLabel]
  split
  · next e => exact h.press (Key.labelled_of_ofLabel? e)
  · exact h

/-- By induction, a session keeps a display spaced. -/
lemma Spaced.pressEach (h : Spaced k.display) (labels : List String) :
    Spaced (k.pressEach labels).display := by
  induction labels generalizing k with
  | nil => exact h
  | cons label labels ih =>
    rw [Keypad.pressEach_cons]
    exact ih (h.pressLabel label)

/-- A backspace undoes a press that appends a character. -/
lemma Spaced.exists_undone (h : Spaced k.display) (hc : key.char? = some c) :
    ∃ k', k.press key = { keypad := k' } ∧ k'.press .backspace = { keypad := k } := by
  cases key with
  | digit d => exact ⟨k.pushNumeral d, rfl, by rw [Keypad.press, h.eraseLast_pushNumeral]⟩
  | point => exact ⟨k.pushNumeral '.', rfl, by rw [Keypad.press, h.eraseLast_pushNumeral]⟩
  | symbol d => exact ⟨k.pushSpaced d, rfl, by rw [Keypad.press, h.eraseLast_pushSpaced]⟩
  | clear | backspace | equals => cases hc

end

/-- After any session the display is tidy and read as what it shows, and a backspace undoes the next
key that appends a character. -/
theorem orderly_pressEach (labels : List String) : Orderly (({} : Keypad).pressEach labels) := by
  have spaced : Spaced (({} : Keypad).pressEach labels).display := Spaced.pressEach .nil labels
  refine ⟨spaced.tidy, ?_, fun key c => spaced.exists_undone⟩
  rw [← spaced.runs_strip]
  exact forall₂_reading_runs _

end Calculator
