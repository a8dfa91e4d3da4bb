import Calculator.CommandLine.Outcome
import Mathlib.Data.List.Infix
import Mathlib.Tactic.Lemma

/-!
# Arguments

Behind the name of a command its values are the words that are no options, up to the word `--`, and
then all words behind that one (`Operands.Plain`). The words that give values and no path are those
of this form (`ofWords?_eq_some_iff`), and it makes no difference to a command in which of these
forms its values are given (`runCommandLine_of_plain`).
-/

namespace Calculator

/-- The words hold these values and no option. -/
inductive Operands.Plain : List String → List String → Prop where
  | nil :
    Plain [] []
  | ending {values} :
    Plain ("--" :: values) values
  | value {word words values} :
    isOption word = false →
    Plain words values →
    Plain (word :: words) (word :: values)

namespace Operands

/-- Behind `--` every word is a value. -/
lemma ofWords?_ending (words : List String) :
    ofWords? ("--" :: words) = some { values := words } := by
  rw [ofWords?.eq_def]
  rfl

/-- A word that is no option is a value. -/
lemma ofWords?_cons {word : String} {words : List String} (h : isOption word = false) :
    ofWords? (word :: words) =
      (ofWords? words).map fun operands => { operands with values := word :: operands.values } := by
  have ending : word ≠ "--" := by
    rintro rfl
    cases h
  have option : word ≠ "--file" := by
    rintro rfl
    cases h
  have assignment : "--file=".toList.isPrefixOf? word.toList = none := by
    refine Option.eq_none_iff_forall_ne_some.2 fun path e => ?_
    rw [isOption, ← List.isPrefixOf?_eq_some_iff_append_eq.1 e] at h
    cases h
  rw [ofWords?.eq_def]
  simp only [if_neg ending, if_neg option, assignment]
  exact if_neg (by rw [h]; exact Bool.false_ne_true)

/-- A path that was added is among the operands. -/
lemma bind_addPath?_ne {path : String} {found : Option Operands} {values : List String} :
    found.bind (addPath? path) ≠ some { values := values } := by
  intro h
  obtain ⟨operands, -, added⟩ := Option.bind_eq_some_iff.1 h
  rw [addPath?] at added
  split at added <;> cases added

/-- An option gives a path or is refused. -/
lemma ofWords?_ne_of_isOption {word : String} {words values : List String}
    (h : isOption word = true)
    (ending : word ≠ "--") : ofWords? (word :: words) ≠ some { values := values } := by
  intro e
  rw [ofWords?.eq_def] at e
  simp only [if_neg ending, if_pos h] at e
  split at e
  · -- the path is the next word, if there is one
    split at e
    · cases e
    · split at e
      · cases e
      · exact bind_addPath?_ne e
  · -- the path is in the word itself, or there is no such option
    split at e
    · exact bind_addPath?_ne e
    · cases e

/-- The words with these values and no path. -/
lemma ofWords?_eq_some_iff {words values : List String} :
    ofWords? words = some { values := values } ↔ Plain words values := by
  constructor
  · intro h
    induction words generalizing values with
    | nil =>
      cases h
      exact .nil
    | cons word words ih =>
      cases option : isOption word with
      | false =>
        rw [ofWords?_cons option] at h
        obtain ⟨⟨paths, others⟩, given, e⟩ := Option.map_eq_some_iff.1 h
        cases e
        exact .value option (ih given)
      | true =>
        by_cases ending : word = "--"
        · rw [ending, ofWords?_ending] at h
          cases h
          rw [ending]
          exact .ending
        · exact absurd h (ofWords?_ne_of_isOption option ending)
  · intro h
    induction h with
    | nil => rfl
    | ending => exact ofWords?_ending _
    | value option _ ih => rw [ofWords?_cons option, ih, Option.map_some]

end Operands

/-- All values might as well stand behind a `--`. -/
lemma Command.ofArgs?_of_plain {words values : List String} (h : Operands.Plain words values)
    (name : String) : ofArgs? (name :: words) = ofArgs? (name :: "--" :: values) := by
  rw [ofArgs?, ofArgs?, Operands.ofWords?_eq_some_iff.2 h, Operands.ofWords?_ending]

/-- Plain words are as good as their values behind `--`. -/
lemma runCommandLine_of_plain {words values : List String} (h : Operands.Plain words values)
    (file : String → Option ByteArray) (input : ByteArray) (name : String) :
    runCommandLine file input (name :: words) =
      runCommandLine file input (name :: "--" :: values) := by
  rw [runCommandLine, runCommandLine, Command.ofArgs?_of_plain h]

end Calculator
