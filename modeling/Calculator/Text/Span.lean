/-!
# Spans

Places in a text are counted in bytes of its UTF-8 encoding. `splitBytes?` cuts a text after a
number of bytes, which only works between two characters (`splitBytes?_eq_some_iff`); `Span.slice?`
is the part of a text that a span covers.
-/

namespace Calculator

/-- A stretch of a text, counted in bytes. -/
structure Span where
  offset : Nat
  length : Nat
deriving DecidableEq, Repr

namespace Text

/-- The number of bytes that encode `l`. -/
def byteLength : List Char → Nat
  | [] => 0
  | c :: l => c.utf8Size + byteLength l

/-- An empty text has no bytes. -/
@[simp] theorem byteLength_nil : byteLength [] = 0 := rfl

/-- A character adds its bytes. -/
@[simp] theorem byteLength_cons (c : Char) (l : List Char) :
    byteLength (c :: l) = c.utf8Size + byteLength l := rfl

/-- The bytes of two texts add up. -/
@[simp] theorem byteLength_append (l m : List Char) :
    byteLength (l ++ m) = byteLength l + byteLength m := by
  induction l with
  | nil => exact (Nat.zero_add _).symm
  | cons c l ih => rw [List.cons_append, byteLength_cons, byteLength_cons, ih, Nat.add_assoc]

/-- Cuts `l` after `n` bytes, if a character ends there. -/
def splitBytes? : Nat → List Char → Option (List Char × List Char)
  | 0, l => some ([], l)
  | _ + 1, [] => none
  | n + 1, c :: l =>
    if c.utf8Size ≤ n + 1 then
      (splitBytes? (n + 1 - c.utf8Size) l).map fun (before, after) => (c :: before, after)
    else none

/-- A text is cut where its first characters take up `n` bytes. -/
theorem splitBytes?_eq_some_iff {n : Nat} {l before after : List Char} :
    splitBytes? n l = some (before, after) ↔ l = before ++ after ∧ byteLength before = n := by
  induction l generalizing n before with
  | nil =>
    cases n with
    | zero => cases before <;> simp [splitBytes?, Char.utf8Size_pos, Nat.ne_of_gt, eq_comm]
    | succ n =>
      simp only [splitBytes?, reduceCtorEq, false_iff, not_and]
      intro h
      have := List.nil_eq_append_iff.1 h
      simp [this]
  | cons c l ih =>
    have hc := Char.utf8Size_pos c
    cases n with
    | zero =>
      cases before with
      | nil => simp [splitBytes?, eq_comm]
      | cons d before =>
        have hd := Char.utf8Size_pos d
        simp only [splitBytes?, Option.some.injEq, Prod.mk.injEq, byteLength_cons]
        constructor
        · simp
        · intro h; omega
    | succ n =>
      cases before with
      | nil => simp [splitBytes?]
      | cons d before =>
        simp only [splitBytes?, List.cons_append, List.cons.injEq, byteLength_cons]
        split
        · rename_i hle
          simp only [Option.map_eq_some_iff, Prod.exists, Prod.mk.injEq, List.cons.injEq]
          constructor
          · rintro ⟨a, b, h, ⟨rfl, rfl⟩, rfl⟩
            obtain ⟨rfl, hb⟩ := ih.1 h
            exact ⟨⟨rfl, rfl⟩, by omega⟩
          · rintro ⟨⟨rfl, rfl⟩, hb⟩
            exact ⟨before, after, ih.2 ⟨rfl, by omega⟩, ⟨rfl, rfl⟩, rfl⟩
        · rename_i hle
          simp only [reduceCtorEq, false_iff, not_and]
          rintro ⟨rfl, _⟩ hb
          omega

end Text

namespace Span

open Text

/-- The part of `l` that the span covers, if it ends between characters. -/
def slice? (span : Span) (l : List Char) : Option (List Char) := do
  let (_, rest) ← splitBytes? span.offset l
  let (part, _) ← splitBytes? span.length rest
  return part

end Span

end Calculator
