import Calculator.Proofs.Decimal.Sign

/-!
# The numbers of numerals

A decimal is read as a zero, a positive number or infinity, never as a number with a minus sign and
never as the value that is no number (`unsigned_toFloat`): the one rounding that reading a decimal
takes keeps the sign, and packing can at most make the number infinite. So the text of a token that
was read from a decimal and is finite is itself the text of a decimal, which is read as the same
number (`exists_decimal_of_toFloat`).
-/

open Float.Model Float.Model.UnpackedFloat

namespace Calculator
open Binary64

namespace Binary64

/-- The number is infinity, a zero or finite, without a minus sign. -/
inductive Unsigned : UnpackedFloat → Prop where
  | infinity :
    Unsigned (.infinity .positive)
  | zero :
    Unsigned (.zero .positive)
  | finite {m e} (pos : 0 < m) :
    Unsigned (.finite .positive m e pos)

/-- Rounding adds no sign. -/
lemma unsigned_roundWithAccuracy (m : Nat) (e : Int) (accuracy : Accuracy) :
    Unsigned (roundWithAccuracy Format.binary64 .positive m e accuracy) := by
  simp only [roundWithAccuracy]
  split
  · exact .zero
  · exact .finite _

section Operations
variable {u : UnpackedFloat} {m : Nat}

/-- A product of unsigned numbers is unsigned. -/
lemma Unsigned.mul (h : Unsigned u) (e : Int) (pos : 0 < m) :
    Unsigned (UnpackedFloat.mul Format.binary64 u (.finite .positive m e pos)) := by
  cases h with
  | infinity => exact .infinity
  | zero => exact .zero
  | finite => exact unsigned_roundWithAccuracy _ _ _

/-- A quotient of unsigned numbers is unsigned. -/
lemma Unsigned.div (h : Unsigned u) (e : Int) (pos : 0 < m) :
    Unsigned (UnpackedFloat.div Format.binary64 u (.finite .positive m e pos)) := by
  cases h with
  | infinity => exact .infinity
  | zero => exact .zero
  | finite => exact unsigned_roundWithAccuracy _ _ _

end Operations

/-- A natural number is unsigned. -/
lemma unsigned_ofNat (n : Nat) : Unsigned (UnpackedFloat.ofNat Format.binary64 n) := by
  rw [UnpackedFloat.ofNat, UnpackedFloat.ofInt, UnpackedFloat.normalize]
  split
  · next negative => exact absurd (Int.compare_eq_lt.1 negative) (by omega)
  · exact .zero
  · exact unsigned_roundWithAccuracy _ _ _

/-- A decimal is read without a sign. -/
lemma unsigned_ofScientific (c : Nat) (k : Int) :
    Unsigned (UnpackedFloat.ofScientific Format.binary64 c k) := by
  rw [UnpackedFloat.ofScientific]
  split_ifs
  · exact .zero
  · exact .infinity
  · exact .zero
  · exact Unsigned.mul (.finite _) _ _
  · exact Unsigned.div (.finite _) _ _

/-- A word without the sign bit is unsigned, unless it is no number. -/
lemma Denotes.unsigned {E F u} (h : Denotes .positive E F u) (number : E = 2047 → F = 0) :
    Unsigned u := by
  cases h with
  | infinity => exact .infinity
  | notANumber ne => exact absurd (number rfl) ne
  | zero => exact .zero
  | subnormal pos => exact .finite pos
  | normal pos => exact .finite pos

/-- An unsigned number is packed without a sign. -/
lemma Unsigned.exists_fields {u} (h : Unsigned u) :
    ∃ E F, E < 2 ^ 11 ∧ F < 2 ^ 52 ∧ (E = 2047 → F = 0) ∧
      (UnpackedFloat.pack Format.binary64 u).toNat = E * 2 ^ 52 + F := by
  cases h with
  | infinity => exact ⟨2047, 0, by decide, by decide, fun _ => rfl, rfl⟩
  | zero => exact ⟨0, 0, by decide, by decide, fun _ => rfl, rfl⟩
  | @finite m e pos =>
    rw [UnpackedFloat.pack]
    split_ifs with large full
    · exact ⟨2047, 0, by decide, by decide, fun _ => rfl, rfl⟩
    · generalize (e + Format.binary64.exponentBias +
        Format.binary64.mantissaBitsWithoutImplicit).toNat = E
        at large
      have below : E < 2047 := by
        change ¬ 2 ^ 11 ≤ E + 1 at large
        omega
      refine ⟨E, m % 2 ^ 52, by omega, Nat.mod_lt _ (by decide), by omega, ?_⟩
      have exponent : E % 2 ^ 11 = E := Nat.mod_eq_of_lt (by omega)
      rw [toNat_packComponents, BitVec.toNat_ofNat, BitVec.toNat_ofNat]
      change 0 * 2 ^ 63 + E % 2 ^ 11 * 2 ^ 52 + m % 2 ^ 52 = _
      omega
    · refine ⟨0, m % 2 ^ 52, by decide, Nat.mod_lt _ (by decide), by omega, ?_⟩
      rw [toNat_packComponents, BitVec.toNat_ofNat]
      rfl

/-- To pack an unsigned number adds no sign. -/
lemma Unsigned.unpack_pack {u} (h : Unsigned u) : Unsigned (Float.Model.pack u).unpack := by
  obtain ⟨E, F, hE, hF, number, word⟩ := h.exists_fields
  have back := denotes_unpack (UnpackedFloat.pack Format.binary64 u)
  have sign : unpackSign (UnpackedFloat.pack Format.binary64 u) = 0#1 := by
    apply BitVec.eq_of_toNat_eq
    rw [toNat_unpackSign, word]
    change _ = 0
    omega
  have exponent : (E * 2 ^ 52 + F) / 2 ^ 52 % 2 ^ 11 = E := by omega
  have fraction : (E * 2 ^ 52 + F) % 2 ^ 52 = F := by omega
  rw [sign, word, exponent, fraction] at back
  exact back.unsigned number

end Binary64

/-- A decimal is read as a number without a minus sign. -/
theorem unsigned_toFloat (d : Decimal) : Unsigned d.toFloat.toModel.unpack := by
  rw [Decimal.toFloat, Float.ofScientific]
  split
  · next fast =>
    obtain ⟨m, e, canonical, power, -⟩ := exactly_powersOfTen ⟨d.places, Nat.lt_succ_of_le fast.2⟩
    have numerator : Unsigned (Float.Model.ofUInt64 d.coefficient.toUInt64).unpack :=
      (unsigned_ofNat _).unpack_pack
    have quotient := (numerator.div e canonical.pos).unpack_pack
    rw [← power] at quotient
    exact quotient
  · rw [if_pos rfl]
    exact (unsigned_ofScientific _ _).unpack_pack

section
variable {v : Float} {m : Nat} {e : Int} {pos : 0 < m}

/-- The token of a positive number is written as the shortest decimal. -/
lemma render_of_positive (h : v.toModel.unpack = .finite .positive m e pos) :
    Token.style.render v = (Decimal.shortest v).toChars := by
  have number : v.isNaN = v.toModel.unpack.isNaN := rfl
  have bounded : v.isInf = v.toModel.unpack.isInf := rfl
  have same : Float.ofBits (v.toBits &&& 0x7FFFFFFFFFFFFFFF) = v := magnitude_of_positive h
  rw [h] at number bounded
  simp only [Style.render, number, bounded, same, Token.style, UnpackedFloat.isNaN,
    UnpackedFloat.isInf]
  simp

end

/-- A finite number that was read is written as a decimal that reads back. -/
theorem exists_decimal_of_toFloat {d : Decimal} (finite : d.toFloat.isFinite = true) :
    ∃ d' : Decimal, Token.style.render d.toFloat = d'.toChars ∧ d'.toFloat = d.toFloat := by
  have unsigned := unsigned_toFloat d
  have bounded : d.toFloat.isFinite = d.toFloat.toModel.unpack.isFinite := rfl
  generalize d.toFloat = v at *
  cases u : v.toModel.unpack with
  | notANumber =>
    rw [u] at unsigned
    cases unsigned
  | infinity s =>
    rw [bounded, u] at finite
    cases finite
  | zero s =>
    rw [u] at unsigned
    cases unsigned
    obtain rfl : v = 0 := unpack_injective (u.trans unpack_zero.symm)
    exact ⟨⟨0, 0⟩, by decide +kernel, by decide +kernel⟩
  | finite s m e pos =>
    rw [u] at unsigned
    cases unsigned
    exact ⟨Decimal.shortest v, render_of_positive u, Decimal.toFloat_shortest u⟩

end Calculator
