import Calculator.Proofs.Decimal.Rounding

/-!
# Shortest decimals read back

The shortest decimal of a positive number is read as that number (`toFloat_shortest`). Whatever
decimal the search finds has been read back by it. Should it find none, the exact value stands in,
and that is read back because it is exact.
-/

open Float.Model Float.Model.UnpackedFloat

namespace Calculator

/-- A power of two is the same as a rational number. -/
lemma cast_two_pow (k : Nat) : ((Nat.pow 2 k : Nat) : ℚ) = 2 ^ k :=
  Nat.cast_pow 2 k

/-- The fields of a finite number give its value. -/
lemma Magnitude.value_ofFloat {x : Float} {s : Sign} {m : Nat} {e : Int} {pos}
    (h : x.toModel.unpack = .finite s m e pos) :
    ((ofFloat x).numerator : ℚ) = m * 2 ^ e * (ofFloat x).denominator ∧
      ∃ k, (ofFloat x).denominator = 2 ^ k := by
  have denotes := Binary64.denotes_unpack x.toBits.toBitVec
  have unpacked : UnpackedFloat.unpack Format.binary64 x.toBits.toBitVec = .finite s m e pos := h
  rw [unpacked] at denotes
  rw [ofFloat]
  change Binary64.Denotes _ (x.toBits.toNat / Nat.pow 2 52 % Nat.pow 2 11)
    (x.toBits.toNat % Nat.pow 2 52) _
    at denotes
  generalize Sign.ofBitVec _ = s', x.toBits.toNat / Nat.pow 2 52 % Nat.pow 2 11 = E,
    x.toBits.toNat % Nat.pow 2 52 = F at denotes ⊢
  cases denotes with
  | subnormal =>
    rw [if_pos rfl]
    generalize least : 1074 = k
    refine ⟨?_, k, rfl⟩
    have exponent : (-1074 : Int) = -(k : Int) := by omega
    rw [exponent, zpow_neg, zpow_natCast, cast_two_pow, inv_mul_cancel_right₀ (by positivity)]
  | normal _ above =>
    rw [if_neg above.ne']
    refine ⟨?_, _, rfl⟩
    have exponent : (E : Int) - 1075 + (1075 - E : Nat) = (E - 1075 : Nat) := by omega
    rw [cast_two_pow, Nat.cast_mul, cast_two_pow, mul_assoc, ← zpow_natCast (2 : ℚ) (1075 - E),
      ← zpow_add₀ (by decide), exponent, zpow_natCast]
    rfl

namespace Decimal

/-- Zeros at the end of the places do not count. -/
lemma normalize_value (c p : Nat) :
    (normalize c p).coefficient * 10 ^ p = c * 10 ^ (normalize c p).places := by
  induction p generalizing c with
  | zero => rfl
  | succ p ih =>
    rw [normalize]
    split
    · next zero =>
      have tens : c / 10 * 10 = c := Nat.div_mul_cancel (Nat.dvd_of_mod_eq_zero zero)
      calc (normalize (c / 10) p).coefficient * 10 ^ (p + 1)
          = (normalize (c / 10) p).coefficient * 10 ^ p * 10 := by rw [pow_succ, mul_assoc]
        _ = c / 10 * 10 * 10 ^ (normalize (c / 10) p).places := by rw [ih, mul_right_comm]
        _ = c * 10 ^ (normalize (c / 10) p).places := by rw [tens]
    · rfl

/-- The exact decimal has the value of its magnitude. -/
lemma exact_value {v : Magnitude} {q : ℚ} {k} (den : v.denominator = 2 ^ k)
    (value : (v.numerator : ℚ) = q * v.denominator) :
    ((exact v).coefficient : ℚ) = q * 10 ^ (exact v).places := by
  have same : ((exact v).coefficient : ℚ) * 10 ^ k =
      v.numerator * 5 ^ k * 10 ^ (exact v).places := by
    rw [exact, den, Nat.log2_two_pow]
    exact_mod_cast normalize_value (v.numerator * 5 ^ k) k
  have ten : (2 : ℚ) ^ k * 5 ^ k = 10 ^ k := by rw [← mul_pow]; norm_num
  rw [den] at value
  push_cast at value
  apply mul_right_cancel₀ (pow_ne_zero k (by norm_num : (10 : ℚ) ≠ 0))
  rw [same, value, ← ten]
  ring

/-- A decimal that is found on a grid reads back. -/
lemma toFloat_of_onGrid? {x k d} (h : onGrid? x k = some d) : d.toFloat = x := by
  simp only [onGrid?] at h
  split_ifs at h with below above
  · cases h
    exact below.1
  · cases h
    exact above

/-- The shortest decimal of a positive number is read as the number. -/
lemma toFloat_shortest {x : Float} {m : Nat} {e : Int} {pos}
    (h : x.toModel.unpack = .finite .positive m e pos) : (shortest x).toFloat = x := by
  obtain ⟨value, k, den⟩ := Magnitude.value_ofFloat h
  have canonical := Binary64.canonical_unpack h
  have nonzero : (Magnitude.ofFloat x).numerator ≠ 0 := by
    have pos : (0 : ℚ) < (Magnitude.ofFloat x).numerator := by
      rw [value, den]
      exact mul_pos canonical.value_pos (by positivity)
    exact_mod_cast pos.ne'
  simp only [shortest, if_neg nonzero]
  cases search : (List.range' 1 17).findSome? _ with
  | some d =>
    obtain ⟨digits, _, found⟩ := List.exists_of_findSome?_eq_some search
    exact toFloat_of_onGrid? found
  | none =>
    rw [Option.getD_none, Binary64.toFloat_of_value canonical (exact_value den value), ← h,
      Binary64.pack_unpack_model]

end Decimal

end Calculator
