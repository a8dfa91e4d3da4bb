import Calculator.Proofs.Decimal.Packing

/-!
# Exact results

A number whose exact value a word can hold is not changed by rounding
(`roundWithAccuracy_of_value`). So the product and the quotient of two numbers are exact whenever
they can be (`mul_of_value`, `div_of_value`), and a decimal is read as the number `M * 2 ^ E`
whenever that is its value (`toFloat_of_value`), on each of the ways that reading it takes.
-/

open Float.Model Float.Model.UnpackedFloat

namespace Calculator.Binary64

variable {s : Sign} {m m₁ m₂ M : Nat} {e e₁ e₂ E : Int}

/-- A number is rounded to 53 bits, or to the least exponent. -/
lemma targetExponent_eq (t : Int) : Format.binary64.targetExponent t = max (t - 53) (-1074) := rfl

/-- A canonical number is not rounded. -/
lemma Canonical.targetExponent (h : Canonical m e) :
    Format.binary64.targetExponent (totalExponent m e) = e := by
  obtain ⟨pos, lt, least, greatest, full⟩ := h
  have high : m.log2 < 53 := (Nat.log2_lt pos.ne').2 lt
  rw [targetExponent_eq, totalExponent]
  rcases full with rfl | full
  · omega
  · have low : 52 ≤ m.log2 := (Nat.le_log2 pos.ne').2 full
    omega

/-- A canonical number is positive. -/
lemma Canonical.value_pos (h : Canonical m e) : (0 : ℚ) < m * 2 ^ e := by
  have pos := h.pos
  positivity

/-- A power of two adds to the logarithm. -/
lemma log2_mul_two_pow (pos : 0 < m) (k : Nat) : (m * 2 ^ k).log2 = m.log2 + k := by
  induction k with
  | zero => simp
  | succ k ih =>
    have ne : m * 2 ^ k ≠ 0 := by positivity
    rw [Nat.pow_succ', Nat.mul_left_comm, Nat.log2_two_mul ne, ih, Nat.add_assoc]

/-- Equal values differ by a power of two in their significands. -/
lemma eq_mul_two_pow {k : Nat} (value : (m : ℚ) * 2 ^ e = M * 2 ^ (e + k)) : m = M * 2 ^ k := by
  have pos : (0 : ℚ) < 2 ^ e := by positivity
  have quotient : (m : ℚ) = M * 2 ^ k := by
    apply mul_right_cancel₀ pos.ne'
    rw [value, zpow_add₀ (by decide), zpow_natCast]
    ring
  exact_mod_cast quotient

section Rounding
open ExtendedMantissa

/-- Zeros that are shifted out leave nothing behind. -/
lemma shiftRight_exact (m k : Nat) :
    ofMantissaAndAccuracy (m * 2 ^ k) .exact >>> k = ofMantissaAndAccuracy m .exact := by
  induction k generalizing m with
  | zero => rw [Nat.pow_zero, Nat.mul_one]; rfl
  | succ k ih =>
    change shiftRightOne (ofMantissaAndAccuracy (m * 2 ^ (k + 1)) .exact >>> k) = _
    rw [Nat.pow_succ', ← Nat.mul_assoc, ih]
    simp [shiftRightOne, ofMantissaAndAccuracy]

/-- Zeros at the end are shifted out exactly. -/
lemma shiftToTargetExponent_exact (h : Canonical m e) (k : Nat) :
    shiftToTargetExponent Format.binary64 (m * 2 ^ k) (e - k) .exact =
      (ofMantissaAndAccuracy m .exact, e) := by
  have total : totalExponent (m * 2 ^ k) (e - k) = totalExponent m e := by
    simp only [totalExponent, log2_mul_two_pow h.pos]
    omega
  have shift : (e - (e - k)).toNat = k := by omega
  rw [shiftToTargetExponent, total, h.targetExponent, shiftToExponent, shift, shiftRight_exact,
    Int.sub_add_cancel]

/-- Zeros at the end are rounded away exactly. -/
lemma roundWithAccuracy_exact (h : Canonical m e) (k : Nat) :
    roundWithAccuracy Format.binary64 s (m * 2 ^ k) (e - k) .exact = .finite s m e h.pos := by
  -- Nothing was rounded up, so there is nothing left to shift the second time.
  have rounded : (ofMantissaAndAccuracy m .exact).roundedMantissa = m := rfl
  have again := shiftToTargetExponent_exact h 0
  rw [Nat.pow_zero, Nat.mul_one, Int.natCast_zero, Int.sub_zero] at again
  simp only [roundWithAccuracy, shiftToTargetExponent_exact h, rounded, again]
  exact dif_neg h.pos.ne'

/-- A value that a word can hold is rounded to itself. -/
lemma roundWithAccuracy_of_value (h : Canonical M E) (le : e ≤ E)
    (value : (m : ℚ) * 2 ^ e = M * 2 ^ E) :
    roundWithAccuracy Format.binary64 s m e .exact = .finite s M E h.pos := by
  obtain ⟨k, rfl⟩ := Int.le.dest le
  obtain rfl := eq_mul_two_pow value
  rw [← roundWithAccuracy_exact h k, Int.add_sub_cancel]

end Rounding

section Bounds

/-- The total exponent bounds a number from below. -/
lemma two_zpow_le (pos : 0 < m) : (2 : ℚ) ^ (totalExponent m e - 1) ≤ m * 2 ^ e := by
  have low : (2 : ℚ) ^ m.log2 ≤ m := by exact_mod_cast Nat.log2_self_le pos.ne'
  calc (2 : ℚ) ^ (totalExponent m e - 1)
      = 2 ^ m.log2 * 2 ^ e := by
        rw [totalExponent, ← zpow_natCast, ← zpow_add₀ (by decide)]
        congr 1
        omega
    _ ≤ m * 2 ^ e := by gcongr

/-- The total exponent bounds a number from above. -/
lemma lt_two_zpow : (m : ℚ) * 2 ^ e < 2 ^ totalExponent m e := by
  have high : (m : ℚ) < 2 ^ (m.log2 + 1) := by exact_mod_cast Nat.lt_log2_self
  calc (m : ℚ) * 2 ^ e
      < 2 ^ (m.log2 + 1) * 2 ^ e := by gcongr
    _ = 2 ^ totalExponent m e := by
        rw [totalExponent, ← zpow_natCast, ← zpow_add₀ (by decide)]
        rfl

/-- A quotient lies no higher than its operands tell. -/
lemma totalExponent_sub_le (pos : 0 < m₁) (value : (m₁ : ℚ) * 2 ^ e₁ = M * 2 ^ E * (m₂ * 2 ^ e₂)) :
    totalExponent m₁ e₁ - totalExponent m₂ e₂ ≤ totalExponent M E := by
  have bound : (2 : ℚ) ^ (totalExponent m₁ e₁ - 1) <
      2 ^ (totalExponent M E + totalExponent m₂ e₂) :=
    calc (2 : ℚ) ^ (totalExponent m₁ e₁ - 1)
        ≤ m₁ * 2 ^ e₁ := two_zpow_le pos
      _ = M * 2 ^ E * (m₂ * 2 ^ e₂) := value
      _ < 2 ^ totalExponent M E * 2 ^ totalExponent m₂ e₂ := by
        gcongr
        · exact lt_two_zpow
        · exact lt_two_zpow
      _ = 2 ^ (totalExponent M E + totalExponent m₂ e₂) := (zpow_add₀ (by decide) _ _).symm
  have := (zpow_lt_zpow_iff_right₀ (by decide)).1 bound
  omega

end Bounds

section Operations
variable {pos₁ : 0 < m₁} {pos₂ : 0 < m₂}

/-- A product that a word can hold is exact. -/
lemma mul_of_value (h : Canonical M E) (le : e₁ + e₂ ≤ E)
    (value : (m₁ : ℚ) * 2 ^ e₁ * (m₂ * 2 ^ e₂) = M * 2 ^ E) :
    UnpackedFloat.mul Format.binary64 (.finite .positive m₁ e₁ pos₁)
      (.finite .positive m₂ e₂ pos₂) =
      .finite .positive M E h.pos := by
  have product : ((m₁ * m₂ : Nat) : ℚ) * 2 ^ (e₁ + e₂) = M * 2 ^ E := by
    rw [← value, zpow_add₀ (by decide)]
    push_cast
    ring
  rw [UnpackedFloat.mul, roundWithAccuracy_of_value h le product]
  rfl

/-- A quotient that a word can hold is exact. -/
lemma div_of_value (h : Canonical M E) (value : (m₁ : ℚ) * 2 ^ e₁ = M * 2 ^ E * (m₂ * 2 ^ e₂)) :
    UnpackedFloat.div Format.binary64 (.finite .positive m₁ e₁ pos₁)
      (.finite .positive m₂ e₂ pos₂) =
      .finite .positive M E h.pos := by
  have total := totalExponent_sub_le pos₁ value
  have target := h.targetExponent
  simp only [UnpackedFloat.div, divCore, targetExponent_eq] at target ⊢
  generalize ht : min (e₁ - e₂) (max (totalExponent m₁ e₁ - totalExponent m₂ e₂ - 53) (-1074)) = t
  -- The dividend is moved `k` places to the left, and the quotient is `j` places longer than `M`.
  obtain ⟨k, hk⟩ := Int.le.dest (show t ≤ e₁ - e₂ by omega)
  obtain ⟨j, hj⟩ := Int.le.dest (show t ≤ E by omega)
  have shift : (e₁ - e₂ - t).toNat = k := by omega
  have dividend : m₁ * 2 ^ k = M * 2 ^ j * m₂ := by
    have exact : ((m₁ * 2 ^ k : Nat) : ℚ) * 2 ^ (t + e₂) = (M * m₂ : Nat) * 2 ^ (t + e₂ + j) := by
      have left : e₁ = t + e₂ + k := by omega
      rw [left, ← hj] at value
      simp only [zpow_add₀ (two_ne_zero' ℚ), zpow_natCast] at value ⊢
      push_cast
      linear_combination value
    rw [eq_mul_two_pow exact, Nat.mul_right_comm]
  have exponent : t = E - j := by omega
  rw [shift, Nat.shiftLeft_eq, dividend, Nat.mul_div_cancel _ pos₂, Nat.mul_mod_left,
    accuracyOfFraction, if_pos rfl, exponent]
  exact roundWithAccuracy_exact h j

end Operations

/-- The number is positive and canonical, with the value `q`. -/
def Exactly (u : UnpackedFloat) (q : ℚ) : Prop :=
  ∃ m e, ∃ h : Canonical m e, u = .finite .positive m e h.pos ∧ (m : ℚ) * 2 ^ e = q

/-- Such a number is unpacked from its word. -/
lemma Exactly.unpack_pack {u q} (h : Exactly u q) : (Float.Model.pack u).unpack = u := by
  obtain ⟨m, e, canonical, rfl, -⟩ := h
  exact Binary64.unpack_pack canonical

/-- A short number is canonical with its leading one in place. -/
lemma canonical_normal {n : Nat} (pos : 0 < n) (lt : n < 2 ^ 53) {j : Int} (least : 0 ≤ j)
    (greatest : j ≤ 900) :
    Canonical (n * 2 ^ (52 - n.log2)) (j - (52 - n.log2 : Nat)) := by
  have short : n.log2 < 53 := (Nat.log2_lt pos.ne').2 lt
  have ne : n * 2 ^ (52 - n.log2) ≠ 0 := by positivity
  have full : (n * 2 ^ (52 - n.log2)).log2 = 52 := by
    rw [log2_mul_two_pow pos]
    omega
  obtain ⟨low, high⟩ := (Nat.log2_eq_iff ne).1 full
  exact ⟨Nat.pos_of_ne_zero ne, high, by omega, by omega, .inr low⟩

/-- To move the leading one does not change the value. -/
lemma value_normal (n k : Nat) (j : Int) : ((n * 2 ^ k : Nat) : ℚ) * 2 ^ (j - k) = n * 2 ^ j := by
  rw [zpow_sub₀ (by decide), zpow_natCast]
  push_cast
  field_simp

/-- A number below `2 ^ 53` is held exactly. -/
lemma exactly_ofNat {n : Nat} (pos : 0 < n) (lt : n < 2 ^ 53) :
    Exactly (UnpackedFloat.ofNat Format.binary64 n) n := by
  have short : n.log2 < 53 := (Nat.log2_lt pos.ne').2 lt
  have positive : compare (n : Int) 0 = .gt := Int.compare_eq_gt.2 (by omega)
  have target : max ((n.log2 : Int) + 1 + 0 - 53) (-1074) = 0 - (52 - n.log2 : Nat) := by omega
  have shift : ((0 : Int) - (0 - (52 - n.log2 : Nat))).toNat = 52 - n.log2 := by omega
  have canonical := canonical_normal pos lt (j := 0) (by decide) (by decide)
  refine ⟨_, _, canonical, ?_, ?_⟩
  · rw [UnpackedFloat.ofNat, UnpackedFloat.ofInt, UnpackedFloat.normalize, positive]
    simp only [UnpackedFloat.round, targetExponent_eq, totalExponent, target,
      decreaseExponent, shift, Int.toNat_natCast, Nat.shiftLeft_eq]
    exact roundWithAccuracy_of_value canonical le_rfl rfl
  · rw [value_normal, zpow_zero, mul_one]

/-- The table holds powers of ten. -/
lemma powersOfTen_eq : ∀ p : Fin Float.exactlyRepresentablePowersOfTen.size,
    Float.exactlyRepresentablePowersOfTen[p] =
      .ofModel (.pack (.finite .positive (5 ^ p.val * 2 ^ (52 - (5 ^ p.val).log2))
        (p.val - (52 - (5 ^ p.val).log2 : Nat))
        (Nat.mul_pos (Nat.pow_pos (Nat.succ_pos 4)) (Nat.two_pow_pos _)))) := by
  decide +kernel

/-- The powers in the table are held exactly. -/
lemma exactly_powersOfTen (p : Fin Float.exactlyRepresentablePowersOfTen.size) :
    Exactly Float.exactlyRepresentablePowersOfTen[p].toModel.unpack (10 ^ p.val) := by
  have lt : p.val < 23 := p.isLt
  have le : 5 ^ p.val ≤ 5 ^ 22 := Nat.pow_le_pow_right (by decide) (by omega)
  have canonical :=
    canonical_normal (n := 5 ^ p.val) (by positivity) (by omega) (j := p.val) (by omega) (by omega)
  have ten : (5 : ℚ) * 2 = 10 := by norm_num
  rw [powersOfTen_eq]
  refine ⟨_, _, canonical, Binary64.unpack_pack canonical, ?_⟩
  rw [value_normal, zpow_natCast, Nat.cast_pow, Nat.cast_ofNat, ← mul_pow, ten]

/-- A quotient of exact numbers is exact, if a word can hold it. -/
lemma div_of_exactly {u₁ u₂ q₁ q₂} (h : Canonical M E) (h₁ : Exactly u₁ q₁) (h₂ : Exactly u₂ q₂)
    (value : q₁ = M * 2 ^ E * q₂) :
    UnpackedFloat.div Format.binary64 u₁ u₂ = .finite .positive M E h.pos := by
  obtain ⟨m₁, e₁, _, rfl, rfl⟩ := h₁
  obtain ⟨m₂, e₂, _, rfl, rfl⟩ := h₂
  exact div_of_value h value

section Decimals
variable {c p : Nat}

/-- A positive number has a positive coefficient. -/
lemma coefficient_pos (h : Canonical M E) (value : (c : ℚ) = M * 2 ^ E * 10 ^ p) : 0 < c := by
  have pos : (0 : ℚ) < M * 2 ^ E * 10 ^ p := mul_pos h.value_pos (by positivity)
  rw [← value] at pos
  exact_mod_cast pos

/-- A number that a word can hold has few places. -/
lemma places_lt (h : Canonical M E) (value : (c : ℚ) = M * 2 ^ E * 10 ^ p) : p < c.log2 + 1075 := by
  have one : (1 : ℚ) ≤ M := by exact_mod_cast h.pos
  have least : (2 : ℚ) ^ (-1074 : Int) ≤ M * 2 ^ E :=
    calc (2 : ℚ) ^ (-1074 : Int) ≤ 2 ^ E := zpow_le_zpow_right₀ (by decide) h.least
      _ ≤ M * 2 ^ E := le_mul_of_one_le_left (by positivity) one
  have high : (c : ℚ) < 2 ^ (c.log2 + 1) := by exact_mod_cast Nat.lt_log2_self
  have bound : (2 : ℚ) ^ p < 2 ^ (c.log2 + 1075) :=
    calc (2 : ℚ) ^ p ≤ 10 ^ p := by gcongr; norm_num
      _ = 2 ^ 1074 * (2 ^ (-1074 : Int) * 10 ^ p) := by
        rw [zpow_neg, zpow_ofNat, mul_inv_cancel_left₀ (by positivity)]
      _ ≤ 2 ^ 1074 * (M * 2 ^ E * 10 ^ p) := by gcongr
      _ = 2 ^ 1074 * c := by rw [value]
      _ < 2 ^ 1074 * 2 ^ (c.log2 + 1) := by gcongr
      _ = 2 ^ (c.log2 + 1075) := by rw [← pow_add]; congr 1; omega
  exact (pow_lt_pow_iff_right₀ (by decide)).1 bound

/-- A number from one on has no small exponent. -/
lemma least_of_one_le (h : Canonical M E) (one : (1 : ℚ) ≤ M * 2 ^ E) : -53 ≤ E := by
  have high : (M : ℚ) < 2 ^ (53 : Int) := by exact_mod_cast h.lt
  have bound : (2 : ℚ) ^ (0 : Int) < 2 ^ (53 + E) :=
    calc (2 : ℚ) ^ (0 : Int) ≤ M * 2 ^ E := one
      _ < 2 ^ (53 : Int) * 2 ^ E := by gcongr
      _ = 2 ^ (53 + E) := (zpow_add₀ (by decide) _ _).symm
  have := (zpow_lt_zpow_iff_right₀ (by decide)).1 bound
  omega

/-- A decimal that a word can hold is read exactly. -/
lemma ofScientific_of_value (h : Canonical M E) (value : (c : ℚ) = M * 2 ^ E * 10 ^ p) :
    UnpackedFloat.ofScientific Format.binary64 c (-(p : Int)) = .finite .positive M E h.pos := by
  have pos := coefficient_pos h value
  have places := places_lt h value
  have small : ¬ -(p : Int) > 2 ^ Format.binary64.exponentBits := by
    change ¬ -(p : Int) > 2 ^ 11
    omega
  have large : ¬ -(p : Int) < -(2 ^ Format.binary64.exponentBits + c.log2) := by
    change ¬ -(p : Int) < -(2 ^ 11 + c.log2)
    omega
  rw [UnpackedFloat.ofScientific, dif_neg pos.ne', if_neg small, if_neg large]
  split
  · next whole =>
    obtain rfl : p = 0 := by omega
    rw [pow_zero, mul_one] at value
    have one : (1 : ℚ) ≤ M * 2 ^ E := by
      rw [← value]
      exact_mod_cast pos
    refine mul_of_value h (least_of_one_le h one) ?_
    rw [Nat.shiftLeft_eq, ← value]
    simp
  · refine div_of_value h ?_
    simp [value]

/-- A decimal is read as the number that it is. -/
lemma toFloat_of_value {d : Decimal} (h : Canonical M E)
    (value : (d.coefficient : ℚ) = M * 2 ^ E * 10 ^ d.places) :
    d.toFloat = .ofModel (.pack (.finite .positive M E h.pos)) := by
  rw [Decimal.toFloat, Float.ofScientific]
  split
  · next fast =>
    have word : d.coefficient.toUInt64.toNat = d.coefficient := Nat.mod_eq_of_lt (by omega)
    have numerator :
        Exactly (Float.Model.ofUInt64 d.coefficient.toUInt64).unpack d.coefficient := by
      have exactly := exactly_ofNat (coefficient_pos h value) fast.1
      rw [Float.Model.ofUInt64, UnpackedFloat.ofUInt64, word, exactly.unpack_pack]
      exact exactly
    have denominator := exactly_powersOfTen ⟨d.places, Nat.lt_succ_of_le fast.2⟩
    rw [← div_of_exactly h numerator denominator value]
    rfl
  · have exponent : Int.negOfNat d.places = -(d.places : Int) := Int.negOfNat_eq
    rw [if_pos rfl, exponent]
    exact congrArg (fun u => Float.ofModel (.pack u)) (ofScientific_of_value h value)

end Decimals

end Calculator.Binary64
