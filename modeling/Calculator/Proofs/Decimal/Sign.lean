import Calculator.Proofs.Decimal.Result
import Calculator.Proofs.Decimal.RoundTrip

/-!
# The sign of a result

A finite result that is not negative is shown as a numeral, and the numeral reads back as the
result, but for the sign of a zero, which no later result shows either (`exists_decimal_of_nonneg`).
The text of any other result starts with a minus sign or a letter (`head_formatResult`).
-/

open Float.Model Float.Model.UnpackedFloat

namespace Calculator
open Binary64

variable {v : Float} {s : Sign} {m : Nat} {e : Int} {pos : 0 < m}

/-- Zero is unpacked as a zero. -/
lemma unpack_zero : (0 : Float).toModel.unpack = .zero .positive := rfl

/-- Without its sign a number has the same fields but the sign. -/
lemma unpack_magnitude (v : Float) : (magnitude v).toModel.unpack = v.toModel.unpack.abs := by
  have whole := denotes_unpack v.toBits.toBitVec
  have part := denotes_unpack (v.toBits &&& 0x7FFFFFFFFFFFFFFF).toBitVec
  have masked : (v.toBits &&& 0x7FFFFFFFFFFFFFFF).toBitVec.toNat =
      v.toBits.toBitVec.toNat % 2 ^ 63 :=
    (UInt64.toNat_and _ _).trans (Nat.and_two_pow_sub_one_eq_mod _ 63)
  have sign : @unpackSign Format.binary64 (v.toBits &&& 0x7FFFFFFFFFFFFFFF).toBitVec = 0#1 := by
    apply BitVec.eq_of_toNat_eq
    rw [toNat_unpackSign, masked]
    exact Nat.div_eq_of_lt (Nat.mod_lt _ (by decide))
  have exponent : v.toBits.toBitVec.toNat % 2 ^ 63 / 2 ^ 52 % 2 ^ 11 =
    v.toBits.toBitVec.toNat / 2 ^ 52 % 2 ^ 11 := by omega
  have fraction : v.toBits.toBitVec.toNat % 2 ^ 63 % 2 ^ 52 =
      v.toBits.toBitVec.toNat % 2 ^ 52 := by omega
  rw [sign, masked, exponent, fraction] at part
  exact (unpack_pack_unpack _).trans (part.unique whole.abs)

/-- A finite number that is not negative is a zero or positive. -/
lemma isFinite_and_nonneg_iff : v.isFinite = true ∧ 0 ≤ v ↔
    (∃ s, v.toModel.unpack = .zero s) ∨
      ∃ m e pos, v.toModel.unpack = .finite .positive m e pos := by
  have finite : v.isFinite = v.toModel.unpack.isFinite := rfl
  have nonneg : 0 ≤ v ↔ (UnpackedFloat.zero .positive).le v.toModel.unpack = true := by
    show decide ((Float.toModel 0).unpack.le v.toModel.unpack = true) = true ↔ _
    rw [unpack_zero, decide_eq_true_iff]
  rw [finite, nonneg]
  cases v.toModel.unpack with
  | notANumber => simp [UnpackedFloat.isFinite]
  | infinity s => simp [UnpackedFloat.isFinite]
  | zero s => simp [UnpackedFloat.isFinite, UnpackedFloat.le, UnpackedFloat.compare]
  | finite s m e pos =>
    cases s with
    | positive => simpa [UnpackedFloat.isFinite, UnpackedFloat.le, UnpackedFloat.compare] using pos
    | negative => simp [UnpackedFloat.isFinite, UnpackedFloat.le, UnpackedFloat.compare]

/-- The text of a result by what it holds. -/
lemma formatResult_eq_match (v : Float) :
    formatResult v =
      match v.toModel.unpack with
      | .notANumber => "NaN".toList
      | .infinity _ => resultSign v ++ "Infinity".toList
      | _ => resultSign v ++ (Decimal.shortest (magnitude v)).toChars := by
  have number : v.isNaN = v.toModel.unpack.isNaN := rfl
  have bounded : v.isInf = v.toModel.unpack.isInf := rfl
  rw [formatResult_eq, number, bounded]
  cases v.toModel.unpack <;> rfl

/-- Both zeros are shown as `0`. -/
lemma formatResult_of_zero (h : v.toModel.unpack = .zero s) : formatResult v = ['0'] := by
  have zero : magnitude v = 0 := by
    apply unpack_injective
    rw [unpack_magnitude, h]
    rfl
  rw [formatResult_eq_match, h, resultSign, zero, if_pos (.inr rfl)]
  show (Decimal.shortest 0).toChars = ['0']
  decide +kernel

/-- A positive number is its own magnitude. -/
lemma magnitude_of_positive (h : v.toModel.unpack = .finite .positive m e pos) :
    magnitude v = v := by
  apply unpack_injective
  rw [unpack_magnitude, h]
  rfl

/-- A positive number is shown as its decimal. -/
lemma formatResult_of_positive (h : v.toModel.unpack = .finite .positive m e pos) :
    formatResult v = (Decimal.shortest v).toChars := by
  rw [formatResult_eq_match, h, resultSign, magnitude_of_positive h, if_pos (.inl rfl)]
  rfl

/-- A negative number is shown with a minus sign. -/
lemma resultSign_of_negative (h : v.toModel.unpack = .finite .negative m e pos) :
    resultSign v = ['-'] := by
  have part : (magnitude v).toModel.unpack = .finite .positive m e pos := by
    rw [unpack_magnitude, h]
    rfl
  refine if_neg (not_or.2 ⟨fun same => ?_, ?_⟩)
  · have whole : v.toModel.unpack = (magnitude v).toModel.unpack :=
      congrArg (fun bits => UnpackedFloat.unpack Format.binary64 (UInt64.toBitVec bits)) same
    rw [h, part] at whole
    cases whole
  · have equal : (magnitude v == 0.0) =
        (magnitude v).toModel.unpack.beq (0 : Float).toModel.unpack := rfl
    rw [equal, part, unpack_zero]
    exact Bool.false_ne_true

/-- Any other result starts with a letter or a minus sign. -/
lemma head_formatResult (h : ¬(v.isFinite = true ∧ 0 ≤ v)) :
    ∃ c l, formatResult v = c :: l ∧ c ∈ ['N', 'I', '-'] := by
  rw [isFinite_and_nonneg_iff] at h
  rw [formatResult_eq_match]
  cases u : v.toModel.unpack with
  | notANumber => exact ⟨'N', _, rfl, by decide⟩
  | infinity s =>
    rcases resultSign_eq v with e | e
    · rw [e]
      exact ⟨'I', _, rfl, by decide⟩
    · rw [e]
      exact ⟨'-', _, rfl, by decide⟩
  | zero s => exact absurd (.inl ⟨s, u⟩) h
  | finite s m e pos =>
    cases s with
    | positive => exact absurd (.inr ⟨m, e, pos, u⟩) h
    | negative =>
      rw [resultSign_of_negative u]
      exact ⟨'-', _, rfl, by decide⟩

/-- The numbers are the same or zeros of whatever signs. -/
inductive SameButZero : UnpackedFloat → UnpackedFloat → Prop where
  | same (u) :
    SameButZero u u
  | zeros (s t) :
    SameButZero (.zero s) (.zero t)

/-- The sign of a zero is not shown. -/
lemma SameButZero.formatResult_pack {u u'} (h : SameButZero u u') :
    formatResult (.ofModel (.pack u)) = formatResult (.ofModel (.pack u')) := by
  cases h with
  | same => rfl
  | zeros s t =>
    have text (s : Sign) : formatResult (.ofModel (.pack (.zero s))) = ['0'] :=
      formatResult_of_zero (s := s) (by cases s <;> rfl)
    rw [text, text]

/-- Operations tell zeros apart by the sign of a zero only. -/
lemma SameButZero.operations (s t : Sign) (u : UnpackedFloat) :
    SameButZero (UnpackedFloat.add .binary64 (.zero s) u)
      (UnpackedFloat.add .binary64 (.zero t) u) ∧
      SameButZero (UnpackedFloat.sub .binary64 (.zero s) u)
        (UnpackedFloat.sub .binary64 (.zero t) u) ∧
      SameButZero (UnpackedFloat.mul .binary64 (.zero s) u)
        (UnpackedFloat.mul .binary64 (.zero t) u) ∧
      SameButZero (UnpackedFloat.div .binary64 (.zero s) u)
        (UnpackedFloat.div .binary64 (.zero t) u) := by
  cases u with
  | notANumber => exact ⟨.same _, .same _, .same _, .same _⟩
  | infinity => exact ⟨.same _, .same _, .same _, .zeros _ _⟩
  | finite => exact ⟨.same _, .same _, .zeros _ _, .zeros _ _⟩
  | zero sign =>
    -- sums and differences of zeros are zeros, and their quotient is no number
    have sum (s : Sign) : ∃ s', UnpackedFloat.add .binary64 (.zero s) (.zero sign) = .zero s' := by
      cases s <;> cases sign <;> exact ⟨_, rfl⟩
    have difference (s : Sign) :
        ∃ s', UnpackedFloat.sub .binary64 (.zero s) (.zero sign) = .zero s' := by
      cases s <;> cases sign <;> exact ⟨_, rfl⟩
    obtain ⟨_, sum_s⟩ := sum s
    obtain ⟨_, sum_t⟩ := sum t
    obtain ⟨_, difference_s⟩ := difference s
    obtain ⟨_, difference_t⟩ := difference t
    rw [sum_s, sum_t, difference_s, difference_t]
    exact ⟨.zeros _ _, .zeros _ _, .zeros _ _, .same _⟩

/-- It does not show which zero is operated on. -/
lemma formatResult_apply_zero {a b : Float} {s t : Sign} (ha : a.toModel.unpack = .zero s)
    (hb : b.toModel.unpack = .zero t) (op : Operator) (w : Float) :
    formatResult (op.apply a w) = formatResult (op.apply b w) := by
  obtain ⟨add, sub, mul, div⟩ := SameButZero.operations s t w.toModel.unpack
  rw [← ha, ← hb] at add sub mul div
  cases op with
  | add => exact add.formatResult_pack
  | subtract => exact sub.formatResult_pack
  | multiply => exact mul.formatResult_pack
  | divide => exact div.formatResult_pack

/-- A result that is not negative reads back, zeros alike. -/
lemma exists_decimal_of_nonneg (finite : v.isFinite = true) (nonneg : 0 ≤ v) :
    ∃ d : Decimal, formatResult v = d.toChars ∧
      ∀ (op : Operator) w, formatResult (op.apply d.toFloat w) = formatResult (op.apply v w) := by
  rcases isFinite_and_nonneg_iff.1 ⟨finite, nonneg⟩ with ⟨s, zero⟩ | ⟨m, e, pos, positive⟩
  · have read : (⟨0, 0⟩ : Decimal).toFloat = 0 := by decide +kernel
    refine ⟨⟨0, 0⟩, formatResult_of_zero zero, formatResult_apply_zero (s := .positive) ?_ zero⟩
    rw [read, unpack_zero]
  · refine ⟨Decimal.shortest v, formatResult_of_positive positive, fun op w => ?_⟩
    rw [Decimal.toFloat_shortest positive]

end Calculator
