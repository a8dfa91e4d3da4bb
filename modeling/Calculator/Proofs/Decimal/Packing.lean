import Calculator.Decimal.Shortest
import Mathlib

/-!
# The words of binary64 numbers

A word of 64 bits has a sign, an exponent and a fraction. `Denotes` says which number three such
fields stand for, and unpacking finds exactly that number (`denotes_unpack`). A valid word is
unpacked and packed without a change; the other way round this holds of the finite numbers that are
written with their least exponent, which are the `Canonical` ones (`unpack_pack`).
-/

open Float.Model Float.Model.UnpackedFloat

namespace Calculator.Binary64

/-- The words of binary64. -/
abbrev Word := BitVec Format.binary64.numBits

/-- A significand and an exponent that a finite number is stored with. -/
structure Canonical (m : Nat) (e : Int) : Prop where
  pos : 0 < m
  lt : m < 2 ^ 53
  least : -1074 ≤ e
  greatest : e ≤ 971
  /-- Above the least exponent the significand has its leading one. -/
  full : e = -1074 ∨ 2 ^ 52 ≤ m

/-- What a word with these fields stands for. -/
inductive Denotes (s : Sign) : Nat → Nat → UnpackedFloat → Prop where
  | infinity :
    Denotes s 2047 0 (.infinity s)
  | notANumber {fraction} :
    fraction ≠ 0 →
    Denotes s 2047 fraction .notANumber
  | zero :
    Denotes s 0 0 (.zero s)
  | subnormal {fraction} (pos : 0 < fraction) :
    Denotes s 0 fraction (.finite s fraction (-1074) pos)
  | normal {exponent fraction : Nat} (pos : 0 < 2 ^ 52 + fraction) :
    0 < exponent →
    exponent < 2047 →
    Denotes s exponent fraction (.finite s (2 ^ 52 + fraction) (exponent - 1075) pos)

/-- Without its sign a word stands for the absolute value. -/
lemma Denotes.abs {s E F u} (h : Denotes s E F u) : Denotes .positive E F u.abs := by
  cases h with
  | infinity => exact .infinity
  | notANumber ne => exact .notANumber ne
  | zero => exact .zero
  | subnormal pos => exact .subnormal pos
  | normal pos above below => exact .normal pos above below

/-- A word stands for one number. -/
lemma Denotes.unique {s E F u u'} (h : Denotes s E F u) (h' : Denotes s E F u') : u = u' := by
  cases h <;> cases h' <;> grind

variable {s : Sign} {m : Nat} {e : Int}

/-- The fraction is the last 52 bits. -/
lemma toNat_unpackMantissa (b : Word) : (unpackMantissa b).toNat = b.toNat % 2 ^ 52 := by
  simp [unpackMantissa]

/-- The exponent is the 11 bits before the fraction. -/
lemma toNat_unpackExponent (b : Word) : (unpackExponent b).toNat = b.toNat / 2 ^ 52 % 2 ^ 11 := by
  simp [unpackExponent, Nat.shiftRight_eq_div_pow]

/-- The sign is the first bit. -/
lemma toNat_unpackSign (b : Word) : (unpackSign b).toNat = b.toNat / 2 ^ 63 := by
  have lt : b.toNat < 2 ^ 64 := b.isLt
  simp [unpackSign, Nat.shiftRight_eq_div_pow]
  omega

/-- A leading one stands in front of the fraction. -/
lemma toNat_one_append (f : BitVec 52) : (1#1 ++ f).toNat = 2 ^ 52 + f.toNat := by
  rw [BitVec.toNat_append, ← Nat.shiftLeft_add_eq_or_of_lt f.isLt, Nat.shiftLeft_eq]
  rfl

/-- A word is its sign, its exponent and its fraction. -/
lemma toNat_packComponents (s : Sign) (exponent : BitVec 11) (fraction : BitVec 52) :
    (packComponents Format.binary64 s exponent fraction).toNat =
      s.toBitVec.toNat * 2 ^ 63 + exponent.toNat * 2 ^ 52 + fraction.toNat := by
  rw [packComponents, BitVec.toNat_append, ← Nat.shiftLeft_add_eq_or_of_lt fraction.isLt,
    BitVec.toNat_append, ← Nat.shiftLeft_add_eq_or_of_lt exponent.isLt, Nat.shiftLeft_eq,
    Nat.shiftLeft_eq]
  ring

/-- Unpacking reads the three fields. -/
lemma denotes_unpack (b : Word) :
    Denotes (.ofBitVec (unpackSign b)) (b.toNat / 2 ^ 52 % 2 ^ 11) (b.toNat % 2 ^ 52)
      (UnpackedFloat.unpack Format.binary64 b) := by
  rw [← toNat_unpackExponent, ← toNat_unpackMantissa, UnpackedFloat.unpack]
  split_ifs with top infinite bottom none
  · rw [top, infinite]
    exact .infinity
  · rw [top]
    exact .notANumber fun e => infinite (BitVec.eq_of_toNat_eq e)
  · rw [bottom, none]
    exact .zero
  · have pos : 0 < (unpackMantissa b).toNat :=
      Nat.pos_of_ne_zero fun e => none (BitVec.eq_of_toNat_eq e)
    rw [bottom]
    exact .subnormal pos
  · have lt : (unpackExponent b).toNat < 2048 := (unpackExponent b).isLt
    have below : (unpackExponent b).toNat ≠ 2047 := fun e => top (BitVec.eq_of_toNat_eq e)
    have above : (unpackExponent b).toNat ≠ 0 := fun e => bottom (BitVec.eq_of_toNat_eq e)
    simp only [toNat_one_append]
    exact .normal _ (by omega) (by omega)

/-- A word stands for a canonical number. -/
lemma canonical_unpack {b : Word} {pos}
    (h : UnpackedFloat.unpack Format.binary64 b = .finite s m e pos) :
    Canonical m e := by
  have denotes := denotes_unpack b
  have lt : b.toNat % 2 ^ 52 < 2 ^ 52 := Nat.mod_lt _ (by decide)
  rw [h] at denotes
  generalize Sign.ofBitVec _ = s', b.toNat / 2 ^ 52 % 2 ^ 11 = E, b.toNat % 2 ^ 52 = F at denotes lt
  cases denotes with
  | subnormal => exact ⟨pos, by omega, le_rfl, by omega, .inl rfl⟩
  | normal => exact ⟨pos, by omega, by omega, by omega, .inr (by omega)⟩

/-- A number with a leading one is packed with its exponent. -/
lemma pack_normal {pos : 0 < m} (h : 2 ^ 52 ≤ m) (h' : m < 2 ^ 53) (least : -1074 ≤ e)
    (greatest : e ≤ 971) :
    UnpackedFloat.pack Format.binary64 (.finite s m e pos) =
      packComponents Format.binary64 s (.ofNat _ (e + 1075).toNat) (.ofNat _ m) := by
  have full : m.log2 = 52 := (Nat.log2_eq_iff pos.ne').2 ⟨h, h'⟩
  have biased : e + Format.binary64.exponentBias + (52 : Nat) = e + 1075 := by
    change e + 1023 + 52 = e + 1075
    omega
  have range : ¬ 2 ^ 11 ≤ (e + 1075).toNat + 1 := by omega
  simp only [UnpackedFloat.pack, biased, full]
  rw [if_neg range, if_pos (by rfl)]

/-- A smaller number is packed with the exponent zero. -/
lemma pack_subnormal {pos : 0 < m} (h : m < 2 ^ 52) :
    UnpackedFloat.pack Format.binary64 (.finite s m (-1074) pos) =
      packComponents Format.binary64 s 0#_ (.ofNat _ m) := by
  have short : m.log2 < 52 := (Nat.log2_lt pos.ne').2 h
  have full : ¬ m.log2 + 1 = Format.binary64.mantissaBits := by
    change ¬ m.log2 + 1 = 53
    omega
  rw [UnpackedFloat.pack]
  exact (if_neg (by decide)).trans (if_neg full)

/-- Packing writes the three fields. -/
lemma Denotes.toNat_pack {E F u} (h : Denotes s E F u) (hF : F < 2 ^ 52)
    (number : u ≠ .notANumber) :
    (UnpackedFloat.pack Format.binary64 u).toNat = s.toBitVec.toNat * 2 ^ 63 + E * 2 ^ 52 + F := by
  cases h with
  | infinity =>
    rw [UnpackedFloat.pack, packedInfinity, toNat_packComponents]
    rfl
  | notANumber => exact absurd rfl number
  | zero =>
    rw [UnpackedFloat.pack, packedZero, toNat_packComponents]
    rfl
  | subnormal =>
    rw [pack_subnormal hF, toNat_packComponents, BitVec.toNat_ofNat, BitVec.toNat_ofNat,
      Nat.mod_eq_of_lt hF]
  | normal =>
    rw [pack_normal (by omega) (by omega) (by omega) (by omega), toNat_packComponents,
      BitVec.toNat_ofNat, BitVec.toNat_ofNat]
    omega

/-- What a word stands for can be packed and unpacked again. -/
lemma unpack_pack_unpack (b : Word) :
    UnpackedFloat.unpack Format.binary64
      (UnpackedFloat.pack Format.binary64 (UnpackedFloat.unpack Format.binary64 b)) =
      UnpackedFloat.unpack Format.binary64 b := by
  rw [pack_unpack b]
  split_ifs with nan
  · simp only [isNaNBits, decide_eq_true_eq] at nan
    rw [unpack_packedNaN, UnpackedFloat.unpack, if_pos nan.1, if_neg nan.2]
  · rfl

/-- A number is what its word stands for. -/
lemma pack_unpack_model (x : Float.Model) : Float.Model.pack x.unpack = x := by
  obtain ⟨bits, valid⟩ := x
  simp only [Float.Model.pack, Float.Model.unpack, pack_unpack_of_valid valid]

/-- A number is told by what is unpacked from it. -/
lemma unpack_injective {x y : Float} (h : x.toModel.unpack = y.toModel.unpack) : x = y := by
  obtain ⟨x⟩ := x
  obtain ⟨y⟩ := y
  rw [← pack_unpack_model x, ← pack_unpack_model y]
  exact congrArg _ (congrArg _ h)

/-- A canonical number has a word. -/
lemma Canonical.denotes (h : Canonical m e) :
    ∃ E F, E < 2 ^ 11 ∧ F < 2 ^ 52 ∧ Denotes s E F (.finite s m e h.pos) := by
  obtain ⟨pos, lt, least, greatest, full⟩ := h
  by_cases short : m < 2 ^ 52
  · obtain rfl : e = -1074 := by omega
    exact ⟨0, m, by decide, short, .subnormal pos⟩
  · obtain ⟨F, rfl⟩ := Nat.exists_eq_add_of_le (not_lt.1 short)
    obtain ⟨E, hE⟩ := Int.eq_ofNat_of_zero_le (a := e + 1075) (by omega)
    obtain rfl : e = E - 1075 := by omega
    exact ⟨E, F, by omega, by omega, .normal pos (by omega) (by omega)⟩

/-- A canonical number is unpacked from its word. -/
lemma unpack_pack (h : Canonical m e) :
    UnpackedFloat.unpack Format.binary64
      (UnpackedFloat.pack Format.binary64 (.finite s m e h.pos)) =
      .finite s m e h.pos := by
  obtain ⟨E, F, hE, hF, denotes⟩ := h.denotes (s := s)
  have hs : s.toBitVec.toNat < 2 := s.toBitVec.isLt
  have word := denotes.toNat_pack hF nofun
  have back := denotes_unpack (UnpackedFloat.pack Format.binary64 (.finite s m e h.pos))
  have sign : unpackSign (UnpackedFloat.pack Format.binary64 (.finite s m e h.pos)) =
      s.toBitVec := by
    apply BitVec.eq_of_toNat_eq
    rw [toNat_unpackSign, word]
    omega
  have exponent : (s.toBitVec.toNat * 2 ^ 63 + E * 2 ^ 52 + F) / 2 ^ 52 % 2 ^ 11 = E := by omega
  have fraction : (s.toBitVec.toNat * 2 ^ 63 + E * 2 ^ 52 + F) % 2 ^ 52 = F := by omega
  rw [word, sign, Sign.ofBitVec_toBitVec, exponent, fraction] at back
  exact back.unique denotes

end Calculator.Binary64
