import Gazetteer.Number.Binary64
import Gazetteer.Proofs.Number.Rounding

/-! Doubles as packed bits. Packing loses nothing of a number in its right form, save that what is too
large becomes infinite; so each double has an exact value, and the fields that are read off its bits
say which. -/
namespace Gazetteer

namespace Rounding

open Float.Model (Format UnpackedFloat)
open Float.Model.UnpackedFloat

def tooLarge : ℚ := 2 ^ 1024

theorem tooLarge_pos : 0 < tooLarge := by
  unfold tooLarge
  positivity

theorem natCast_lt_tooLarge {n : ℕ} (places : n ≤ 2 ^ 53) : (n : ℚ) < tooLarge := by
  have few : (n : ℚ) ≤ 2 ^ 53 := by exact_mod_cast places
  exact few.trans_lt (pow_lt_pow_right₀ (by norm_num) (by norm_num))

def signed (s : Sign) (x : ℚ) : ℚ :=
  match s with
  | .negative => -x
  | .positive => x

variable {s t : Sign} {x y : ℚ} {u v : UnpackedFloat}

theorem Stands.fits (h : Stands s x u) : Fits x := by
  cases h with
  | zero => exact ⟨0, 0, by norm_num, by norm_num, by simp⟩
  | finite positive few low full => exact ⟨_, _, few.le, low, rfl⟩

theorem Stands.unique (h : Stands s x u) (other : Stands t y u) : s = t ∧ x = y := by
  cases h with
  | zero =>
    cases other
    exact ⟨rfl, rfl⟩
  | finite positive few low full =>
    cases other
    exact ⟨rfl, rfl⟩

theorem lt_tooLarge_iff {m : ℕ} {e : ℤ} (few : m < 2 ^ 53) (full : e = -1074 ∨ 2 ^ 52 ≤ m) :
    (m : ℚ) * 2 ^ e < tooLarge ↔ e < 972 := by
  have unit := two_zpow_pos e
  have limit : tooLarge = 2 ^ (1024 : ℤ) := by norm_num [tooLarge]
  rw [limit]
  constructor
  · intro small
    by_contra large
    have leading : ((2 : ℚ) ^ (52 : ℤ)) ≤ m := by
      rcases full with rfl | full
      · omega
      · exact_mod_cast full
    have beyond : (2 : ℚ) ^ (1024 : ℤ) ≤ 2 ^ (52 + e) :=
      zpow_le_zpow_right₀ (by norm_num) (by omega)
    rw [zpow_add₀ two_ne_zero] at beyond
    have product := mul_le_mul_of_nonneg_right leading unit.le
    linarith
  · intro low
    have most : (m : ℚ) < 2 ^ (53 : ℤ) := by exact_mod_cast few
    have within : (2 : ℚ) ^ (53 + e) ≤ 2 ^ (1024 : ℤ) :=
      zpow_le_zpow_right₀ (by norm_num) (by omega)
    rw [zpow_add₀ two_ne_zero] at within
    have product := mul_lt_mul_of_pos_right most unit
    linarith

theorem unpack_packedInfinity (s : Sign) :
    unpack Format.binary64 (packedInfinity Format.binary64 s) = .infinity s := by
  unfold unpack packedInfinity
  simp only [unpackExponent_packComponents, unpackMantissa_packComponents,
    unpackSign_packComponents, Sign.ofBitVec_toBitVec]
  rfl

theorem unpack_normal (s : Sign) {biased m : ℕ} (some : 0 < biased) (below : biased < 2047)
    (leading : 2 ^ 52 ≤ m) (few : m < 2 ^ 53) :
    unpack Format.binary64
      (packComponents Format.binary64 s (BitVec.ofNat _ biased) (BitVec.ofNat _ m)) =
        .finite s m (biased - 1075) (Nat.lt_of_lt_of_le (by norm_num) leading) := by
  have field : (BitVec.ofNat 11 biased).toNat = biased := Nat.mod_eq_of_lt (by omega)
  have notTop : BitVec.ofNat 11 biased ≠ -1#11 := by
    intro top
    have same := congrArg BitVec.toNat top
    rw [field] at same
    change biased = 2047 at same
    omega
  have notLeast : BitVec.ofNat 11 biased ≠ 0#11 := by
    intro least
    have same := congrArg BitVec.toNat least
    rw [field] at same
    change biased = 0 at same
    omega
  have mantissa : (1#1 ++ BitVec.ofNat 52 m).toNat = m := by
    rw [BitVec.toNat_append, BitVec.toNat_ofNat]
    change 1 <<< 52 ||| m % 2 ^ 52 = m
    rw [Nat.one_shiftLeft, ← Nat.two_pow_add_eq_or_of_lt (Nat.mod_lt m (Nat.two_pow_pos 52)) 1]
    omega
  unfold unpack
  simp only [unpackExponent_packComponents, unpackMantissa_packComponents,
    unpackSign_packComponents, Sign.ofBitVec_toBitVec]
  rw [if_neg notTop, if_neg notLeast]
  congr 1
  rw [field]
  rfl

theorem unpack_subnormal (s : Sign) {m : ℕ} (some : 0 < m) (few : m < 2 ^ 52) :
    unpack Format.binary64 (packComponents Format.binary64 s 0#_ (BitVec.ofNat _ m)) =
      .finite s m (-1074) some := by
  have mantissa : (BitVec.ofNat 52 m).toNat = m := Nat.mod_eq_of_lt few
  have notZero : BitVec.ofNat 52 m ≠ 0#52 := by
    intro zero
    have same := congrArg BitVec.toNat zero
    rw [mantissa] at same
    change m = 0 at same
    omega
  unfold unpack
  simp only [unpackExponent_packComponents, unpackMantissa_packComponents,
    unpackSign_packComponents, Sign.ofBitVec_toBitVec]
  rw [if_neg (by decide), if_pos trivial, dif_neg notZero]
  congr 1

/-- Packing keeps what is not too large, and of what is keeps the sign. -/
theorem Stands.unpack_pack (h : Stands s x u) :
    unpack Format.binary64 (pack Format.binary64 u) = if x < tooLarge then u else .infinity s := by
  cases h with
  | zero =>
    rw [if_pos tooLarge_pos]
    exact unpack_packedZero
  | @finite m e positive few low full =>
    have bias : Format.binary64.exponentBias = 1023 := rfl
    rw [pack]
    simp only [bias]
    have capacity : 2 ^ Format.binary64.exponentBits = 2048 := rfl
    have places : Format.binary64.mantissaBits = 53 := rfl
    by_cases small : e < 972
    · rw [if_pos ((lt_tooLarge_iff few full).mpr small), capacity, if_neg (by omega), places]
      have bits : m.log2 < 53 := (Nat.log2_lt positive.ne').mpr few
      split
      · next normal =>
        have leading : 2 ^ 52 ≤ m := (Nat.le_log2 positive.ne').mp (by omega)
        rw [unpack_normal s (by omega) (by omega) leading few]
        congr 1
        omega
      · next subnormal =>
        have less : m < 2 ^ 52 := (Nat.log2_lt positive.ne').mp (by omega)
        have least : e = -1074 := by omega
        subst least
        exact unpack_subnormal s positive less
    · rw [if_neg (fun within => small ((lt_tooLarge_iff few full).mp within)), capacity,
        if_pos (by omega)]
      exact unpack_packedInfinity s

end Rounding

open Float.Model (Format UnpackedFloat)
open Float.Model.UnpackedFloat

namespace Binary64

def sign (x : Binary64) : Sign := if x.isNegative then .negative else .positive

/-- The number that is read off the fields. -/
def unpacked (x : Binary64) : UnpackedFloat :=
  if x.exponentField = 2047 then
    if x.fractionField = 0 then .infinity x.sign else .notANumber
  else if x.exponentField = 0 then
    if h : x.fractionField = 0 then .zero x.sign
    else .finite x.sign x.fractionField (-1074) (Nat.pos_of_ne_zero h)
  else .finite x.sign (2 ^ 52 + x.fractionField) (x.exponentField - 1075) (by omega)

theorem toNat_unpackExponent (x : Binary64) :
    (@unpackExponent Format.binary64 x.bits.toBitVec).toNat = x.exponentField := by
  rw [unpackExponent_def, BitVec.extractLsb'_toNat]
  change x.bits.toNat >>> 52 % 2 ^ 11 = _
  rw [Nat.shiftRight_eq_div_pow]
  rfl

theorem toNat_unpackMantissa (x : Binary64) :
    (@unpackMantissa Format.binary64 x.bits.toBitVec).toNat = x.fractionField := by
  rw [unpackMantissa_def, BitVec.extractLsb'_toNat]
  rfl

theorem ofBitVec_unpackSign (x : Binary64) :
    Sign.ofBitVec (@unpackSign Format.binary64 x.bits.toBitVec) = x.sign := by
  have low : x.bits.toNat < 2 ^ 64 := x.bits.toNat_lt
  have bit : (@unpackSign Format.binary64 x.bits.toBitVec).toNat =
      x.bits.toNat / 2 ^ 63 % 2 := by
    rw [unpackSign_def, BitVec.extractLsb'_toNat]
    change x.bits.toNat >>> 63 % 2 ^ 1 = _
    rw [Nat.shiftRight_eq_div_pow]
  unfold Sign.ofBitVec sign isNegative
  by_cases negative : Nat.pow 2 63 ≤ x.bits.toNat
  · have set : @unpackSign Format.binary64 x.bits.toBitVec ≠ 0#1 := by
      intro clear
      rw [clear] at bit
      change 0 = x.bits.toNat / 2 ^ 63 % 2 at bit
      change 2 ^ 63 ≤ x.bits.toNat at negative
      omega
    rw [if_neg set, if_pos (decide_eq_true negative)]
  · have clear : @unpackSign Format.binary64 x.bits.toBitVec = 0#1 := by
      apply BitVec.eq_of_toNat_eq
      rw [bit]
      change ¬ 2 ^ 63 ≤ x.bits.toNat at negative
      change x.bits.toNat / 2 ^ 63 % 2 = 0
      omega
    rw [if_pos clear, if_neg (by simpa using negative)]

theorem unpack_eq (x : Binary64) : unpack Format.binary64 x.bits.toBitVec = x.unpacked := by
  have exponent := x.toNat_unpackExponent
  have fraction := x.toNat_unpackMantissa
  have top : @unpackExponent Format.binary64 x.bits.toBitVec = -1#_ ↔
      x.exponentField = 2047 := by
    rw [← exponent, ← BitVec.toNat_inj]
    rfl
  have least : @unpackExponent Format.binary64 x.bits.toBitVec = 0#_ ↔
      x.exponentField = 0 := by
    rw [← exponent, ← BitVec.toNat_inj]
    rfl
  have none : @unpackMantissa Format.binary64 x.bits.toBitVec = 0#_ ↔
      x.fractionField = 0 := by
    rw [← fraction, ← BitVec.toNat_inj]
    rfl
  have bias : Format.binary64.exponentBias = 1023 := rfl
  unfold unpack unpacked
  simp only [x.ofBitVec_unpackSign, top, least, none]
  split
  · rfl
  · split
    · next subnormal =>
      split
      · rfl
      · congr 1
        rw [exponent, subnormal, bias]
        rfl
    · have places : x.fractionField < 2 ^ 52 := Nat.mod_lt _ (Nat.two_pow_pos 52)
      congr 1
      · rw [BitVec.toNat_append, fraction]
        change 1 <<< 52 ||| x.fractionField = _
        rw [Nat.one_shiftLeft, ← Nat.two_pow_add_eq_or_of_lt places 1, Nat.mul_one]
      · rw [exponent, bias]
        rfl

theorem unpacked_cases (x : Binary64) :
    x.magnitude = .notANumber ∧ x.unpacked = .notANumber ∨
      x.magnitude = .infinite ∧ x.unpacked = .infinity x.sign ∨
        ∃ m e, x.magnitude = .finite m e ∧
          Rounding.Stands x.sign (m * 2 ^ e) x.unpacked ∧ (m : ℚ) * 2 ^ e < Rounding.tooLarge := by
  have places : x.fractionField < 2 ^ 52 := Nat.mod_lt _ (Nat.two_pow_pos 52)
  have field : x.exponentField < 2 ^ 11 := Nat.mod_lt _ (Nat.two_pow_pos 11)
  unfold magnitude unpacked
  split
  · split
    · exact .inr (.inl ⟨rfl, rfl⟩)
    · exact .inl ⟨rfl, rfl⟩
  · refine .inr (.inr ?_)
    split
    · refine ⟨_, _, rfl, ?_, ?_⟩
      · split
        · next none =>
          rw [none, Nat.cast_zero, zero_mul]
          exact .zero
        · next some => exact .finite (Nat.pos_of_ne_zero some) (by omega) (le_refl _) (.inl rfl)
      · exact (Rounding.lt_tooLarge_iff (by omega) (.inl rfl)).mpr (by norm_num)
    · have few : 2 ^ 52 + x.fractionField < 2 ^ 53 := by omega
      have leading : 2 ^ 52 ≤ 2 ^ 52 + x.fractionField := Nat.le_add_right _ _
      exact ⟨_, _, rfl, .finite _ few (by omega) (.inr leading),
        (Rounding.lt_tooLarge_iff few (.inr leading)).mpr (by omega)⟩

end Binary64

end Gazetteer
