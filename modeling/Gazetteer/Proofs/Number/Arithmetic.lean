import Gazetteer.Proofs.Number.Exact

/-! The arithmetic of doubles: each operation gives the double nearest to the exact result. What is
handed to rounding has enough places, or none behind the least, so that rounding only cuts off. -/
namespace Gazetteer.Rounding

open Float.Model (Format UnpackedFloat totalExponent)
open Float.Model.UnpackedFloat

variable {s t : Sign} {x y : ℚ} {u v : UnpackedFloat} {f g : Float}

theorem log2_mul_two_pow {m : ℕ} (some : 0 < m) (k : ℕ) : (m * 2 ^ k).log2 = m.log2 + k := by
  have shifted : 0 < m * 2 ^ k := Nat.mul_pos some (Nat.two_pow_pos k)
  rw [Nat.log2_eq_iff shifted.ne', pow_add, add_right_comm, pow_add]
  exact ⟨Nat.mul_le_mul_right _ (Nat.log2_self_le some.ne'),
    Nat.mul_lt_mul_of_pos_right Nat.lt_log2_self (Nat.two_pow_pos k)⟩

theorem round_stands (s : Sign) {m : ℕ} (some : 0 < m) (e : ℤ) :
    Stands s (nearest (m * 2 ^ e)) (UnpackedFloat.round Format.binary64 s m e) := by
  unfold UnpackedFloat.round decreaseExponent
  simp only [targetExponent_eq, Nat.shiftLeft_eq]
  generalize places : (e - max ((m.log2 : ℤ) + e - 52) (-1074)).toNat = k
  have value : ((m * 2 ^ k : ℕ) : ℚ) * 2 ^ (e - k) = m * 2 ^ e := by
    rw [← mul_zpow_add, sub_add_cancel]
  have shifted : (0 : ℚ) < (m * 2 ^ k : ℕ) := by
    exact_mod_cast Nat.mul_pos some (Nat.two_pow_pos k)
  rw [← value]
  refine roundWithAccuracy_stands s (.exact _) shifted ?_
  rw [log2_mul_two_pow some]
  omega

theorem normalize_stands (n e : ℤ) (zeroSign : Sign) :
    ∃ s, Stands s (nearest |n * 2 ^ e|) (UnpackedFloat.normalize Format.binary64 n e zeroSign) ∧
      signed s |(n : ℚ) * 2 ^ e| = n * 2 ^ e := by
  have unit := two_zpow_pos e
  unfold UnpackedFloat.normalize
  rcases lt_trichotomy n 0 with negative | rfl | positive
  · have some : 0 < (-n).toNat := by omega
    have cast : (((-n).toNat : ℕ) : ℚ) = -n := by
      have whole : (((-n).toNat : ℕ) : ℤ) = -n := by omega
      exact_mod_cast congrArg (Int.cast (R := ℚ)) whole
    have below : (n : ℚ) * 2 ^ e < 0 := mul_neg_of_neg_of_pos (by exact_mod_cast negative) unit
    have stands := round_stands .negative some e
    rw [Int.compare_eq_lt.mpr negative, abs_of_neg below, ← neg_mul, ← cast]
    refine ⟨.negative, stands, ?_⟩
    rw [cast]
    simp [signed]
  · rw [Int.cast_zero, zero_mul, abs_zero, nearest_zero]
    exact ⟨zeroSign, .zero, signed_zero _⟩
  · have some : 0 < n.toNat := by omega
    have cast : ((n.toNat : ℕ) : ℚ) = n := by
      have whole : ((n.toNat : ℕ) : ℤ) = n := by omega
      exact_mod_cast congrArg (Int.cast (R := ℚ)) whole
    have above : 0 < (n : ℚ) * 2 ^ e := mul_pos (by exact_mod_cast positive) unit
    have stands := round_stands .positive some e
    rw [Int.compare_eq_gt.mpr positive, abs_of_pos above, ← cast]
    exact ⟨.positive, stands, rfl⟩

theorem mul_stands (first : Stands s x u) (second : Stands t y v) :
    Stands (s * t) (nearest (x * y)) (mul Format.binary64 u v) := by
  cases first with
  | zero =>
    rw [zero_mul, nearest_zero]
    cases second with
    | zero => exact .zero
    | finite some few low full => exact .zero
  | @finite m d some few low full =>
    cases second with
    | zero =>
      rw [mul_zero, nearest_zero]
      exact .zero
    | @finite n e more also least filled =>
      have value : (m : ℚ) * 2 ^ d * (n * 2 ^ e) = (m * n : ℕ) * 2 ^ (d + e) := by
        rw [zpow_add₀ two_ne_zero]
        push_cast
        ring
      have product : 0 < m * n := Nat.mul_pos some more
      rw [value]
      refine roundWithAccuracy_stands _ (.exact _) (by exact_mod_cast product) ?_
      rw [Nat.le_log2 product.ne']
      rcases full with rfl | full
      · rcases filled with rfl | filled
        · right
          norm_num
        · left
          exact filled.trans (Nat.le_mul_of_pos_left n some)
      · left
        exact full.trans (Nat.le_mul_of_pos_right m more)

theorem div_stands (first : Stands s x u) (second : Stands t y v) (divides : y ≠ 0) :
    Stands (s / t) (nearest (x / y)) (div Format.binary64 u v) := by
  cases second with
  | zero => exact (divides rfl).elim
  | @finite n e more also least filled =>
    cases first with
    | zero =>
      rw [zero_div, nearest_zero]
      exact .zero
    | @finite m d some few low full =>
      unfold div divCore
      simp only [Nat.shiftLeft_eq]
      have target : Format.binary64.targetExponent (totalExponent m d - totalExponent n e) =
          max ((m.log2 : ℤ) - n.log2 + (d - e) - 53) (-1074) := by
        change max ((m.log2 : ℤ) + 1 + d - (n.log2 + 1 + e) - (1 + 52 : ℕ)) (-1074) = _
        congr 1
        push_cast
        ring
      rw [target]
      generalize aim : min (d - e) (max ((m.log2 : ℤ) - n.log2 + (d - e) - 53) (-1074)) = g
      generalize places : (d - e - g).toNat = k
      have shown := shows_fraction (m * 2 ^ k / n) (Nat.mod_lt (m * 2 ^ k) more)
      have divisor : (0 : ℚ) < n := by exact_mod_cast more
      have quotient : ((m * 2 ^ k / n : ℕ) : ℚ) + (m * 2 ^ k % n : ℕ) / n = (m * 2 ^ k : ℕ) / n := by
        rw [eq_div_iff divisor.ne', add_mul, div_mul_cancel₀ _ divisor.ne']
        exact_mod_cast Nat.div_add_mod' (m * 2 ^ k) n
      rw [quotient] at shown
      have value : (m : ℚ) * 2 ^ d / (n * 2 ^ e) = (m * 2 ^ k : ℕ) / n * 2 ^ g := by
        have shift : d - e = k + g := by omega
        have powers : (2 : ℚ) ^ d / 2 ^ e = 2 ^ k * 2 ^ g := by
          rw [← zpow_sub₀ two_ne_zero, shift, zpow_add₀ two_ne_zero, zpow_natCast]
        push_cast
        rw [mul_div_mul_comm, powers]
        ring
      have dividend : (0 : ℚ) < (m * 2 ^ k : ℕ) := by
        exact_mod_cast Nat.mul_pos some (Nat.two_pow_pos k)
      rw [value]
      refine roundWithAccuracy_stands _ shown (div_pos dividend divisor) ?_
      rcases le_or_gt g (-1074) with low | high
      · exact .inr low
      · -- the dividend was shifted so far that the quotient has all places
        left
        have far : n.log2 + 53 ≤ m.log2 + k := by omega
        have enough : 2 ^ 52 * n ≤ m * 2 ^ k := by
          calc 2 ^ 52 * n ≤ 2 ^ 52 * 2 ^ (n.log2 + 1) :=
                Nat.mul_le_mul_left _ Nat.lt_log2_self.le
            _ = 2 ^ (n.log2 + 53) := by rw [← pow_add]; congr 1; omega
            _ ≤ 2 ^ (m.log2 + k) := Nat.pow_le_pow_right two_pos far
            _ = 2 ^ m.log2 * 2 ^ k := pow_add 2 _ _
            _ ≤ m * 2 ^ k := Nat.mul_le_mul_right _ (Nat.log2_self_le some.ne')
        have leading : 2 ^ 52 ≤ m * 2 ^ k / n := (Nat.le_div_iff_mul_le more).mpr enough
        exact (Nat.le_log2 (Nat.lt_of_lt_of_le (by norm_num) leading).ne').mpr leading

theorem abs_signed (s : Sign) (nonneg : 0 ≤ x) : |signed s x| = x := by
  cases s with
  | negative => rw [signed, abs_neg, abs_of_nonneg nonneg]
  | positive => exact abs_of_nonneg nonneg

theorem signed_neg (s : Sign) (x : ℚ) : signed (-s) x = -signed s x := by
  cases s with
  | negative => exact (neg_neg x).symm
  | positive => rfl

theorem Stands.nearest_abs (h : Stands s x u) :
    Stands s (nearest |signed s x|) u ∧ signed s |signed s x| = signed s x := by
  rw [abs_signed s h.nonneg, h.fits.nearest_eq]
  exact ⟨h, rfl⟩

theorem aligned (s : Sign) (m : ℕ) {e g : ℤ} (below : g ≤ e) :
    ((s.apply (m <<< (e - g).toNat : ℕ) : ℤ) : ℚ) * 2 ^ g = signed s (m * 2 ^ e) := by
  have value : ((m <<< (e - g).toNat : ℕ) : ℚ) * 2 ^ g = m * 2 ^ e := by
    have exponent : e = (e - g).toNat + g := by omega
    rw [Nat.shiftLeft_eq]
    push_cast
    rw [mul_assoc, ← zpow_natCast, ← zpow_add₀ two_ne_zero, ← exponent]
  cases s with
  | negative =>
    change ((-((m <<< (e - g).toNat : ℕ) : ℤ) : ℤ) : ℚ) * 2 ^ g = -(m * 2 ^ e)
    rw [Int.cast_neg, neg_mul, Int.cast_natCast, value]
  | positive => exact value

theorem add_stands (first : Stands s x u) (second : Stands t y v) :
    ∃ r, Stands r (nearest |signed s x + signed t y|) (add Format.binary64 u v) ∧
      signed r |signed s x + signed t y| = signed s x + signed t y := by
  cases first with
  | zero =>
    rw [signed_zero, zero_add]
    cases second with
    | zero =>
      rw [signed_zero, abs_zero, nearest_zero]
      change ∃ r, Stands r 0 (if (s == t) = true then .zero s else .zero .positive) ∧ _
      split
      · exact ⟨s, .zero, signed_zero s⟩
      · exact ⟨.positive, .zero, rfl⟩
    | finite some few low full => exact ⟨t, (Stands.finite some few low full).nearest_abs⟩
  | @finite m d some few low full =>
    cases second with
    | zero =>
      rw [signed_zero, add_zero]
      exact ⟨s, (Stands.finite some few low full).nearest_abs⟩
    | @finite n e more also least filled =>
      have sum := normalize_stands (s.apply (m <<< (d - min d e).toNat : ℕ) +
        t.apply (n <<< (e - min d e).toNat : ℕ)) (min d e) .positive
      rw [Int.cast_add, add_mul, aligned s m (min_le_left d e), aligned t n (min_le_right d e)] at sum
      exact sum

theorem sub_stands (first : Stands s x u) (second : Stands t y v) :
    ∃ r, Stands r (nearest |signed s x - signed t y|) (sub Format.binary64 u v) ∧
      signed r |signed s x - signed t y| = signed s x - signed t y := by
  cases first with
  | zero =>
    rw [signed_zero, zero_sub, ← signed_neg]
    cases second with
    | zero =>
      rw [signed_zero, abs_zero, nearest_zero]
      change ∃ r, Stands r 0 (if (s == -t) = true then .zero s else .zero .positive) ∧ _
      split
      · exact ⟨s, .zero, signed_zero s⟩
      · exact ⟨.positive, .zero, rfl⟩
    | finite some few low full => exact ⟨-t, (Stands.finite some few low full).nearest_abs⟩
  | @finite m d some few low full =>
    cases second with
    | zero =>
      rw [signed_zero, sub_zero]
      exact ⟨s, (Stands.finite some few low full).nearest_abs⟩
    | @finite n e more also least filled =>
      have difference := normalize_stands (s.apply (m <<< (d - min d e).toNat : ℕ) -
        t.apply (n <<< (e - min d e).toNat : ℕ)) (min d e) .positive
      rw [Int.cast_sub, sub_mul, aligned s m (min_le_left d e),
        aligned t n (min_le_right d e)] at difference
      exact difference

theorem ofNat_stands {n : ℕ} (places : n ≤ 2 ^ 53) :
    ∃ s, Stands s n (ofNat Format.binary64 n) ∧ signed s n = n := by
  obtain ⟨s, stands, sign⟩ := normalize_stands n 0 .positive
  rw [zpow_zero, mul_one, Int.cast_natCast, abs_of_nonneg (Nat.cast_nonneg n)] at stands sign
  rw [(fits_natCast places).nearest_eq] at stands
  exact ⟨s, stands, sign⟩

theorem Stands.packed (h : Stands s x u) (small : x < tooLarge) :
    Stands s x (Float.Model.pack u).unpack := by
  have kept := h.unpack_pack
  rw [if_pos small] at kept
  change Stands s x (unpack Format.binary64 (pack Format.binary64 u))
  rwa [kept]

theorem Stands.packed_infinity (h : Stands s x u) (large : tooLarge ≤ x) :
    (Float.Model.pack u).unpack = .infinity s := by
  have lost := h.unpack_pack
  rw [if_neg (not_lt.mpr large)] at lost
  exact lost

theorem mul_notANumber (h : f.toModel.unpack = .notANumber) (g : Float) :
    (f * g).toModel.unpack = .notANumber := by
  have product : UnpackedFloat.mul Format.binary64 f.toModel.unpack g.toModel.unpack =
      .notANumber := by
    rw [h]
    rfl
  change (Float.Model.pack
    (UnpackedFloat.mul Format.binary64 f.toModel.unpack g.toModel.unpack)).unpack = _
  rw [product]
  exact unpack_packedNaN

theorem isFinite_of_stands (h : Stands s x f.toModel.unpack) : f.isFinite = true := by
  change f.toModel.unpack.isFinite = true
  generalize f.toModel.unpack = u at h
  cases h <;> rfl

theorem stands_of_magnitude {m : ℕ} {e : ℤ}
    (read : (Binary64.ofFloat f).magnitude = .finite m e) :
    Stands (Binary64.ofFloat f).sign (m * 2 ^ e) f.toModel.unpack := by
  rw [unpack_ofFloat]
  rcases (Binary64.ofFloat f).unpacked_cases with ⟨other, -⟩ | ⟨other, -⟩ | ⟨n, d, same, stands, -⟩
  · rw [read] at other
    cases other
  · rw [read] at other
    cases other
  · rw [read] at same
    cases same
    exact stands

/-- A double with a value that is not negative. Its sign may be set if it is zero. -/
def Amounts (f : Float) (x : ℚ) : Prop := ∃ s, Stands s x f.toModel.unpack ∧ signed s x = x

namespace Amounts

theorem nonneg (h : Amounts f x) : 0 ≤ x := by
  obtain ⟨s, stands, -⟩ := h
  exact stands.nonneg

theorem fits (h : Amounts f x) : Fits x := by
  obtain ⟨s, stands, -⟩ := h
  exact stands.fits

theorem toRat_eq (h : Amounts f x) : toRat f = x := by
  obtain ⟨s, stands, sign⟩ := h
  rw [Rounding.toRat_eq stands, sign]

theorem lt_tooLarge (h : Amounts f x) : x < tooLarge := by
  obtain ⟨s, stands, -⟩ := h
  obtain ⟨t, y, also, small, -⟩ := exists_stands (isFinite_of_stands stands)
  rwa [(stands.unique also).2]

theorem of_finite (finite : f.isFinite = true) (nonneg : 0 ≤ toRat f) : Amounts f (toRat f) := by
  obtain ⟨s, x, stands, -, value⟩ := exists_stands finite
  rw [value] at nonneg ⊢
  cases s with
  | negative =>
    have none : x = 0 := le_antisymm (neg_nonneg.mp nonneg) stands.nonneg
    subst none
    rw [signed_zero]
    exact ⟨.negative, stands, signed_zero _⟩
  | positive => exact ⟨.positive, stands, rfl⟩

theorem of_magnitude {m : ℕ} {e : ℤ} (read : (Binary64.ofFloat f).magnitude = .finite m e)
    (clear : (Binary64.ofFloat f).isNegative = false) : Amounts f (m * 2 ^ e) := by
  have stands := stands_of_magnitude read
  rw [Binary64.sign, clear, if_neg (by decide)] at stands
  exact ⟨.positive, stands, rfl⟩

theorem literal {m : ℕ} {e : ℤ} (read : (Binary64.ofFloat f).magnitude = .finite m e)
    (clear : (Binary64.ofFloat f).isNegative = false) (value : (m : ℚ) * 2 ^ e = x) :
    Amounts f x :=
  value ▸ of_magnitude read clear

theorem stored (h : Amounts f x) : Amounts (Binary64.ofFloat f).toFloat x := by
  rwa [Binary64.ofFloat, Binary64.toFloat, Float.ofBits_toBits]

theorem of_nat {n : ℕ} (places : n ≤ 2 ^ 53) : Amounts n.toUInt64.toFloat n := by
  obtain ⟨s, stands, sign⟩ := ofNat_stands places
  have word : n.toUInt64.toNat = n := Nat.mod_eq_of_lt (by omega)
  refine ⟨s, ?_, sign⟩
  change Stands s n (Float.Model.pack (ofNat Format.binary64 n.toUInt64.toNat)).unpack
  rw [word]
  exact stands.packed (natCast_lt_tooLarge places)

theorem sign_cases {s : Sign} (sign : signed s x = x) : s = .positive ∨ x = 0 := by
  cases s with
  | negative => exact .inr (by unfold signed at sign; linarith)
  | positive => exact .inl rfl

theorem signed_mul_nearest {s t : Sign} {z : ℚ} (first : signed s x = x) (second : signed t y = y)
    (zero : x = 0 ∨ y = 0 → z = 0) : signed (s * t) (nearest z) = nearest z := by
  rcases sign_cases first with rfl | none
  · rcases sign_cases second with rfl | none
    · rfl
    · rw [zero (.inr none), nearest_zero, signed_zero]
  · rw [zero (.inl none), nearest_zero, signed_zero]

theorem mul (first : Amounts f x) (second : Amounts g y) (small : nearest (x * y) < tooLarge) :
    Amounts (f * g) (nearest (x * y)) := by
  obtain ⟨s, stands, sign⟩ := first
  obtain ⟨t, also, clear⟩ := second
  refine ⟨s * t, (mul_stands stands also).packed small, signed_mul_nearest sign clear ?_⟩
  rintro (rfl | rfl)
  · exact zero_mul y
  · exact mul_zero x

theorem sign_div {s t : Sign} (first : signed s x = x) (second : signed t y = y) (divides : y ≠ 0) :
    signed (s / t) (nearest (x / y)) = nearest (x / y) := by
  rcases sign_cases second with rfl | none
  · rcases sign_cases first with rfl | none
    · rfl
    · rw [none, zero_div, nearest_zero, signed_zero]
  · exact (divides none).elim

theorem div (first : Amounts f x) (second : Amounts g y) (divides : y ≠ 0)
    (small : nearest (x / y) < tooLarge) : Amounts (f / g) (nearest (x / y)) := by
  obtain ⟨s, stands, sign⟩ := first
  obtain ⟨t, also, clear⟩ := second
  exact ⟨s / t, (div_stands stands also divides).packed small, sign_div sign clear divides⟩

theorem div_overflow (first : Amounts f x) (second : Amounts g y) (divides : y ≠ 0)
    (large : tooLarge ≤ nearest (x / y)) : (f / g).toModel.unpack = .infinity .positive := by
  obtain ⟨s, stands, sign⟩ := first
  obtain ⟨t, also, clear⟩ := second
  have infinite := (div_stands stands also divides).packed_infinity large
  rcases sign_cases clear with rfl | none
  · rcases sign_cases sign with rfl | none
    · exact infinite
    · rw [none, zero_div, nearest_zero] at large
      exact (tooLarge_pos.not_ge large).elim
  · exact (divides none).elim

theorem div_infinity (first : Amounts f x) (second : g.toModel.unpack = .infinity .positive) :
    Amounts (f / g) 0 := by
  obtain ⟨s, stands, -⟩ := first
  refine ⟨s / .positive, ?_, signed_zero _⟩
  have none : UnpackedFloat.div Format.binary64 f.toModel.unpack g.toModel.unpack =
      .zero (s / .positive) := by
    rw [second]
    generalize f.toModel.unpack = u at stands
    cases stands <;> rfl
  change Stands _ 0 (Float.Model.pack
    (UnpackedFloat.div Format.binary64 f.toModel.unpack g.toModel.unpack)).unpack
  rw [none]
  exact Stands.zero.packed tooLarge_pos

/-- A difference is not larger than what is taken away from, so it is never too large. -/
theorem sub (first : Amounts f x) (second : Amounts g y) (below : y ≤ x) :
    Amounts (f - g) (nearest (x - y)) := by
  have most := nearest_le_of_fits first.fits (sub_nonneg.mpr below)
    (sub_le_self x second.nonneg)
  have small := most.trans_lt first.lt_tooLarge
  obtain ⟨s, stands, sign⟩ := first
  obtain ⟨t, also, clear⟩ := second
  obtain ⟨r, result, signs⟩ := sub_stands stands also
  rw [sign, clear, abs_of_nonneg (sub_nonneg.mpr below)] at result signs
  refine ⟨r, result.packed small, ?_⟩
  rcases sign_cases signs with rfl | none
  · rfl
  · rw [none, nearest_zero, signed_zero]

theorem lt_iff (first : Amounts f x) (second : Amounts g y) : f < g ↔ x < y := by
  obtain ⟨s, stands, sign⟩ := first
  obtain ⟨t, also, clear⟩ := second
  rw [Rounding.lt_iff stands also, sign, clear]

theorem toNat_toUInt64 (h : Amounts f x) : f.toUInt64.toNat = min ⌊x⌋₊ (2 ^ 64 - 1) := by
  obtain ⟨s, stands, sign⟩ := h
  rw [toNat_toUInt64_of_stands stands, sign]

theorem ceilWithin (h : Amounts f x) (limit : ℕ) :
    (Binary64.ofFloat f).ceilWithin limit = min ⌈x⌉₊ limit := by
  obtain ⟨s, stands, sign⟩ := h
  rw [ceilWithin_of_stands stands, sign]

end Amounts

theorem amounts_zero : Amounts 0.0 0 :=
  .literal (m := 0) (e := -1074) (by decide +kernel) (by decide +kernel) (by norm_num)

theorem amounts_one : Amounts 1.0 1 :=
  .literal (m := 2 ^ 52) (e := -52) (by decide +kernel) (by decide +kernel) (by norm_num)

theorem cases_of_pos (positive : 0.0 < f) :
    (∃ x, 0 < x ∧ Amounts f x) ∨ f.toModel.unpack = .infinity .positive := by
  obtain ⟨s, origin, -⟩ := amounts_zero
  rw [lt_iff_compare] at positive
  rcases unpack_cases f with none | ⟨t, infinite⟩ | ⟨t, x, stands⟩
  · rw [none, compare_notANumber] at positive
    cases positive
  · rw [infinite] at positive ⊢
    cases t with
    | negative =>
      rw [origin.compare_infinity_negative] at positive
      cases positive
    | positive => exact .inr rfl
  · rw [← lt_iff_compare, Rounding.lt_iff origin stands, signed_zero, ← toRat_eq stands] at positive
    exact .inl ⟨_, positive, .of_finite (isFinite_of_stands stands) positive.le⟩

end Gazetteer.Rounding
