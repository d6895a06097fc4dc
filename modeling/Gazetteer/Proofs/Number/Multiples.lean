import Gazetteer.Proofs.Number.Arithmetic

/-! Doubles that are multiples of one power of two. As long as these have few places, sums and halves
are exact, of either sign. -/
namespace Gazetteer.Rounding

open Float.Model.UnpackedFloat

variable {x y : ℚ} {n e : ℤ} {f g : Float}

/-- A double with a value, of either sign. -/
def Holds (f : Float) (x : ℚ) : Prop := ∃ s y, Stands s y f.toModel.unpack ∧ signed s y = x

theorem Amounts.holds (h : Amounts f x) : Holds f x := by
  obtain ⟨s, stands, sign⟩ := h
  exact ⟨s, x, stands, sign⟩

namespace Holds

theorem of_negative {m : ℕ} (read : (Binary64.ofFloat f).magnitude = .finite m e)
    (set : (Binary64.ofFloat f).isNegative = true) (value : (m : ℚ) * 2 ^ e = x) :
    Holds f (-x) := by
  have stands := stands_of_magnitude read
  rw [Binary64.sign, if_pos set, value] at stands
  exact ⟨.negative, _, stands, rfl⟩

theorem of_finite (finite : f.isFinite = true) : Holds f (toRat f) := by
  obtain ⟨s, y, stands, -, value⟩ := exists_stands finite
  exact ⟨s, y, stands, value.symm⟩

theorem toRat_eq (h : Holds f x) : toRat f = x := by
  obtain ⟨s, a, stands, rfl⟩ := h
  exact Rounding.toRat_eq stands

theorem amounts (h : Holds f x) (nonneg : 0 ≤ x) : Amounts f x := by
  rw [← h.toRat_eq] at nonneg ⊢
  obtain ⟨s, a, stands, -⟩ := h
  exact .of_finite (isFinite_of_stands stands) nonneg

theorem le_iff (first : Holds f x) (second : Holds g y) : f ≤ g ↔ x ≤ y := by
  obtain ⟨s, a, stands, rfl⟩ := first
  obtain ⟨t, b, also, rfl⟩ := second
  exact Rounding.le_iff stands also

theorem between {h : Float} (low : Holds f x) (high : Holds h y) (above : f ≤ g) (below : g ≤ h) :
    ∃ z, Holds g z ∧ x ≤ z ∧ z ≤ y := by
  have ⟨_, _, least, _⟩ := low
  have ⟨_, _, most, _⟩ := high
  have first := le_iff_compare.mp above
  have second := le_iff_compare.mp below
  rcases unpack_cases g with none | ⟨r, infinite⟩ | ⟨r, z, stands⟩
  · rw [none, compare_notANumber] at first
    cases first
  · cases r with
    | negative =>
      rw [infinite, least.compare_infinity_negative] at first
      cases first
    | positive =>
      rw [infinite, most.compare_infinity_positive] at second
      cases second
  · have held : Holds g (signed r z) := ⟨r, z, stands, rfl⟩
    exact ⟨_, held, (low.le_iff held).mp above, (held.le_iff high).mp below⟩

theorem fits_of_multiple (few : |n| ≤ 2 ^ 53) (low : -1074 ≤ e) : Fits |(n : ℚ) * 2 ^ e| := by
  refine ⟨n.natAbs, e, by rw [Int.abs_eq_natAbs] at few; omega, low, ?_⟩
  rw [abs_mul, abs_of_pos (two_zpow_pos e), Nat.cast_natAbs, Int.cast_abs]

theorem small_of_multiple (few : |n| ≤ 2 ^ 53) (fine : e ≤ 0) :
    |(n : ℚ) * 2 ^ e| < tooLarge := by
  have unit : (2 : ℚ) ^ e ≤ 1 := zpow_le_one_of_nonpos₀ (by norm_num) fine
  have most : |(n : ℚ)| ≤ (2 ^ 53 : ℕ) := by exact_mod_cast few
  calc |(n : ℚ) * 2 ^ e| = |(n : ℚ)| * 2 ^ e := by rw [abs_mul, abs_of_pos (two_zpow_pos e)]
    _ ≤ |(n : ℚ)| := mul_le_of_le_one_right (abs_nonneg _) unit
    _ < tooLarge := most.trans_lt (natCast_lt_tooLarge (le_refl _))

theorem add (first : Holds f x) (second : Holds g y) (sum : x + y = n * 2 ^ e)
    (few : |n| ≤ 2 ^ 53) (low : -1074 ≤ e) (fine : e ≤ 0) : Holds (f + g) (x + y) := by
  obtain ⟨s, a, stands, rfl⟩ := first
  obtain ⟨t, b, also, rfl⟩ := second
  obtain ⟨r, result, signs⟩ := add_stands stands also
  rw [sum] at result signs ⊢
  rw [(fits_of_multiple few low).nearest_eq] at result
  exact ⟨r, _, result.packed (small_of_multiple few fine), signs⟩

theorem signed_half (s : Sign) (a : ℚ) : signed (s / .positive) (a / 2) = signed s a / 2 := by
  cases s with
  | negative => exact (neg_div 2 a).symm
  | positive => rfl

theorem amounts_two : Amounts 2.0 2 :=
  .literal (m := 2 ^ 52) (e := -51) (by decide +kernel) (by decide +kernel) (by norm_num)

theorem half (h : Holds f x) (half : x / 2 = n * 2 ^ e) (few : |n| ≤ 2 ^ 53) (low : -1074 ≤ e)
    (fine : e ≤ 0) : Holds (f / 2.0) (x / 2) := by
  obtain ⟨s, a, stands, rfl⟩ := h
  obtain ⟨t, two, sign⟩ := amounts_two
  have positive : t = .positive := by
    rcases Amounts.sign_cases sign with same | none
    · exact same
    · norm_num at none
  subst positive
  have magnitude : |(n : ℚ) * 2 ^ e| = a / 2 := by
    rw [← half, ← signed_half, abs_signed _ (by linarith [stands.nonneg])]
  have result := div_stands stands two two_ne_zero
  rw [← magnitude, (fits_of_multiple few low).nearest_eq] at result
  refine ⟨_, _, result.packed (small_of_multiple few fine), ?_⟩
  rw [magnitude, signed_half]

end Holds

end Gazetteer.Rounding
