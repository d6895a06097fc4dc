import Gazetteer.Grid.Hilbert
import Gazetteer.Placement.Radius
import Gazetteer.Proofs.Number.Arithmetic

/-! The numbers that placement goes by: how many cells a radius reaches over, and which cell a value
of an axis falls in. They are made of doubles, and what holds of them holds for every double. -/
namespace Gazetteer

open Rounding

namespace Radius

variable {x y : ℚ} {r : Float} {c : Binary64}

theorem checked_of_finite (finite : r.isFinite = true) :
    ∃ radius, checked r = .ok radius ∧ Amounts radius (max (toRat r) 0) := by
  obtain ⟨s, x, stands, -, value⟩ := exists_stands finite
  obtain ⟨t, origin, -⟩ := amounts_zero
  have order := Rounding.lt_iff origin stands
  rw [signed_zero, ← value] at order
  unfold checked
  rw [if_pos finite]
  by_cases positive : 0.0 < r
  · have above := order.mp positive
    rw [if_pos positive, max_eq_left above.le]
    exact ⟨r, rfl, .of_finite finite above.le⟩
  · have below := not_lt.mp fun above => positive (order.mpr above)
    rw [if_neg positive, max_eq_right below]
    exact ⟨0.0, rfl, amounts_zero⟩

theorem le_iff_toRat_le {r r' : Float} (finite : r.isFinite = true) (also : r'.isFinite = true) :
    r ≤ r' ↔ toRat r ≤ toRat r' := by
  obtain ⟨s, x, stands, -, value⟩ := exists_stands finite
  obtain ⟨t, y, other, -, same⟩ := exists_stands also
  rw [Rounding.le_iff stands other, value, same]

/-- The cells that a radius reaches over are its length in cells, rounded as a double and then up to
a whole number. -/
theorem cells_eq (reach : Amounts r x) (length : Amounts c.toFloat y) (positive : 0 < y)
    {limit : ℕ} (word : limit ≤ 2 ^ 64) :
    cells r c limit = min ⌈nearest (x / y)⌉₊ limit := by
  unfold cells
  rcases lt_or_ge (nearest (x / y)) tooLarge with small | large
  · exact (reach.div length positive.ne' small).ceilWithin limit
  · -- an infinite quotient reaches as far as any number beyond the limit
    have within : (limit : ℚ) ≤ tooLarge := by
      have few : (limit : ℚ) ≤ 2 ^ 64 := by exact_mod_cast word
      exact few.trans (pow_le_pow_right₀ (by norm_num) (by norm_num))
    have beyond : limit ≤ ⌈nearest (x / y)⌉₊ := by
      exact_mod_cast within.trans (large.trans (Nat.le_ceil _))
    rw [min_eq_right beyond]
    exact ceilWithin_of_infinity (reach.div_overflow length positive.ne' large) limit

theorem cells_of_infinity (reach : Amounts r x)
    (infinite : c.toFloat.toModel.unpack = .infinity .positive) (limit : ℕ) :
    cells r c limit = 0 := by
  unfold cells
  rw [(reach.div_infinity infinite).ceilWithin limit, Nat.ceil_zero, Nat.zero_min]

theorem cells_mono {r' : Float} (reach : Amounts r x) (further : Amounts r' y) (ascending : x ≤ y)
    (positive : c.isPositive = true) {limit : ℕ} (word : limit ≤ 2 ^ 64) :
    cells r c limit ≤ cells r' c limit := by
  rcases cases_of_pos (of_decide_eq_true positive) with ⟨length, above, amounts⟩ | infinite
  · rw [cells_eq reach amounts above word, cells_eq further amounts above word]
    have quotients := nearest_mono (div_nonneg reach.nonneg above.le)
      (div_le_div_of_nonneg_right ascending above.le)
    exact min_le_min_right limit (Nat.ceil_mono quotients)
  · rw [cells_of_infinity reach infinite, cells_of_infinity further infinite]

end Radius

namespace Hilbert

variable {x : ℚ}

theorem clamped_cases (ratio : Float) :
    (if ratio < 0.0 then 0.0 else if 1.0 < ratio then 1.0 else ratio).toModel.unpack = .notANumber ∨
      ∃ x ≤ 1, Amounts (if ratio < 0.0 then 0.0 else if 1.0 < ratio then 1.0 else ratio) x := by
  by_cases below : ratio < 0.0
  · rw [if_pos below]
    exact .inr ⟨0, by norm_num, amounts_zero⟩
  · rw [if_neg below]
    by_cases above : 1.0 < ratio
    · rw [if_pos above]
      exact .inr ⟨1, le_refl _, amounts_one⟩
    · rw [if_neg above]
      obtain ⟨s, least, clear⟩ := amounts_zero
      obtain ⟨t, most, whole⟩ := amounts_one
      rcases unpack_cases ratio with none | ⟨r, infinite⟩ | ⟨r, x, stands⟩
      · exact .inl none
      · -- an infinite ratio lies below zero or above one
        cases r with
        | negative =>
          refine (below (lt_iff_compare.mpr ?_)).elim
          rw [infinite]
          exact least.compare_negative_infinity
        | positive =>
          refine (above (lt_iff_compare.mpr ?_)).elim
          rw [infinite]
          exact most.compare_positive_infinity
      · rw [Rounding.lt_iff stands least, clear, not_lt] at below
        rw [Rounding.lt_iff most stands, whole, not_lt] at above
        have amounts := Amounts.of_finite (isFinite_of_stands stands)
          ((toRat_eq stands).symm ▸ below)
        rw [toRat_eq stands] at amounts
        exact .inr ⟨_, above, amounts⟩

theorem last_places {order : ℕ} (small : order ≤ 53) : 2 ^ order - 1 ≤ 2 ^ 53 :=
  (Nat.sub_le _ _).trans (Nat.pow_le_pow_right two_pos small)

theorem amounts_part {part : Float} {order : ℕ} (small : order ≤ 53) (amounts : Amounts part x)
    (whole : x ≤ 1) :
    Amounts (part * (Nat.pow 2 order - 1).toUInt64.toFloat) (nearest (x * (2 ^ order - 1 : ℕ))) ∧
      nearest (x * (2 ^ order - 1 : ℕ)) ≤ (2 ^ order - 1 : ℕ) := by
  have places := last_places small
  have count : (0 : ℚ) ≤ (2 ^ order - 1 : ℕ) := Nat.cast_nonneg _
  have most : nearest (x * (2 ^ order - 1 : ℕ)) ≤ (2 ^ order - 1 : ℕ) :=
    nearest_le_of_fits (fits_natCast places) (mul_nonneg amounts.nonneg count)
      (mul_le_of_le_one_left count whole)
  exact ⟨amounts.mul (.of_nat places) (most.trans_lt (natCast_lt_tooLarge places)), most⟩

theorem quantize_lt (value low high : Float) {order : ℕ} (small : order ≤ 53) :
    quantize value low high order < 2 ^ order := by
  have width := Nat.two_pow_pos order
  unfold quantize
  simp only
  rcases clamped_cases ((value - low) / (high - low)) with none | ⟨x, whole, amounts⟩
  · rw [toNat_toUInt64_of_notANumber (mul_notANumber none _)]
    exact width
  · obtain ⟨cells, most⟩ := amounts_part small amounts whole
    have last := Nat.floor_le_of_le most
    rw [cells.toNat_toUInt64]
    omega

theorem quantize_eq {value low high : Float} {order : ℕ} {v l w : ℚ} (small : order ≤ 53)
    (at_value : Amounts value v) (at_low : Amounts low l) (span : Amounts (high - low) w)
    (positive : 0 < w) (above : l ≤ v) (within : v - l ≤ w) (exact : Fits (v - l)) :
    quantize value low high order =
      ⌊nearest (nearest ((v - l) / w) * (2 ^ order - 1 : ℕ))⌋₊ := by
  have distance := at_value.sub at_low above
  rw [exact.nearest_eq] at distance
  have one : Fits 1 := amounts_one.fits
  have whole : nearest ((v - l) / w) ≤ 1 :=
    nearest_le_of_fits one (div_nonneg distance.nonneg positive.le) ((div_le_one positive).mpr within)
  have ratio := distance.div span positive.ne'
    (whole.trans_lt amounts_one.lt_tooLarge)
  have notBelow : ¬ (value - low) / (high - low) < 0.0 := by
    rw [ratio.lt_iff amounts_zero]
    exact not_lt.mpr ratio.nonneg
  have notAbove : ¬ 1.0 < (value - low) / (high - low) := by
    rw [amounts_one.lt_iff ratio]
    exact not_lt.mpr whole
  obtain ⟨cells, most⟩ := amounts_part small ratio whole
  have last := Nat.floor_le_of_le most
  have places := last_places small
  unfold quantize
  simp only
  rw [if_neg notBelow, if_neg notAbove, cells.toNat_toUInt64]
  exact min_eq_left (by omega)

end Hilbert

end Gazetteer
