import Gazetteer.Proofs.Number.Nearest
import Mathlib

/-! The rounding of doubles before they are packed. A mantissa is cut off with two bits for what is
lost, one for the place behind the last and one for all places behind that. They say as much of the
number as rounding to the nearest has to know, and each further place that is cut off keeps it so. -/
namespace Gazetteer.Rounding

open Float.Model Float.Model.UnpackedFloat

/-- A mantissa with its two bits, cut off from a number. -/
inductive Shows : ExtendedMantissa → ℚ → Prop where
  | exact (m : ℕ) : Shows ⟨m, false, false⟩ m
  | low {m : ℕ} {y : ℚ} (above : m < y) (below : y < m + 1 / 2) : Shows ⟨m, false, true⟩ y
  | half (m : ℕ) : Shows ⟨m, true, false⟩ (m + 1 / 2)
  | high {m : ℕ} {y : ℚ} (above : m + 1 / 2 < y) (below : y < m + 1) : Shows ⟨m, true, true⟩ y

/-- A number without its sign in the form in which it is packed: with all 53 places, if its exponent
is not the least. -/
inductive Stands (s : Sign) : ℚ → UnpackedFloat → Prop where
  | zero : Stands s 0 (.zero s)
  | finite {m : ℕ} {e : ℤ} (positive : 0 < m) (few : m < 2 ^ 53) (low : -1074 ≤ e)
      (full : e = -1074 ∨ 2 ^ 52 ≤ m) : Stands s (m * 2 ^ e) (.finite s m e positive)

variable {em : ExtendedMantissa} {x y : ℚ}

theorem Shows.bounds (h : Shows em y) : em.mantissa ≤ y ∧ y < em.mantissa + 1 := by
  cases h with
  | exact m => exact ⟨le_refl _, lt_add_one _⟩
  | low above below => exact ⟨above.le, by linarith⟩
  | half m => constructor <;> linarith
  | high above below => exact ⟨by linarith, below⟩

theorem Shows.floor_eq (h : Shows em y) : ⌊y⌋₊ = em.mantissa := by
  obtain ⟨above, below⟩ := h.bounds
  exact (Nat.floor_eq_iff ((Nat.cast_nonneg _).trans above)).mpr ⟨above, below⟩

theorem Shows.shiftRightOne (h : Shows em y) : Shows em.shiftRightOne (y / 2) := by
  have halved : ∀ k : ℕ, 2 * k / 2 = k ∧ (2 * k + 1) / 2 = k := by omega
  have even : ∀ k : ℕ, (2 * k % 2 != 0) = false := by
    intro k
    rw [Nat.mul_mod_right]
    rfl
  have odd : ∀ k : ℕ, ((2 * k + 1) % 2 != 0) = true := by
    intro k
    rw [Nat.mul_add_mod]
    rfl
  cases h with
  | exact m =>
    obtain ⟨k, rfl | rfl⟩ := Nat.even_or_odd' m
    · have value : ((2 * k : ℕ) : ℚ) / 2 = k := by
        push_cast
        linarith
      rw [ExtendedMantissa.shiftRightOne, (halved k).1, even k, value]
      exact .exact k
    · have value : ((2 * k + 1 : ℕ) : ℚ) / 2 = k + 1 / 2 := by
        push_cast
        linarith
      rw [ExtendedMantissa.shiftRightOne, (halved k).2, odd k, value]
      exact .half k
  | @low m y above below =>
    obtain ⟨k, rfl | rfl⟩ := Nat.even_or_odd' m
    · rw [ExtendedMantissa.shiftRightOne, (halved k).1, even k]
      push_cast at above below
      exact .low (by linarith) (by linarith)
    · rw [ExtendedMantissa.shiftRightOne, (halved k).2, odd k]
      push_cast at above below
      exact .high (by linarith) (by linarith)
  | half m =>
    obtain ⟨k, rfl | rfl⟩ := Nat.even_or_odd' m
    · rw [ExtendedMantissa.shiftRightOne, (halved k).1, even k]
      exact .low (by push_cast; linarith) (by push_cast; linarith)
    · rw [ExtendedMantissa.shiftRightOne, (halved k).2, odd k]
      exact .high (by push_cast; linarith) (by push_cast; linarith)
  | @high m y above below =>
    obtain ⟨k, rfl | rfl⟩ := Nat.even_or_odd' m
    · rw [ExtendedMantissa.shiftRightOne, (halved k).1, even k]
      push_cast at above below
      exact .low (by linarith) (by linarith)
    · rw [ExtendedMantissa.shiftRightOne, (halved k).2, odd k]
      push_cast at above below
      exact .high (by linarith) (by linarith)

theorem Shows.shiftRight (h : Shows em y) (n : ℕ) : Shows (em >>> n) (y / 2 ^ n) := by
  induction n with
  | zero =>
    rw [pow_zero, div_one]
    exact h
  | succ n ih =>
    rw [pow_succ, ← div_div]
    exact ih.shiftRightOne

theorem Shows.roundedMantissa_eq (h : Shows em y) : em.roundedMantissa = whole y := by
  have floor := h.floor_eq
  unfold whole
  rw [floor]
  cases h with
  | exact m =>
    rw [if_pos (by norm_num)]
    rfl
  | low above below =>
    rw [if_pos (by simp only; linarith)]
    rfl
  | half m =>
    rw [if_neg (by norm_num), if_neg (by norm_num)]
    rfl
  | high above below =>
    rw [if_neg (by simp only; linarith), if_pos (by simp only; linarith)]
    rfl

theorem shows_fraction {rest width : ℕ} (m : ℕ) (proper : rest < width) :
    Shows (.ofMantissaAndAccuracy m (accuracyOfFraction rest width)) (m + rest / width) := by
  have positive : (0 : ℚ) < width := by exact_mod_cast Nat.zero_lt_of_lt proper
  have below : (rest : ℚ) / width < 1 := by
    rw [div_lt_one positive]
    exact_mod_cast proper
  unfold accuracyOfFraction
  split
  · next none =>
    rw [none, Nat.cast_zero, zero_div, add_zero]
    exact .exact m
  · next some =>
    have above : (0 : ℚ) < rest / width := by
      have more : (0 : ℚ) < rest := by exact_mod_cast Nat.pos_of_ne_zero some
      exact div_pos more positive
    rcases lt_trichotomy (2 * rest) width with less | same | greater
    · have small : (rest : ℚ) / width < 1 / 2 := by
        rw [div_lt_div_iff₀ positive two_pos, one_mul, mul_comm]
        exact_mod_cast less
      rw [Nat.compare_eq_lt.mpr less]
      exact .low (by linarith) (by linarith)
    · have middle : (rest : ℚ) / width = 1 / 2 := by
        rw [div_eq_div_iff positive.ne' two_ne_zero, one_mul, mul_comm]
        exact_mod_cast same
      rw [Nat.compare_eq_eq.mpr same, middle]
      exact .half m
    · have large : (1 : ℚ) / 2 < rest / width := by
        rw [div_lt_div_iff₀ two_pos positive, one_mul, mul_comm]
        exact_mod_cast greater
      rw [Nat.compare_eq_gt.mpr greater]
      exact .high (by linarith) (by linarith)

theorem log_eq_of_between {k : ℤ} (above : (2 : ℚ) ^ k ≤ x) (below : x < 2 ^ (k + 1)) :
    Int.log 2 x = k := by
  have positive : 0 < x := (two_zpow_pos k).trans_le above
  have least := (Int.zpow_le_iff_le_log (b := 2) (by norm_num) positive).mp above
  have most := (Int.lt_zpow_iff_log_lt (b := 2) (by norm_num) positive).mp below
  omega

theorem targetExponent_eq (m : ℕ) (e : ℤ) :
    Format.binary64.targetExponent (totalExponent m e) = max (m.log2 + e - 52) (-1074) := by
  change max ((m.log2 : ℤ) + 1 + e - (1 + 52 : ℕ)) (-1074) = _
  congr 1
  push_cast
  omega

theorem Shows.targetExponent_eq_grain (h : Shows em y) (positive : 0 < y) {e : ℤ}
    (enough : 52 ≤ em.mantissa.log2 ∨ e ≤ -1074) :
    Format.binary64.targetExponent (totalExponent em.mantissa e) = grain (y * 2 ^ e) ∧
      e ≤ grain (y * 2 ^ e) := by
  obtain ⟨above, below⟩ := h.bounds
  have unit := two_zpow_pos e
  rw [targetExponent_eq, grain]
  rcases Nat.eq_zero_or_pos em.mantissa with none | some
  · -- all that is left is behind the last place
    rw [none] at enough below ⊢
    have low : e ≤ -1074 := by simpa using enough
    have small : y * 2 ^ e < 2 ^ e := by
      rw [Nat.cast_zero, zero_add] at below
      calc y * 2 ^ e < 1 * 2 ^ e := mul_lt_mul_of_pos_right below unit
        _ = 2 ^ e := one_mul _
    have log : Int.log 2 (y * 2 ^ e) < e :=
      (Int.lt_zpow_iff_log_lt (b := 2) (by norm_num) (mul_pos positive unit)).mp small
    rw [Nat.log2_zero]
    omega
  · have from_power : (2 : ℚ) ^ em.mantissa.log2 ≤ em.mantissa := by
      exact_mod_cast Nat.log2_self_le some.ne'
    have to_power : (em.mantissa : ℚ) + 1 ≤ 2 ^ (em.mantissa.log2 + 1) := by
      exact_mod_cast Nat.lt_log2_self
    have log : Int.log 2 (y * 2 ^ e) = em.mantissa.log2 + e := by
      apply log_eq_of_between
      · rw [zpow_add₀ two_ne_zero, zpow_natCast]
        exact mul_le_mul_of_nonneg_right (from_power.trans above) unit.le
      · have shifted : (2 : ℚ) ^ ((em.mantissa.log2 : ℤ) + 1) = 2 ^ (em.mantissa.log2 + 1) :=
          zpow_natCast 2 (em.mantissa.log2 + 1)
        rw [add_right_comm, zpow_add₀ two_ne_zero, shifted]
        exact mul_lt_mul_of_pos_right (below.trans_le to_power) unit
    rw [log]
    omega

/-- A mantissa that was rounded has no place too many, or it is the next power of two and is cut off
by one place, which is zero. -/
theorem shiftToTargetExponent_exact {m : ℕ} {e : ℤ} (few : m ≤ 2 ^ 53) (low : -1074 ≤ e) :
    m < 2 ^ 53 ∧ (shiftToTargetExponent Format.binary64 m e .exact).1.mantissa = m ∧
        (shiftToTargetExponent Format.binary64 m e .exact).2 = e ∨
      m = 2 ^ 53 ∧ (shiftToTargetExponent Format.binary64 m e .exact).1.mantissa = 2 ^ 52 ∧
        (shiftToTargetExponent Format.binary64 m e .exact).2 = e + 1 := by
  unfold shiftToTargetExponent shiftToExponent
  simp only [targetExponent_eq]
  rcases few.lt_or_eq with less | rfl
  · have log : m.log2 < 53 := by
      rcases Nat.eq_zero_or_pos m with rfl | some
      · decide
      · exact (Nat.log2_lt some.ne').mpr less
    have none : (max ((m.log2 : ℤ) + e - 52) (-1074) - e).toNat = 0 := by omega
    rw [none]
    exact .inl ⟨less, rfl, by simp⟩
  · have one : (max (((2 ^ 53).log2 : ℤ) + e - 52) (-1074) - e).toNat = 1 := by
      rw [Nat.log2_two_pow]
      omega
    rw [one]
    exact .inr ⟨rfl, rfl, by simp⟩

theorem mantissa_ofMantissaAndAccuracy (m : ℕ) (accuracy : Accuracy) :
    (ExtendedMantissa.ofMantissaAndAccuracy m accuracy).mantissa = m := by
  cases accuracy with
  | exact => rfl
  | inexact order => cases order <;> rfl

theorem whole_le_places (x : ℚ) : whole (x / 2 ^ grain x) ≤ 2 ^ 53 := by
  have unit := two_zpow_pos (grain x)
  apply whole_le
  rw [div_le_iff₀ unit]
  have power : x < 2 ^ (Int.log 2 x + 1) := Int.lt_zpow_succ_log_self (by norm_num) x
  have places : ((2 ^ 53 : ℕ) : ℚ) = 2 ^ (53 : ℤ) := by norm_num
  rw [places, ← zpow_add₀ two_ne_zero]
  refine power.le.trans (zpow_le_zpow_right₀ (by norm_num) ?_)
  unfold grain
  omega

theorem places_le_whole (positive : 0 < x) (normal : grain x ≠ -1074) :
    2 ^ 52 ≤ whole (x / 2 ^ grain x) := by
  have unit := two_zpow_pos (grain x)
  apply le_whole
  rw [le_div_iff₀ unit]
  have power : (2 : ℚ) ^ Int.log 2 x ≤ x := Int.zpow_log_le_self (by norm_num) positive
  have places : ((2 ^ 52 : ℕ) : ℚ) = 2 ^ (52 : ℤ) := by norm_num
  have exponent : 52 + grain x = Int.log 2 x := by
    unfold grain at normal ⊢
    omega
  rw [places, ← zpow_add₀ two_ne_zero, exponent]
  exact power

theorem stands_of_cut (s : Sign) {m : ℕ} {e : ℤ} (few : m < 2 ^ 53) (low : -1074 ≤ e)
    (full : e = -1074 ∨ 2 ^ 52 ≤ m) (value : x = m * 2 ^ e) :
    Stands s x (if h : m = 0 then .zero s else .finite s m e (Nat.pos_of_ne_zero h)) := by
  rw [value]
  split
  · next none =>
    rw [none, Nat.cast_zero, zero_mul]
    exact .zero
  · next some => exact .finite (Nat.pos_of_ne_zero some) few low full

/-- Rounding gives the nearest double, if places are only to be cut off. -/
theorem roundWithAccuracy_stands {m : ℕ} {e : ℤ} {accuracy : Accuracy} (s : Sign)
    (shown : Shows (.ofMantissaAndAccuracy m accuracy) y) (positive : 0 < y)
    (enough : 52 ≤ m.log2 ∨ e ≤ -1074) :
    Stands s (nearest (y * 2 ^ e)) (roundWithAccuracy Format.binary64 s m e accuracy) := by
  have mantissa := mantissa_ofMantissaAndAccuracy m accuracy
  have number : 0 < y * 2 ^ e := mul_pos positive (two_zpow_pos e)
  obtain ⟨target, coarser⟩ := shown.targetExponent_eq_grain positive (e := e) (by rwa [mantissa])
  rw [mantissa] at target
  have grain_low := grain_ge (y * 2 ^ e)
  have places := whole_le_places (y * 2 ^ e)
  have leading := places_le_whole number
  -- the first shift leaves the number in units of its grain
  have cut := (shown.shiftRight (grain (y * 2 ^ e) - e).toNat).roundedMantissa_eq
  have units : y / 2 ^ (grain (y * 2 ^ e) - e).toNat = y * 2 ^ e / 2 ^ grain (y * 2 ^ e) := by
    have shift : ((grain (y * 2 ^ e) - e).toNat : ℤ) = grain (y * 2 ^ e) - e := by omega
    rw [← zpow_natCast, shift, zpow_sub₀ two_ne_zero, div_div_eq_mul_div]
  rw [units] at cut
  have exponent : e + (grain (y * 2 ^ e) - e).toNat = grain (y * 2 ^ e) := by omega
  unfold nearest
  generalize grain (y * 2 ^ e) = g at *
  generalize whole (y * 2 ^ e / 2 ^ g) = n at *
  unfold roundWithAccuracy
  rw [shiftToTargetExponent, target]
  simp only [shiftToExponent, cut, exponent]
  rcases shiftToTargetExponent_exact places grain_low with ⟨few, kept, same⟩ | ⟨rfl, kept, next⟩
  · refine stands_of_cut s ?_ ?_ ?_ ?_
    · rwa [kept]
    · rwa [same]
    · rw [kept, same]
      by_cases least : g = -1074
      · exact .inl least
      · exact .inr (leading least)
    · rw [kept, same]
  · refine stands_of_cut s ?_ ?_ ?_ ?_
    · rw [kept]
      norm_num
    · rw [next]
      omega
    · exact .inr kept.ge
    · rw [kept, next, zpow_add_one₀ two_ne_zero]
      push_cast
      ring

end Gazetteer.Rounding
