import Mathlib.Algebra.Order.Floor.Semifield
import Mathlib.Data.Int.Log
import Mathlib.Data.Rat.Floor
import Mathlib.Tactic.FieldSimp
import Mathlib.Tactic.Linarith
import Mathlib.Tactic.Positivity

/-! Rounding to doubles, as a function of rational numbers. A number that is not negative goes to the
nearest multiple of its grain, the last place that a double of its size has; of two to the even one.
How far the exponent reaches upwards is left out: what is too large is dealt with where doubles are
packed. -/
namespace Gazetteer.Rounding

/-- The nearest whole number, of two the even one. -/
def whole (x : ℚ) : ℕ :=
  if x - ⌊x⌋₊ < 1 / 2 then ⌊x⌋₊
  else if 1 / 2 < x - ⌊x⌋₊ then ⌊x⌋₊ + 1
  else ⌊x⌋₊ + ⌊x⌋₊ % 2

/-- The exponent of the last place of a double of this size. -/
def grain (x : ℚ) : ℤ := max (Int.log 2 x - 52) (-1074)

def nearest (x : ℚ) : ℚ := whole (x / 2 ^ grain x) * 2 ^ grain x

/-- A number with at most 53 places, none of them behind the last that doubles have. -/
def Fits (x : ℚ) : Prop := ∃ (m : ℕ) (e : ℤ), m ≤ 2 ^ 53 ∧ -1074 ≤ e ∧ x = m * 2 ^ e

variable {x y f : ℚ}

theorem whole_natCast (n : ℕ) : whole n = n := by
  simp [whole]

theorem floor_le_whole (x : ℚ) : ⌊x⌋₊ ≤ whole x := by
  unfold whole
  split
  · exact le_refl _
  · split
    · exact Nat.le_succ _
    · exact Nat.le_add_right _ _

theorem whole_le_floor_succ (x : ℚ) : whole x ≤ ⌊x⌋₊ + 1 := by
  unfold whole
  split
  · exact Nat.le_succ _
  · split
    · exact le_refl _
    · omega

theorem whole_mono (ascending : x ≤ y) : whole x ≤ whole y := by
  rcases Nat.eq_or_lt_of_le (Nat.floor_mono ascending) with same | below
  · -- between the same two whole numbers
    unfold whole
    rw [same]
    split
    · split
      · exact le_refl _
      · split <;> omega
    · next high =>
      have alsoHigh : ¬ y - ⌊y⌋₊ < 1 / 2 := by linarith
      rw [if_neg alsoHigh]
      split
      · have above : 1 / 2 < y - ⌊y⌋₊ := by linarith
        rw [if_pos above]
      · split <;> omega
  · exact (whole_le_floor_succ x).trans (le_trans below (floor_le_whole y))

theorem le_whole {n : ℕ} (below : (n : ℚ) ≤ x) : n ≤ whole x := by
  have ordered := whole_mono below
  rwa [whole_natCast] at ordered

theorem whole_le {n : ℕ} (above : x ≤ n) : whole x ≤ n := by
  have ordered := whole_mono above
  rwa [whole_natCast] at ordered

theorem abs_whole_sub_le (nonneg : 0 ≤ x) : |(whole x : ℚ) - x| ≤ 1 / 2 := by
  have from_floor := Nat.floor_le nonneg
  have to_next := Nat.lt_floor_add_one x
  unfold whole
  split
  · rw [abs_le]
    constructor <;> linarith
  · split
    · rw [abs_le]
      push_cast
      constructor <;> linarith
    · -- in the middle between two whole numbers
      have middle : x - ⌊x⌋₊ = 1 / 2 := by linarith
      rw [abs_le]
      rcases Nat.mod_two_eq_zero_or_one ⌊x⌋₊ with even | odd
      · rw [even]
        push_cast
        constructor <;> linarith
      · rw [odd]
        push_cast
        constructor <;> linarith

theorem two_zpow_pos (e : ℤ) : (0 : ℚ) < 2 ^ e := zpow_pos (by norm_num) e

theorem mul_zpow_add (m k : ℕ) (e : ℤ) : (m : ℚ) * 2 ^ (e + k) = (m * 2 ^ k : ℕ) * 2 ^ e := by
  rw [zpow_add₀ two_ne_zero, zpow_natCast]
  push_cast
  ring

theorem nearest_zero : nearest 0 = 0 := by
  have none : whole 0 = 0 := whole_natCast 0
  rw [nearest, zero_div, none, Nat.cast_zero, zero_mul]

theorem nearest_nonneg (x : ℚ) : 0 ≤ nearest x :=
  mul_nonneg (Nat.cast_nonneg _) (two_zpow_pos _).le

theorem grain_ge (x : ℚ) : -1074 ≤ grain x := le_max_right _ _

theorem Fits.grid_or_le (h : Fits f) (positive : 0 < x) :
    (∃ k : ℕ, f = k * 2 ^ grain x) ∨ f ≤ 2 ^ 52 * 2 ^ grain x ∧ 2 ^ 52 * 2 ^ grain x ≤ x := by
  obtain ⟨m, e, places, low, rfl⟩ := h
  rcases le_or_gt (grain x) e with coarse | fine
  · left
    obtain ⟨more, rfl⟩ := Int.exists_add_of_le coarse
    exact ⟨m * 2 ^ more, mul_zpow_add m more _⟩
  · right
    have scaled : (2 : ℚ) ^ 52 * 2 ^ grain x = 2 ^ (grain x + 52) := by
      rw [zpow_add₀ (by norm_num)]
      norm_num
      ring
    have exponent : grain x = Int.log 2 x - 52 := by
      unfold grain at fine ⊢
      omega
    constructor
    · have few : (m : ℚ) ≤ 2 ^ (53 : ℤ) := by exact_mod_cast places
      calc (m : ℚ) * 2 ^ e ≤ 2 ^ (53 : ℤ) * 2 ^ e := by
            exact mul_le_mul_of_nonneg_right few (two_zpow_pos e).le
        _ = 2 ^ (53 + e) := (zpow_add₀ (by norm_num) _ _).symm
        _ ≤ 2 ^ (grain x + 52) := zpow_le_zpow_right₀ (by norm_num) (by omega)
        _ = 2 ^ 52 * 2 ^ grain x := scaled.symm
    · rw [scaled, exponent, sub_add_cancel]
      exact Int.zpow_log_le_self (by norm_num) positive

theorem nearest_le_of_fits (fits : Fits f) (nonneg : 0 ≤ x) (above : x ≤ f) : nearest x ≤ f := by
  rcases nonneg.eq_or_lt with rfl | positive
  · rw [nearest_zero]
    exact above
  · have unit := two_zpow_pos (grain x)
    have onGrid : ∀ k : ℕ, x ≤ k * 2 ^ grain x → nearest x ≤ k * 2 ^ grain x := by
      intro k within
      have few : whole (x / 2 ^ grain x) ≤ k := whole_le ((div_le_iff₀ unit).mpr within)
      exact mul_le_mul_of_nonneg_right (by exact_mod_cast few) unit.le
    rcases fits.grid_or_le positive with ⟨k, rfl⟩ | ⟨less, least⟩
    · exact onGrid k above
    · -- then the number is the power of two that `f` does not exceed
      have same : f = ((2 ^ 52 : ℕ) : ℚ) * 2 ^ grain x := by
        push_cast
        linarith
      rw [same] at above ⊢
      exact onGrid _ above

theorem le_nearest_of_fits (fits : Fits f) (nonneg : 0 ≤ x) (below : f ≤ x) : f ≤ nearest x := by
  rcases nonneg.eq_or_lt with rfl | positive
  · rw [nearest_zero]
    exact below
  · have unit := two_zpow_pos (grain x)
    have onGrid : ∀ k : ℕ, k * 2 ^ grain x ≤ x → k * 2 ^ grain x ≤ nearest x := by
      intro k within
      have many : k ≤ whole (x / 2 ^ grain x) := le_whole ((le_div_iff₀ unit).mpr within)
      exact mul_le_mul_of_nonneg_right (by exact_mod_cast many) unit.le
    rcases fits.grid_or_le positive with ⟨k, rfl⟩ | ⟨less, least⟩
    · exact onGrid k below
    · have power := onGrid (2 ^ 52) (by push_cast; exact least)
      push_cast at power
      exact less.trans power

theorem Fits.nonneg (h : Fits f) : 0 ≤ f := by
  obtain ⟨m, e, -, -, rfl⟩ := h
  exact mul_nonneg (Nat.cast_nonneg _) (two_zpow_pos e).le

theorem Fits.nearest_eq (h : Fits f) : nearest f = f :=
  le_antisymm (nearest_le_of_fits h h.nonneg (le_refl f)) (le_nearest_of_fits h h.nonneg (le_refl f))

theorem fits_natCast {n : ℕ} (places : n ≤ 2 ^ 53) : Fits n :=
  ⟨n, 0, places, by norm_num, by simp⟩

theorem Fits.sub (first : Fits x) (second : Fits y) (below : y ≤ x) (near : x ≤ 2 * y) :
    Fits (x - y) := by
  obtain ⟨m, d, few, low, rfl⟩ := first
  obtain ⟨n, e, also, least, rfl⟩ := second
  rcases le_total e d with fine | coarse
  · obtain ⟨k, rfl⟩ := Int.exists_add_of_le fine
    have unit := two_zpow_pos e
    rw [mul_zpow_add] at below near ⊢
    have lower : n ≤ m * 2 ^ k := by exact_mod_cast le_of_mul_le_mul_right below unit
    have upper : m * 2 ^ k ≤ 2 * n := by
      rw [← mul_assoc] at near
      exact_mod_cast le_of_mul_le_mul_right near unit
    exact ⟨m * 2 ^ k - n, e, by omega, least, by rw [← sub_mul, Nat.cast_sub lower]⟩
  · obtain ⟨k, rfl⟩ := Int.exists_add_of_le coarse
    rw [mul_zpow_add] at below ⊢
    have lower : n * 2 ^ k ≤ m := by
      exact_mod_cast le_of_mul_le_mul_right below (two_zpow_pos d)
    exact ⟨m - n * 2 ^ k, d, by omega, low, by rw [← sub_mul, Nat.cast_sub lower]⟩

theorem grain_mono (positive : 0 < x) (ascending : x ≤ y) : grain x ≤ grain y := by
  have logs := Int.log_mono_right (b := 2) positive ascending
  unfold grain
  omega

theorem nearest_mono (nonneg : 0 ≤ x) (ascending : x ≤ y) : nearest x ≤ nearest y := by
  rcases nonneg.eq_or_lt with rfl | positive
  · rw [nearest_zero]
    exact nearest_nonneg y
  · rcases (grain_mono positive ascending).eq_or_lt with same | finer
    · have unit := two_zpow_pos (grain y)
      have wholes : whole (x / 2 ^ grain x) ≤ whole (y / 2 ^ grain y) := by
        rw [same]
        exact whole_mono (div_le_div_of_nonneg_right ascending unit.le)
      unfold nearest
      rw [same] at wholes ⊢
      exact mul_le_mul_of_nonneg_right (by exact_mod_cast wholes) unit.le
    · -- a power of two stands between the two
      have between : Fits (2 ^ (grain y + 52)) := by
        refine ⟨2 ^ 52, grain y, by norm_num, grain_ge y, ?_⟩
        rw [zpow_add₀ (by norm_num)]
        norm_num
        ring
      have lower : x ≤ 2 ^ (grain y + 52) := by
        have power : x < 2 ^ (Int.log 2 x + 1) := Int.lt_zpow_succ_log_self (by norm_num) x
        refine power.le.trans ?_
        refine zpow_le_zpow_right₀ (by norm_num) ?_
        unfold grain at finer ⊢
        omega
      have upper : 2 ^ (grain y + 52) ≤ y := by
        have exponent : grain y + 52 = Int.log 2 y := by
          unfold grain at finer ⊢
          omega
        rw [exponent]
        exact Int.zpow_log_le_self (by norm_num) (positive.trans_le ascending)
      exact (nearest_le_of_fits between nonneg lower).trans
        (le_nearest_of_fits between (nonneg.trans ascending) upper)

theorem two_zpow_grain_le (positive : 0 < x) : (2 : ℚ) ^ grain x ≤ x / 2 ^ 52 + 2 ^ (-1074 : ℤ) := by
  have small := two_zpow_pos (-1074)
  have power : (2 : ℚ) ^ Int.log 2 x ≤ x := Int.zpow_log_le_self (by norm_num) positive
  unfold grain
  rcases max_cases (Int.log 2 x - 52) (-1074) with ⟨same, -⟩ | ⟨same, -⟩
  · have scaled : (2 : ℚ) ^ (Int.log 2 x - 52) = 2 ^ Int.log 2 x / 2 ^ 52 := by
      rw [zpow_sub₀ (by norm_num)]
      norm_num
    have shrunk := div_le_div_of_nonneg_right power (by positivity : (0 : ℚ) ≤ 2 ^ 52)
    rw [same, scaled]
    linarith
  · have share : 0 ≤ x / 2 ^ 52 := by positivity
    rw [same]
    linarith

theorem abs_nearest_sub_le (nonneg : 0 ≤ x) :
    |nearest x - x| ≤ x / 2 ^ 53 + 2 ^ (-1075 : ℤ) := by
  rcases nonneg.eq_or_lt with rfl | positive
  · rw [nearest_zero, sub_zero, abs_zero, zero_div, zero_add]
    exact (two_zpow_pos _).le
  · have unit := two_zpow_pos (grain x)
    have off := abs_whole_sub_le (div_nonneg nonneg unit.le)
    have places := two_zpow_grain_le positive
    have least : (2 : ℚ) ^ (-1074 : ℤ) = 2 * 2 ^ (-1075 : ℤ) := by
      rw [← zpow_one_add₀ (by norm_num)]
      norm_num
    have scaled : nearest x - x = (whole (x / 2 ^ grain x) - x / 2 ^ grain x) * 2 ^ grain x := by
      rw [nearest, sub_mul, div_mul_cancel₀ _ unit.ne']
    calc |nearest x - x|
        = |(whole (x / 2 ^ grain x) : ℚ) - x / 2 ^ grain x| * 2 ^ grain x := by
          rw [scaled, abs_mul, abs_of_pos unit]
      _ ≤ 1 / 2 * 2 ^ grain x := mul_le_mul_of_nonneg_right off unit.le
      _ ≤ x / 2 ^ 53 + 2 ^ (-1075 : ℤ) := by
          rw [least] at places
          have twice : x / 2 ^ 52 = 2 * (x / 2 ^ 53) := by ring
          linarith

theorem nearest_bounds (nonneg : 0 ≤ x) :
    x * (1 - 1 / 2 ^ 53) - 1 / 2 ^ 60 ≤ nearest x ∧
      nearest x ≤ x * (1 + 1 / 2 ^ 53) + 1 / 2 ^ 60 := by
  have off := abs_le.mp (abs_nearest_sub_le nonneg)
  have least : (2 : ℚ) ^ (-1075 : ℤ) ≤ 1 / 2 ^ 60 := by
    rw [one_div, ← zpow_natCast, ← zpow_neg]
    exact zpow_le_zpow_right₀ (by norm_num) (by norm_num)
  constructor <;> linarith

end Gazetteer.Rounding
