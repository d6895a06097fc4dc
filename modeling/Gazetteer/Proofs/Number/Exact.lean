import Gazetteer.Proofs.Number.Packing

/-! The exact values of doubles: what comparing them and turning them into whole numbers says about
those values. Infinities and NaN have none, and count as zero where a value is asked for. -/
namespace Gazetteer

open Float.Model (Format UnpackedFloat)
open Float.Model.UnpackedFloat

namespace Binary64

theorem ceilScaled_eq (m : ℕ) (q : ℤ) : ceilScaled m q = ⌈(m : ℚ) * 2 ^ q⌉₊ := by
  cases q with
  | ofNat k =>
    have whole : (m : ℚ) * 2 ^ (Int.ofNat k) = (m * 2 ^ k : ℕ) := by
      rw [Int.ofNat_eq_natCast, zpow_natCast]
      push_cast
      rfl
    rw [whole, Nat.ceil_natCast]
    rfl
  | negSucc k =>
    apply eq_of_forall_ge_iff
    intro bound
    have places : (0 : ℚ) < 2 ^ (k + 1) := by positivity
    rw [ceilScaled_negSucc_le_iff, Nat.ceil_le, zpow_negSucc, mul_inv_le_iff₀ places]
    constructor
    · intro few
      exact_mod_cast few
    · intro few
      exact_mod_cast few

end Binary64

namespace Rounding

variable {s t : Sign} {x y : ℚ} {u v : UnpackedFloat} {f g : Float}

/-- The exact value of a double. -/
def toRat (f : Float) : ℚ :=
  match f.toModel.unpack with
  | .finite s m e _ => signed s (m * 2 ^ e)
  | _ => 0

theorem signed_zero (s : Sign) : signed s 0 = 0 := by
  cases s with
  | negative => exact neg_zero
  | positive => rfl

theorem toRat_eq (h : Stands s x f.toModel.unpack) : toRat f = signed s x := by
  unfold toRat
  generalize f.toModel.unpack = u at h
  cases h with
  | zero => exact (signed_zero s).symm
  | finite positive few low full => rfl

theorem unpack_ofFloat (f : Float) : f.toModel.unpack = (Binary64.ofFloat f).unpacked :=
  (Binary64.ofFloat f).unpack_eq

theorem exists_stands (finite : f.isFinite = true) :
    ∃ s x, Stands s x f.toModel.unpack ∧ x < tooLarge ∧ toRat f = signed s x := by
  have shown : f.toModel.unpack.isFinite = true := finite
  rw [unpack_ofFloat] at shown
  rcases (Binary64.ofFloat f).unpacked_cases with
    ⟨-, none⟩ | ⟨-, none⟩ | ⟨m, e, -, stands, small⟩
  · rw [none] at shown
    cases shown
  · rw [none] at shown
    cases shown
  · rw [← unpack_ofFloat] at stands
    exact ⟨_, _, stands, small, toRat_eq stands⟩

theorem unpack_cases (f : Float) : f.toModel.unpack = .notANumber ∨
    (∃ s, f.toModel.unpack = .infinity s) ∨ ∃ s x, Stands s x f.toModel.unpack := by
  rw [unpack_ofFloat]
  rcases (Binary64.ofFloat f).unpacked_cases with ⟨-, none⟩ | ⟨-, infinite⟩ | ⟨m, e, -, stands, -⟩
  · exact .inl none
  · exact .inr (.inl ⟨_, infinite⟩)
  · exact .inr (.inr ⟨_, _, stands⟩)

theorem Stands.nonneg (h : Stands s x u) : 0 ≤ x := h.fits.nonneg

theorem ceil_signed_negative (nonneg : 0 ≤ x) : ⌈signed .negative x⌉₊ = 0 :=
  Nat.ceil_eq_zero.mpr (neg_nonpos.mpr nonneg)

theorem floor_signed_negative (nonneg : 0 ≤ x) : ⌊signed .negative x⌋₊ = 0 :=
  Nat.floor_of_nonpos (neg_nonpos.mpr nonneg)

theorem ceilWithin_of_stands (h : Stands s x f.toModel.unpack) (limit : ℕ) :
    (Binary64.ofFloat f).ceilWithin limit = min ⌈signed s x⌉₊ limit := by
  have nonneg := h.nonneg
  rw [unpack_ofFloat] at h
  rcases (Binary64.ofFloat f).unpacked_cases with
    ⟨-, none⟩ | ⟨-, none⟩ | ⟨m, e, magnitude, stands, -⟩
  · rw [none] at h
    cases h
  · rw [none] at h
    cases h
  · obtain ⟨rfl, rfl⟩ := h.unique stands
    unfold Binary64.ceilWithin Binary64.sign
    rw [magnitude]
    simp only
    split
    · rw [ceil_signed_negative nonneg, Nat.zero_min]
    · rw [Binary64.ceilScaled_eq]
      rfl

theorem ceilWithin_of_infinity (h : f.toModel.unpack = .infinity .positive) (limit : ℕ) :
    (Binary64.ofFloat f).ceilWithin limit = limit := by
  rw [unpack_ofFloat] at h
  rcases (Binary64.ofFloat f).unpacked_cases with ⟨-, other⟩ | ⟨magnitude, same⟩ | ⟨m, e, -, other, -⟩
  · rw [h] at other
    cases other
  · rw [h] at same
    have clear : ¬ (Binary64.ofFloat f).isNegative = true := by
      intro set
      rw [Binary64.sign, if_pos set] at same
      cases same
    unfold Binary64.ceilWithin
    rw [magnitude]
    simp only
    rw [if_neg clear]
  · rw [h] at other
    generalize (m : ℚ) * 2 ^ e = q at other
    cases other

/-- Of two numbers the one with the smaller exponent is smaller, as the other has all its places. -/
theorem lt_of_exponent_lt {m n : ℕ} {d e : ℤ} (few : m < 2 ^ 53) (low : -1074 ≤ d)
    (full : e = -1074 ∨ 2 ^ 52 ≤ n) (below : d < e) : (m : ℚ) * 2 ^ d < n * 2 ^ e := by
  have most : (m : ℚ) < 2 ^ (53 : ℤ) := by exact_mod_cast few
  have leading : (2 : ℚ) ^ (52 : ℤ) ≤ n := by
    rcases full with rfl | full
    · omega
    · exact_mod_cast full
  calc (m : ℚ) * 2 ^ d < 2 ^ (53 : ℤ) * 2 ^ d := mul_lt_mul_of_pos_right most (two_zpow_pos d)
    _ = 2 ^ (53 + d) := (zpow_add₀ two_ne_zero _ _).symm
    _ ≤ 2 ^ (52 + e) := zpow_le_zpow_right₀ (by norm_num) (by omega)
    _ = 2 ^ (52 : ℤ) * 2 ^ e := zpow_add₀ two_ne_zero _ _
    _ ≤ n * 2 ^ e := mul_le_mul_of_nonneg_right leading (two_zpow_pos e).le

theorem compare_magnitudes {m n : ℕ} {d e : ℤ} (few : m < 2 ^ 53) (also : n < 2 ^ 53)
    (low : -1074 ≤ d) (least : -1074 ≤ e) (full : d = -1074 ∨ 2 ^ 52 ≤ m)
    (filled : e = -1074 ∨ 2 ^ 52 ≤ n) :
    (compare d e).then (compare m n) = compare ((m : ℚ) * 2 ^ d) (n * 2 ^ e) := by
  rcases lt_trichotomy d e with below | rfl | above
  · rw [Int.compare_eq_lt.mpr below,
      compare_lt_iff_lt.mpr (lt_of_exponent_lt few low filled below)]
    rfl
  · have unit := two_zpow_pos d
    rw [Int.compare_eq_eq.mpr rfl, Ordering.eq_then]
    rcases lt_trichotomy m n with less | rfl | greater
    · have smaller : (m : ℚ) * 2 ^ d < n * 2 ^ d :=
        mul_lt_mul_of_pos_right (by exact_mod_cast less) unit
      rw [Nat.compare_eq_lt.mpr less, compare_lt_iff_lt.mpr smaller]
    · rw [Nat.compare_eq_eq.mpr rfl, compare_eq_iff_eq.mpr rfl]
    · have larger : (n : ℚ) * 2 ^ d < m * 2 ^ d :=
        mul_lt_mul_of_pos_right (by exact_mod_cast greater) unit
      rw [Nat.compare_eq_gt.mpr greater, compare_gt_iff_gt.mpr larger]
  · rw [Int.compare_eq_gt.mpr above,
      compare_gt_iff_gt.mpr (lt_of_exponent_lt also least full above)]
    rfl

theorem compare_neg_neg (x y : ℚ) : compare (-x) (-y) = (compare x y).swap := by
  rcases lt_trichotomy x y with less | rfl | greater
  · rw [compare_lt_iff_lt.mpr less, compare_gt_iff_gt.mpr (neg_lt_neg less)]
    rfl
  · rw [compare_eq_iff_eq.mpr rfl, compare_eq_iff_eq.mpr rfl]
    rfl
  · rw [compare_gt_iff_gt.mpr greater, compare_lt_iff_lt.mpr (neg_lt_neg greater)]
    rfl

theorem compare_stands (first : Stands s x u) (second : Stands t y v) :
    u.compare v = some (compare (signed s x) (signed t y)) := by
  have positive : ∀ {m : ℕ}, 0 < m → ∀ e : ℤ, (0 : ℚ) < signed .positive (m * 2 ^ e) :=
    fun some e => mul_pos (by exact_mod_cast some) (two_zpow_pos e)
  have negative : ∀ {m : ℕ}, 0 < m → ∀ e : ℤ, signed .negative (m * 2 ^ e) < 0 :=
    fun some e => neg_lt_zero.mpr (positive some e)
  cases first with
  | zero =>
    rw [signed_zero]
    cases second with
    | zero =>
      rw [signed_zero]
      exact congrArg some (compare_eq_iff_eq.mpr rfl).symm
    | @finite _ e some _ _ _ =>
      cases t with
      | negative => exact congrArg _ (compare_gt_iff_gt.mpr (negative some e)).symm
      | positive => exact congrArg _ (compare_lt_iff_lt.mpr (positive some e)).symm
  | @finite _ d some few low full =>
    cases second with
    | zero =>
      rw [signed_zero]
      cases s with
      | negative => exact congrArg _ (compare_lt_iff_lt.mpr (negative some d)).symm
      | positive => exact congrArg _ (compare_gt_iff_gt.mpr (positive some d)).symm
    | @finite _ e more also least filled =>
      have magnitudes := compare_magnitudes few also low least full filled
      cases s with
      | negative =>
        cases t with
        | negative =>
          have swapped := congrArg Ordering.swap magnitudes
          exact congrArg _ (swapped.trans (compare_neg_neg _ _).symm)
        | positive =>
          exact congrArg _ (compare_lt_iff_lt.mpr ((negative some d).trans (positive more e))).symm
      | positive =>
        cases t with
        | negative =>
          exact congrArg _ (compare_gt_iff_gt.mpr ((negative more e).trans (positive some d))).symm
        | positive => exact congrArg _ magnitudes

theorem Stands.compare_negative_infinity (h : Stands s x u) :
    (UnpackedFloat.infinity .negative).compare u = some .lt := by
  cases h <;> rfl

theorem Stands.compare_positive_infinity (h : Stands s x u) :
    u.compare (.infinity .positive) = some .lt := by
  cases h with
  | zero => rfl
  | finite => cases s <;> rfl

theorem Stands.compare_infinity_negative (h : Stands s x u) :
    u.compare (.infinity .negative) = some .gt := by
  cases h with
  | zero => rfl
  | finite => cases s <;> rfl

theorem Stands.compare_infinity_positive (h : Stands s x u) :
    (UnpackedFloat.infinity .positive).compare u = some .gt := by
  cases h <;> rfl

theorem compare_notANumber (u : UnpackedFloat) : u.compare .notANumber = none := by
  cases u <;> rfl

theorem lt_iff_compare : f < g ↔ f.toModel.unpack.compare g.toModel.unpack = some .lt := by
  refine (decide_eq_true_iff (p := f.toModel < g.toModel)).trans ?_
  change (f.toModel.unpack.compare g.toModel.unpack == some .lt) = true ↔ _
  exact beq_iff_eq

theorem le_iff_compare :
    f ≤ g ↔ (f.toModel.unpack.compare g.toModel.unpack).any (·.isLE) = true :=
  decide_eq_true_iff (p := f.toModel ≤ g.toModel)

theorem lt_iff (first : Stands s x f.toModel.unpack) (second : Stands t y g.toModel.unpack) :
    f < g ↔ signed s x < signed t y := by
  rw [lt_iff_compare, compare_stands first second, ← compare_lt_iff_lt]
  simp

theorem le_iff (first : Stands s x f.toModel.unpack) (second : Stands t y g.toModel.unpack) :
    f ≤ g ↔ signed s x ≤ signed t y := by
  rw [le_iff_compare, compare_stands first second, ← compare_le_iff_le]
  cases compare (signed s x) (signed t y) <;> simp

theorem roundToInt_positive (m : ℕ) (e : ℤ) :
    roundToInt .positive m e = ⌊(m : ℚ) * 2 ^ e⌋₊ := by
  have shown := (Shows.exact (m <<< (e - 0).toNat)).shiftRight (0 - (e - (e - 0).toNat)).toNat
  have floor := shown.floor_eq
  have value : ((m <<< (e - 0).toNat : ℕ) : ℚ) / 2 ^ (0 - (e - (e - 0).toNat)).toNat =
      m * 2 ^ e := by
    rw [Nat.shiftLeft_eq]
    push_cast
    rw [← zpow_natCast, ← zpow_natCast, mul_div_assoc, ← zpow_sub₀ two_ne_zero]
    congr 2
    omega
  rw [value] at floor
  rw [floor]
  rfl

theorem roundToInt_negative (m : ℕ) (e : ℤ) :
    roundToInt .negative m e = -roundToInt .positive m e := rfl

theorem toNat_toInt_of_stands (h : Stands s x u) (least most : ℤ) :
    (u.toInt least most).toNat = ⌊signed s x⌋₊ := by
  cases h with
  | zero =>
    rw [signed_zero, Nat.floor_zero]
    rfl
  | @finite m e some few low full =>
    have nonneg : (0 : ℚ) ≤ m * 2 ^ e := mul_nonneg (Nat.cast_nonneg _) (two_zpow_pos e).le
    cases s with
    | negative =>
      rw [floor_signed_negative nonneg, UnpackedFloat.toInt, roundToInt_negative,
        roundToInt_positive]
      omega
    | positive =>
      rw [UnpackedFloat.toInt, roundToInt_positive]
      rfl

theorem toNat_toUInt64_of_stands (h : Stands s x f.toModel.unpack) :
    f.toUInt64.toNat = min ⌊signed s x⌋₊ (2 ^ 64 - 1) := by
  have whole := toNat_toInt_of_stands h 0 (UInt64.size - 1)
  change (UInt64.ofNatClamp (f.toModel.unpack.toInt 0 (UInt64.size - 1)).toNat).toNat = _
  rw [whole]
  rcases Nat.lt_or_ge ⌊signed s x⌋₊ (2 ^ 64) with small | large
  · rw [UInt64.toNat_ofNatClamp_of_lt small]
    omega
  · rw [UInt64.toNat_ofNatClamp_of_le large]
    change 2 ^ 64 - 1 = _
    omega

theorem toNat_toUInt64_of_notANumber (h : f.toModel.unpack = .notANumber) :
    f.toUInt64.toNat = 0 := by
  change (UInt64.ofNatClamp (f.toModel.unpack.toInt 0 (UInt64.size - 1)).toNat).toNat = _
  rw [h]
  rfl

end Rounding

end Gazetteer
