import Gazetteer.Grid.Geohash
import Gazetteer.Proofs.Grid.Weave
import Gazetteer.Proofs.Number.Multiples

/-! The cell that halving leads to. The halvings of one axis count its equal parts, and with ends
that have few places every middle is exact; so the column and the row of a code are whole parts of
exact quotients, held within the grid. -/
namespace Gazetteer

namespace Geohash

open Rounding

variable {value : Float} {span : Span} {v : ℚ}

theorem foldl_bits_lt (bits : List Bool) (acc k : Nat) (small : acc < 2 ^ k) :
    bits.foldl (fun acc bit => (2 * acc + bit.toNat) % wordSize) acc < 2 ^ (k + bits.length) := by
  induction bits generalizing acc k with
  | nil => exact small
  | cons bit bits ih =>
    have digit := bit.toNat_le
    have next : (2 * acc + bit.toNat) % wordSize < 2 ^ (k + 1) := by
      refine Nat.lt_of_le_of_lt (Nat.mod_le _ _) ?_
      rw [pow_succ]
      omega
    have rest := ih _ (k + 1) next
    rwa [add_assoc, add_comm 1] at rest

theorem mortonCode_lt (place : Coordinate) (precision : Nat) :
    mortonCode place precision < 2 ^ (Morton.bitsPerUnit * precision) := by
  have below := foldl_bits_lt (cellBits place precision) 0 0 Nat.one_pos
  rw [Nat.zero_add, cellBits_length] at below
  rw [mortonCode_eq]
  exact below

/-- The part of an interval that halving it so many times leads to, counted from its lower end. -/
def part (value : Float) (span : Span) : ℕ → ℕ
  | 0 => 0
  | k + 1 => (span.isUpper value).toNat * 2 ^ k + part value (span.half (span.isUpper value)) k

theorem part_lt (value : Float) (span : Span) (k : ℕ) : part value span k < 2 ^ k := by
  induction k generalizing span with
  | zero => exact Nat.one_pos
  | succ k ih =>
    have rest := ih (span.half (span.isUpper value))
    have digit := Nat.mul_le_mul_right (2 ^ k) (span.isUpper value).toNat_le
    rw [part, pow_succ]
    omega

/-- The bits of halvings in turns weave the parts of both intervals. -/
theorem foldl_halvings (value : Float) (span : Span) (otherValue : Float) (other : Span)
    {n acc k : ℕ} (small : acc < 2 ^ k) (fits : k + n ≤ 64) :
    (halvings value span otherValue other n).foldl
        (fun acc bit => (2 * acc + bit.toNat) % wordSize) acc =
      acc * 2 ^ n +
        Morton.woven n (part value span ((n + 1) / 2)) (part otherValue other (n / 2)) := by
  induction n generalizing value span otherValue other acc k with
  | zero => exact (Nat.mul_one acc).symm
  | succ n ih =>
    have digit := (span.isUpper value).toNat_le
    have next : 2 * acc + (span.isUpper value).toNat < 2 ^ (k + 1) := by
      rw [pow_succ]
      omega
    have word : 2 * acc + (span.isUpper value).toNat < wordSize :=
      Nat.lt_of_lt_of_le next (Nat.pow_le_pow_right two_pos (by omega : k + 1 ≤ 64))
    have turns : (n + 1 + 1) / 2 = n / 2 + 1 := by omega
    have below := part_lt value (span.half (span.isUpper value)) (n / 2)
    rw [halvings, List.foldl_cons, Nat.mod_eq_of_lt word, ih _ _ _ _ next (by omega), turns, part,
      Morton.woven_succ digit below (part_lt _ _ _)]
    ring

theorem mortonCode_eq_code (place : Coordinate) {precision : ℕ} (most : precision ≤ 12) :
    mortonCode place precision = Morton.code precision
      ⟨part place.lng ⟨-180.0, 180.0⟩ (Morton.columnBits precision),
        part place.lat ⟨-90.0, 90.0⟩ (Morton.rowBits precision)⟩ := by
  have bits : 0 + Morton.bitsPerUnit * precision ≤ 64 := by
    unfold Morton.bitsPerUnit
    omega
  have woven := foldl_halvings place.lng ⟨-180.0, 180.0⟩ place.lat ⟨-90.0, 90.0⟩ Nat.one_pos bits
  rw [mortonCode_eq, ofBits, cellBits, woven, Nat.zero_mul, Nat.zero_add]
  rfl

theorem cell_mortonCode (place : Coordinate) {precision : ℕ} (most : precision ≤ 12) :
    Morton.cell precision (mortonCode place precision) =
      ⟨part place.lng ⟨-180.0, 180.0⟩ (Morton.columnBits precision),
        part place.lat ⟨-90.0, 90.0⟩ (Morton.rowBits precision)⟩ := by
  rw [mortonCode_eq_code place most, Morton.cell_code (part_lt _ _ _) (part_lt _ _ _)]

/-- The ends of an interval are multiples of one power of two with few places, and it has `2 ^ k`
parts of length `w * 2 ^ e`. -/
structure Spaced (span : Span) (low w e : ℤ) (k : ℕ) : Prop where
  lower : Holds span.low (low * 2 ^ e)
  upper : Holds span.high ((low + w * 2 ^ k : ℤ) * 2 ^ e)
  fewLower : |low| ≤ 2 ^ 52
  fewUpper : |low + w * 2 ^ k| ≤ 2 ^ 52
  places : -1074 ≤ e
  fine : e ≤ 0

variable {low w e : ℤ} {k : ℕ}

theorem Spaced.few_middle (h : Spaced span low w e (k + 1)) : |low + w * 2 ^ k| ≤ 2 ^ 52 := by
  have lower := abs_le.mp h.fewLower
  have upper := abs_le.mp h.fewUpper
  have double : w * 2 ^ (k + 1) = 2 * (w * 2 ^ k) := by ring
  rw [double] at upper
  exact abs_le.mpr ⟨by linarith, by linarith⟩

theorem Spaced.middle (h : Spaced span low w e (k + 1)) :
    Holds span.middle ((low + w * 2 ^ k : ℤ) * 2 ^ e) := by
  have few := h.few_middle
  have twice : |2 * (low + w * 2 ^ k)| ≤ 2 ^ 53 := by
    rw [abs_mul, abs_two]
    linarith
  have sum : (low : ℚ) * 2 ^ e + (low + w * 2 ^ (k + 1) : ℤ) * 2 ^ e =
      (2 * (low + w * 2 ^ k) : ℤ) * 2 ^ e := by
    push_cast
    ring
  have half : ((low : ℚ) * 2 ^ e + (low + w * 2 ^ (k + 1) : ℤ) * 2 ^ e) / 2 =
      (low + w * 2 ^ k : ℤ) * 2 ^ e := by
    push_cast
    ring
  rw [← half]
  exact (h.lower.add h.upper sum twice h.places h.fine).half half (by linarith) h.places h.fine

theorem Spaced.upperHalf (h : Spaced span low w e (k + 1)) :
    Spaced (span.half true) (low + w * 2 ^ k) w e k := by
  have ends : low + w * 2 ^ k + w * 2 ^ k = low + w * 2 ^ (k + 1) := by ring
  exact ⟨h.middle, ends ▸ h.upper, h.few_middle, ends ▸ h.fewUpper, h.places, h.fine⟩

theorem Spaced.lowerHalf (h : Spaced span low w e (k + 1)) :
    Spaced (span.half false) low w e k :=
  ⟨h.lower, h.middle, h.fewLower, h.few_middle, h.places, h.fine⟩

theorem Spaced.part_eq (h : Spaced span low w e k) (long : 0 < w) (at_value : Holds value v) :
    (part value span k : ℤ) = max 0 (min ⌊(v - low * 2 ^ e) / (w * 2 ^ e)⌋ (2 ^ k - 1)) := by
  induction k generalizing span low with
  | zero =>
    simp only [part]
    omega
  | succ k ih =>
    have length : (0 : ℚ) < w * 2 ^ e := mul_pos (by exact_mod_cast long) (two_zpow_pos e)
    have parts : (0 : ℤ) < 2 ^ k := by positivity
    have decided : span.isUpper value = true ↔ 2 ^ k ≤ ⌊(v - low * 2 ^ e) / (w * 2 ^ e)⌋ := by
      have order : span.isUpper value = true ↔ (low + w * 2 ^ k : ℤ) * 2 ^ e ≤ v :=
        decide_eq_true_iff.trans (h.middle.le_iff at_value)
      rw [order, Int.le_floor, le_div_iff₀ length]
      push_cast
      constructor <;> intro <;> linarith
    rw [part, pow_succ]
    cases upper : span.isUpper value with
    | true =>
      have far := decided.mp upper
      have less : (v - (low + w * 2 ^ k : ℤ) * 2 ^ e) / (w * 2 ^ e) =
          (v - low * 2 ^ e) / (w * 2 ^ e) - (2 ^ k : ℤ) := by
        rw [eq_sub_iff_add_eq, div_add' _ _ _ length.ne']
        push_cast
        ring
      have rest := ih h.upperHalf
      rw [less, Int.floor_sub_intCast] at rest
      push_cast
      rw [rest]
      simp only [Bool.toNat_true, Nat.cast_one]
      omega
    | false =>
      have near : ¬ 2 ^ k ≤ ⌊(v - low * 2 ^ e) / (w * 2 ^ e)⌋ := by
        rw [← decided, upper]
        decide
      have rest := ih h.lowerHalf
      push_cast
      rw [rest]
      simp only [Bool.toNat_false, Nat.cast_zero]
      omega

structure Interval where
  low : ℚ
  high : ℚ

/-- The part of a degree that all halvings of the coordinates lead to multiples of. -/
def unit : ℚ := 45 * 2 ^ (-28 : ℤ)

/-- An interval of degrees that has `2 ^ k` parts of whole units. -/
structure Degrees (span : Span) (i : Interval) (k : ℕ) : Prop where
  lower : Holds span.low i.low
  upper : Holds span.high i.high
  parts : ∃ a b : ℤ, i.low = a * unit ∧ i.high = (a + b * 2 ^ k : ℤ) * unit
  ordered : i.low < i.high
  west : -180 ≤ i.low
  east : i.high ≤ 180

variable {i : Interval}

theorem few_of_degrees {n : ℤ} {x : ℚ} (value : x = n * 2 ^ (-28 : ℤ)) (west : -180 ≤ x)
    (east : x ≤ 180) : |n| ≤ 2 ^ 52 := by
  have whole : (n : ℚ) = x * 2 ^ 28 := by
    rw [value, mul_assoc, ← zpow_natCast, ← zpow_add₀ two_ne_zero]
    exact (mul_one _).symm
  have least : -(2 ^ 52 : ℤ) ≤ n := by
    have : (-(2 ^ 52 : ℤ) : ℚ) ≤ n := by rw [whole]; push_cast; linarith
    exact_mod_cast this
  have most : n ≤ 2 ^ 52 := by
    have : (n : ℚ) ≤ (2 ^ 52 : ℤ) := by rw [whole]; push_cast; linarith
    exact_mod_cast this
  exact abs_le.mpr ⟨least, most⟩

theorem Degrees.spaced (h : Degrees span i k) : ∃ low w : ℤ, Spaced span low w (-28) k ∧ 0 < w ∧
    (low : ℚ) * 2 ^ (-28 : ℤ) = i.low ∧ (w : ℚ) * 2 ^ (-28 : ℤ) = (i.high - i.low) / 2 ^ k := by
  obtain ⟨a, b, low, high⟩ := h.parts
  have places : (0 : ℚ) < 2 ^ k := by positivity
  have lower : i.low = (45 * a : ℤ) * 2 ^ (-28 : ℤ) := by
    rw [low, unit]
    push_cast
    ring
  have upper : i.high = (45 * a + 45 * b * 2 ^ k : ℤ) * 2 ^ (-28 : ℤ) := by
    rw [high, unit]
    push_cast
    ring
  have length : ((45 * b : ℤ) : ℚ) * 2 ^ (-28 : ℤ) = (i.high - i.low) / 2 ^ k := by
    rw [eq_div_iff places.ne', upper, lower]
    push_cast
    ring
  have long : (0 : ℚ) < ((45 * b : ℤ) : ℚ) * 2 ^ (-28 : ℤ) := by
    rw [length]
    exact div_pos (sub_pos.mpr h.ordered) places
  have positive : 0 < 45 * b := by
    exact_mod_cast pos_of_mul_pos_left long (two_zpow_pos (-28)).le
  refine ⟨45 * a, 45 * b, ⟨lower ▸ h.lower, upper ▸ h.upper, ?_, ?_, by norm_num, by norm_num⟩,
    positive, lower.symm, length⟩
  · exact few_of_degrees lower h.west (h.ordered.le.trans h.east)
  · exact few_of_degrees upper (h.west.trans h.ordered.le) h.east

theorem Degrees.part_eq (h : Degrees span i k) (at_value : Holds value v) :
    (part value span k : ℤ) =
      max 0 (min ⌊(v - i.low) * 2 ^ k / (i.high - i.low)⌋ (2 ^ k - 1)) := by
  obtain ⟨low, w, spaced, long, lower, length⟩ := h.spaced
  rw [spaced.part_eq long at_value, lower, length, div_div_eq_mul_div]

theorem amounts_ninety : Amounts 90.0 90 :=
  .literal (m := 90 * 2 ^ 46) (e := -46) (by decide +kernel) (by decide +kernel) (by norm_num)

theorem amounts_half_turn : Amounts 180.0 180 :=
  .literal (m := 180 * 2 ^ 45) (e := -45) (by decide +kernel) (by decide +kernel) (by norm_num)

theorem holds_minus_ninety : Holds (-90.0) (-90) :=
  .of_negative (m := 90 * 2 ^ 46) (e := -46) (by decide +kernel) (by decide +kernel) (by norm_num)

theorem holds_minus_half_turn : Holds (-180.0) (-180) :=
  .of_negative (m := 180 * 2 ^ 45) (e := -45) (by decide +kernel) (by decide +kernel)
    (by norm_num)

theorem degrees_latitudes (few : k ≤ 30) : Degrees ⟨-90.0, 90.0⟩ ⟨-90, 90⟩ k := by
  have whole : (2 ^ (30 - k) : ℤ) * 2 ^ k = 2 ^ 30 := by rw [← pow_add, Nat.sub_add_cancel few]
  refine ⟨holds_minus_ninety, amounts_ninety.holds, ⟨-2 ^ 29, 2 ^ (30 - k), ?_, ?_⟩, by norm_num,
    by norm_num, by norm_num⟩
  · norm_num [unit]
  · rw [whole]
    norm_num [unit]

theorem degrees_longitudes (few : k ≤ 30) : Degrees ⟨-180.0, 180.0⟩ ⟨-180, 180⟩ k := by
  have whole : (2 ^ (31 - k) : ℤ) * 2 ^ k = 2 ^ 31 := by
    rw [← pow_add, Nat.sub_add_cancel (by omega)]
  refine ⟨holds_minus_half_turn, amounts_half_turn.holds, ⟨-2 ^ 30, 2 ^ (31 - k), ?_, ?_⟩,
    by norm_num, by norm_num, by norm_num⟩
  · norm_num [unit]
  · rw [whole]
    norm_num [unit]

theorem part_latitude (few : k ≤ 30) (at_value : Holds value v) :
    (part value ⟨-90.0, 90.0⟩ k : ℤ) = max 0 (min ⌊(v + 90) * 2 ^ k / 180⌋ (2 ^ k - 1)) := by
  have height : (90 - -90 : ℚ) = 180 := by norm_num
  have parts := (degrees_latitudes few).part_eq at_value
  rwa [height, sub_neg_eq_add] at parts

theorem part_longitude (few : k ≤ 30) (at_value : Holds value v) :
    (part value ⟨-180.0, 180.0⟩ k : ℤ) = max 0 (min ⌊(v + 180) * 2 ^ k / 360⌋ (2 ^ k - 1)) := by
  have width : (180 - -180 : ℚ) = 360 := by norm_num
  have parts := (degrees_longitudes few).part_eq at_value
  rwa [width, sub_neg_eq_add] at parts

end Geohash

end Gazetteer
