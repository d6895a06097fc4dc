import Gazetteer.Grid.Hilbert
import Mathlib.Algebra.Order.Group.Nat
import Mathlib.Data.Nat.Bitwise
import Mathlib.Tactic.IntervalCases
import Mathlib.Tactic.Ring

/-! The two ways along the Hilbert curve, one quadrant at a time. Both are put in the form of a
recursion that cuts off the greatest quadrant: from a cell to its place this is the first step that
is done, from a place to its cell the last. In that form they undo each other step by step. The
bits that wrap on the way are above those that any later step looks at. -/
namespace Gazetteer

namespace Cell

structure Within (c : Cell) (width : Nat) : Prop where
  col : c.col < width
  row : c.row < width

/-- A cell in the square of a width that it lies in, counted from the corner of that square. -/
def low (c : Cell) (width : Nat) : Cell := ⟨c.col % width, c.row % width⟩

/-- The square of a width that a cell lies in, counted in squares. -/
def high (c : Cell) (width : Nat) : Cell := ⟨c.col / width, c.row / width⟩

theorem low_within (c : Cell) {width : Nat} (positive : 0 < width) : (c.low width).Within width :=
  ⟨Nat.mod_lt _ positive, Nat.mod_lt _ positive⟩

theorem Within.mono {c : Cell} {width wider : Nat} (h : c.Within width) (wide : width ≤ wider) :
    c.Within wider :=
  ⟨Nat.lt_of_lt_of_le h.col wide, Nat.lt_of_lt_of_le h.row wide⟩

theorem Within.high {c : Cell} {width count : Nat} (h : c.Within (width * count)) :
    (c.high width).Within count :=
  ⟨Nat.div_lt_of_lt_mul h.col, Nat.div_lt_of_lt_mul h.row⟩

end Cell

namespace Hilbert

theorem width_dvd {k : Nat} (fits : k ≤ 64) : 2 ^ k ∣ wordSize := pow_dvd_pow 2 fits

theorem meets_two_pow (a k : Nat) : meets a (2 ^ k) = a / 2 ^ k % 2 := by
  rw [meets, Nat.and_two_pow, ← Nat.toNat_testBit]
  cases a.testBit k with
  | false => simp
  | true => simp

theorem reflect_of_lt {s value : Nat} (inside : value < s) (fits : s ≤ wordSize) :
    reflect s value = s - 1 - value := by
  have same : wordSize + (s - 1) - value = wordSize + (s - 1 - value) := by omega
  rw [reflect, same, Nat.add_mod_left, Nat.mod_eq_of_lt (by omega)]

theorem reflect_lt (s value : Nat) : reflect s value < wordSize :=
  Nat.mod_lt _ (by decide)

/-- The bits that a reflection keeps do not depend on those that it loses. -/
theorem reflect_mod {s value : Nat} (divides : s ∣ wordSize) (word : value < wordSize) :
    reflect s value % s = s - 1 - value % s := by
  have positive : 0 < s := Nat.pos_of_dvd_of_pos divides (by decide)
  obtain ⟨count, total⟩ := divides
  have below := Nat.mod_lt value positive
  have parts := Nat.div_add_mod value s
  have fewer : value / s < count := by
    rw [Nat.div_lt_iff_lt_mul positive, Nat.mul_comm, ← total]
    exact word
  have split : s * (count - value / s) = wordSize - s * (value / s) := by
    rw [Nat.mul_sub, total]
  have inside : s * (value / s) ≤ wordSize := by omega
  have sum : wordSize + (s - 1) - value = s * (count - value / s) + (s - 1 - value % s) := by omega
  rw [reflect, Nat.mod_mod_of_dvd _ ⟨count, total⟩, sum, Nat.mul_add_mod, Nat.mod_eq_of_lt (by omega)]

theorem turn_word {s right upper : Nat} {c : Cell} (word : c.Within wordSize) :
    (turn s right upper c).Within wordSize := by
  unfold turn
  split
  · split
    · exact ⟨reflect_lt _ _, reflect_lt _ _⟩
    · exact ⟨word.row, word.col⟩
  · exact word

theorem turn_within {s : Nat} (right upper : Nat) {c : Cell} (inside : c.Within s) (fits : s ≤ wordSize) :
    (turn s right upper c).Within s := by
  have col := inside.col
  have row := inside.row
  unfold turn
  split
  · split
    · rw [reflect_of_lt col fits, reflect_of_lt row fits]
      exact ⟨by simp only; omega, by simp only; omega⟩
    · exact ⟨row, col⟩
  · exact inside

theorem turn_turn {s : Nat} (right upper : Nat) {c : Cell} (inside : c.Within s)
    (fits : s ≤ wordSize) : turn s right upper (turn s right upper c) = c := by
  have col := inside.col
  have row := inside.row
  unfold turn
  split
  · split
    · rw [reflect_of_lt col fits, reflect_of_lt row fits]
      simp only
      rw [reflect_of_lt (by omega) fits, reflect_of_lt (by omega) fits]
      cases c
      simp only [Cell.mk.injEq] at *
      omega
    · rfl
  · rfl

theorem low_turn {s right upper : Nat} {c : Cell} (divides : s ∣ wordSize)
    (word : c.Within wordSize) : (turn s right upper c).low s = turn s right upper (c.low s) := by
  have positive : 0 < s := Nat.pos_of_dvd_of_pos divides (by decide)
  have fits := Nat.le_of_dvd (by decide) divides
  unfold turn
  split
  · split
    · rw [Cell.low, reflect_mod divides word.col, reflect_mod divides word.row, Cell.low,
        reflect_of_lt (Nat.mod_lt _ positive) fits, reflect_of_lt (Nat.mod_lt _ positive) fits]
    · rfl
  · rfl

/-- The number of a quadrant in the order of the curve. -/
def quarter (right upper : Nat) : Nat := (3 * right) ^^^ upper

def right (q : Nat) : Nat := q / 2 % 2

def upper (q : Nat) : Nat := (q ^^^ right q) % 2

theorem right_lt (q : Nat) : right q < 2 := Nat.mod_lt _ (by decide)

theorem upper_lt (q : Nat) : upper q < 2 := Nat.mod_lt _ (by decide)

theorem quarter_lt {r u : Nat} (col : r < 2) (row : u < 2) : quarter r u < 4 := by
  interval_cases r <;> interval_cases u <;> decide

theorem quarter_sides {q : Nat} (four : q < 4) : quarter (right q) (upper q) = q := by
  interval_cases q <;> decide

theorem sides_quarter {r u : Nat} (col : r < 2) (row : u < 2) :
    right (quarter r u) = r ∧ upper (quarter r u) = u := by
  interval_cases r <;> interval_cases u <;> decide

theorem right_mod (q : Nat) : right (q % 4) = right q := by
  unfold right
  omega

theorem upper_mod (q : Nat) : upper (q % 4) = upper q := by
  rw [upper, upper, right_mod, Nat.xor_mod_two_eq, Nat.xor_mod_two_eq]
  omega

theorem index_zero (c : Cell) : index (2 ^ 0) c = 0 := index_one c

theorem index_step (k : Nat) (c : Cell) :
    index (2 ^ (k + 1)) c =
      4 ^ k * quarter (c.col / 2 ^ k % 2) (c.row / 2 ^ k % 2) +
        index (2 ^ k) (turn (2 ^ k) (c.col / 2 ^ k % 2) (c.row / 2 ^ k % 2) c) := by
  have half : 2 ^ (k + 1) / 2 = 2 ^ k := by omega
  have positive : 2 ^ k ≠ 0 := Nat.ne_of_gt (Nat.two_pow_pos k)
  have area : 2 ^ k * 2 ^ k = 4 ^ k := by rw [← Nat.mul_pow]
  rw [index, half, along, if_neg positive]
  simp only [meets_two_pow]
  rw [area]
  rfl

/-- The bits above those of the width do not count. -/
theorem index_low {k : Nat} (fits : k ≤ 64) {c : Cell} (word : c.Within wordSize) :
    index (2 ^ k) (c.low (2 ^ k)) = index (2 ^ k) c := by
  induction k generalizing c with
  | zero => rw [index_zero, index_zero]
  | succ k ih =>
    have divides := width_dvd (Nat.le_of_succ_le fits)
    have lowered : (c.low (2 ^ (k + 1))).Within wordSize :=
      (c.low_within (Nat.two_pow_pos _)).mono (Nat.le_of_dvd (by decide) (width_dvd fits))
    have col : (c.low (2 ^ (k + 1))).col / 2 ^ k % 2 = c.col / 2 ^ k % 2 := by
      rw [Cell.low, pow_succ, Nat.mod_mul_right_div_self, Nat.mod_mod]
    have row : (c.low (2 ^ (k + 1))).row / 2 ^ k % 2 = c.row / 2 ^ k % 2 := by
      rw [Cell.low, pow_succ, Nat.mod_mul_right_div_self, Nat.mod_mod]
    have twice : (c.low (2 ^ (k + 1))).low (2 ^ k) = c.low (2 ^ k) := by
      have halves : 2 ^ k ∣ 2 ^ (k + 1) := pow_dvd_pow 2 (Nat.le_succ k)
      simp only [Cell.low, Nat.mod_mod_of_dvd _ halves]
    -- a turn wraps above the half width only, where the rest of the loop does not look
    have turned : ∀ right upper, index (2 ^ k) (turn (2 ^ k) right upper (c.low (2 ^ (k + 1)))) =
        index (2 ^ k) (turn (2 ^ k) right upper c) := by
      intro right upper
      have fits := Nat.le_of_succ_le fits
      rw [← ih fits (turn_word lowered), ← ih fits (turn_word word), low_turn divides lowered,
        low_turn divides word, twice]
    rw [index_step, index_step, col, row, turned]

theorem index_succ {k : Nat} (fits : k < 64) {c : Cell} (inside : c.Within (2 ^ (k + 1))) :
    index (2 ^ (k + 1)) c = 4 ^ k * quarter (c.high (2 ^ k)).col (c.high (2 ^ k)).row +
      index (2 ^ k) (turn (2 ^ k) (c.high (2 ^ k)).col (c.high (2 ^ k)).row (c.low (2 ^ k))) := by
  have word := inside.mono (Nat.le_of_dvd (by decide) (width_dvd (Nat.succ_le_of_lt fits)))
  have divides := width_dvd (Nat.le_of_lt fits)
  have sides : (c.high (2 ^ k)).Within 2 := inside.high
  have col : c.col / 2 ^ k % 2 = (c.high (2 ^ k)).col := Nat.mod_eq_of_lt sides.col
  have row : c.row / 2 ^ k % 2 = (c.high (2 ^ k)).row := Nat.mod_eq_of_lt sides.row
  rw [index_step, col, row,
    ← index_low (Nat.le_of_lt fits) (turn_word word), low_turn divides word]

/-- A cell of a square of width `s` as a cell of the quadrant with a number. -/
def placed (s q : Nat) (c : Cell) : Cell where
  col := (turn s (right q) (upper q) c).col + s * right q
  row := (turn s (right q) (upper q) c).row + s * upper q

theorem placed_mod (s q : Nat) (c : Cell) : placed s (q % 4) c = placed s q c := by
  rw [placed, placed, right_mod, upper_mod]

theorem placed_within {k : Nat} (fits : k ≤ 64) (q : Nat) {c : Cell} (inside : c.Within (2 ^ k)) :
    (placed (2 ^ k) q c).Within (2 ^ (k + 1)) := by
  have turned : (turn (2 ^ k) (right q) (upper q) c).Within (2 ^ k) :=
    turn_within _ _ inside (Nat.le_of_dvd (by decide) (width_dvd fits))
  have half : 2 ^ (k + 1) = 2 ^ k + 2 ^ k * 1 := by omega
  have col := Nat.mul_le_mul_left (2 ^ k) (Nat.le_of_lt_succ (right_lt q))
  have row := Nat.mul_le_mul_left (2 ^ k) (Nat.le_of_lt_succ (upper_lt q))
  refine ⟨?_, ?_⟩
  · rw [half]
    exact Nat.add_lt_add_of_lt_of_le turned.col col
  · rw [half]
    exact Nat.add_lt_add_of_lt_of_le turned.row row

theorem high_placed {s q : Nat} {c : Cell} (inside : c.Within s) (fits : s ≤ wordSize) :
    (placed s q c).high s = ⟨right q, upper q⟩ := by
  have turned : (turn s (right q) (upper q) c).Within s := turn_within _ _ inside fits
  have positive : 0 < s := Nat.lt_of_le_of_lt (Nat.zero_le _) inside.col
  simp only [placed, Cell.high, Nat.add_mul_div_left _ _ positive, Nat.div_eq_of_lt turned.col,
    Nat.div_eq_of_lt turned.row, Nat.zero_add]

theorem low_placed {s q : Nat} {c : Cell} (inside : c.Within s) (fits : s ≤ wordSize) :
    (placed s q c).low s = turn s (right q) (upper q) c := by
  have turned : (turn s (right q) (upper q) c).Within s := turn_within _ _ inside fits
  simp only [placed, Cell.low, Nat.add_mul_mod_self_left, Nat.mod_eq_of_lt turned.col,
    Nat.mod_eq_of_lt turned.row]

theorem cellFrom_stop (n rest : Nat) (c : Cell) : cellFrom n n rest c = c := by
  rw [cellFrom, if_neg (by omega)]

theorem cellFrom_step {n s : Nat} (positive : 0 < s) (more : s < n) (rest : Nat) (c : Cell) :
    cellFrom n s rest c = cellFrom n (2 * s) (rest / 4) (placed s rest c) := by
  rw [cellFrom, if_pos ⟨positive, more⟩]
  rfl

theorem cellFrom_last (j m rest : Nat) (c : Cell) :
    cellFrom (2 ^ (j + m + 1)) (2 ^ j) rest c =
      placed (2 ^ (j + m)) (rest / 4 ^ m) (cellFrom (2 ^ (j + m)) (2 ^ j) rest c) := by
  have positive := Nat.two_pow_pos j
  have twice : 2 * 2 ^ j = 2 ^ (j + 1) := by omega
  -- the loop begins with the least square, so its start moves and its end stays
  induction m generalizing j rest c with
  | zero =>
    rw [cellFrom_step positive (Nat.pow_lt_pow_right (by decide) (by omega)), twice]
    simp only [Nat.add_zero, cellFrom_stop, pow_zero, Nat.div_one]
  | succ m ih =>
    have sum : j + (m + 1) = j + 1 + m := by omega
    have quarters : rest / 4 ^ (m + 1) = rest / 4 / 4 ^ m := by
      rw [Nat.div_div_eq_div_mul, pow_succ, Nat.mul_comm]
    rw [cellFrom_step positive (Nat.pow_lt_pow_right (by decide) (by omega)),
      cellFrom_step (n := 2 ^ (j + (m + 1))) positive (Nat.pow_lt_pow_right (by decide) (by omega)),
      twice, sum, quarters]
    exact ih (j + 1) (rest / 4) (placed (2 ^ j) rest c) (Nat.two_pow_pos _) (by omega)

theorem cell_zero (d : Nat) : cell (2 ^ 0) d = ⟨0, 0⟩ := cellFrom_stop 1 d ⟨0, 0⟩

theorem cell_succ (k d : Nat) :
    cell (2 ^ (k + 1)) d = placed (2 ^ k) (d / 4 ^ k) (cell (2 ^ k) d) := by
  have last := cellFrom_last 0 k d ⟨0, 0⟩
  rw [Nat.zero_add] at last
  exact last

theorem cell_within {k : Nat} (fits : k ≤ 64) (d : Nat) : (cell (2 ^ k) d).Within (2 ^ k) := by
  induction k with
  | zero =>
    rw [cell_zero]
    exact ⟨by decide, by decide⟩
  | succ k ih =>
    rw [cell_succ]
    exact placed_within (Nat.le_of_succ_le fits) _ (ih (Nat.le_of_succ_le fits))

theorem cell_low (k d : Nat) : cell (2 ^ k) (d % 4 ^ k) = cell (2 ^ k) d := by
  induction k generalizing d with
  | zero => rw [cell_zero, cell_zero]
  | succ k ih =>
    have digit : d % 4 ^ (k + 1) / 4 ^ k = d / 4 ^ k % 4 := by
      rw [pow_succ, Nat.mod_mul_right_div_self]
    have rest : d % 4 ^ (k + 1) % 4 ^ k = d % 4 ^ k :=
      Nat.mod_mod_of_dvd d (pow_dvd_pow 4 (Nat.le_succ k))
    rw [cell_succ, cell_succ, digit, placed_mod, ← ih (d % 4 ^ (k + 1)), rest, ih]

theorem index_lt (k : Nat) (c : Cell) : index (2 ^ k) c < 4 ^ k := by
  induction k generalizing c with
  | zero =>
    rw [index_zero]
    decide
  | succ k ih =>
    have number : quarter (c.col / 2 ^ k % 2) (c.row / 2 ^ k % 2) ≤ 3 :=
      Nat.le_of_lt_succ (quarter_lt (Nat.mod_lt _ (by decide)) (Nat.mod_lt _ (by decide)))
    have before := Nat.mul_le_mul_left (4 ^ k) number
    have rest := ih (turn (2 ^ k) (c.col / 2 ^ k % 2) (c.row / 2 ^ k % 2) c)
    rw [index_step, pow_succ]
    omega

theorem index_placed {k q : Nat} (fits : k < 64) (four : q < 4) {c : Cell}
    (inside : c.Within (2 ^ k)) :
    index (2 ^ (k + 1)) (placed (2 ^ k) q c) = 4 ^ k * q + index (2 ^ k) c := by
  have fewer := Nat.le_of_lt fits
  have word := Nat.le_of_dvd (by decide) (width_dvd fewer)
  rw [index_succ fits (placed_within fewer q inside), high_placed inside word,
    low_placed inside word, quarter_sides four, turn_turn _ _ inside word]

theorem placed_quarter {k : Nat} (fits : k ≤ 64) {c : Cell} (inside : c.Within (2 ^ (k + 1))) :
    placed (2 ^ k) (quarter (c.high (2 ^ k)).col (c.high (2 ^ k)).row)
      (turn (2 ^ k) (c.high (2 ^ k)).col (c.high (2 ^ k)).row (c.low (2 ^ k))) = c := by
  have sides : (c.high (2 ^ k)).Within 2 := inside.high
  have low : (c.low (2 ^ k)).Within (2 ^ k) := c.low_within (Nat.two_pow_pos k)
  obtain ⟨right, upper⟩ := sides_quarter sides.col sides.row
  rw [placed, right, upper, turn_turn _ _ low (Nat.le_of_dvd (by decide) (width_dvd fits))]
  simp only [Cell.low, Cell.high, Nat.mod_add_div]

theorem index_cell {k : Nat} (fits : k ≤ 64) {d : Nat} (inside : d < 4 ^ k) :
    index (2 ^ k) (cell (2 ^ k) d) = d := by
  induction k generalizing d with
  | zero =>
    rw [index_zero]
    exact (Nat.lt_one_iff.mp inside).symm
  | succ k ih =>
    have fewer := Nat.le_of_succ_le fits
    have four : d / 4 ^ k < 4 := Nat.div_lt_of_lt_mul (by rw [← pow_succ]; exact inside)
    have rest := ih fewer (Nat.mod_lt d (Nat.pow_pos (by decide)))
    rw [cell_low] at rest
    rw [cell_succ, index_placed (Nat.lt_of_succ_le fits) four (cell_within fewer d), rest]
    exact Nat.div_add_mod d (4 ^ k)

theorem cell_index {k : Nat} (fits : k ≤ 64) {c : Cell} (inside : c.Within (2 ^ k)) :
    cell (2 ^ k) (index (2 ^ k) c) = c := by
  induction k generalizing c with
  | zero =>
    rw [cell_zero]
    cases c
    have col := inside.col
    have row := inside.row
    simp only [pow_zero, Nat.lt_one_iff, Cell.mk.injEq] at *
    omega
  | succ k ih =>
    have fewer := Nat.le_of_succ_le fits
    have low : (c.low (2 ^ k)).Within (2 ^ k) := c.low_within (Nat.two_pow_pos k)
    have turned := turn_within (c.high (2 ^ k)).col (c.high (2 ^ k)).row low
      (Nat.le_of_dvd (by decide) (width_dvd fewer))
    have below := index_lt k (turn (2 ^ k) (c.high (2 ^ k)).col (c.high (2 ^ k)).row (c.low (2 ^ k)))
    have positive : 0 < 4 ^ k := Nat.pow_pos (by decide)
    rw [index_succ (Nat.lt_of_succ_le fits) inside, cell_succ, Nat.mul_add_div positive,
      Nat.div_eq_of_lt below, Nat.add_zero, ← cell_low, Nat.mul_add_mod, Nat.mod_eq_of_lt below,
      ih fewer turned, placed_quarter fewer inside]

end Hilbert

end Gazetteer
