import Gazetteer.Proofs.Hilbert.Quadrants

/-! Squares of cells are stretches of the Hilbert curve. The grid of all squares of one width has a
Hilbert curve of its own, and the curve of the cells goes through the squares in that order, through
all cells of one square before any of the next. -/
namespace Gazetteer.Hilbert

theorem high_turn {m j : Nat} (fits : m + j ≤ 64) (right upper : Nat) {c : Cell}
    (inside : c.Within (2 ^ (m + j))) :
    (turn (2 ^ (m + j)) right upper c).high (2 ^ j) = turn (2 ^ m) right upper (c.high (2 ^ j)) := by
  have wide := Nat.le_of_dvd (by decide) (width_dvd fits)
  have narrow := Nat.le_of_dvd (by decide) (width_dvd (Nat.le_of_add_right_le fits))
  have product : 2 ^ (m + j) = 2 ^ j * 2 ^ m := by rw [Nat.add_comm, pow_add]
  have squares : (c.high (2 ^ j)).Within (2 ^ m) := (product ▸ inside).high
  -- the other side of a square is the square of the other side
  have other : ∀ value, value < 2 ^ (m + j) →
      (2 ^ (m + j) - 1 - value) / 2 ^ j = 2 ^ m - 1 - value / 2 ^ j := by
    intro value below
    have mirrored := Nat.mul_sub_div value (2 ^ j) (2 ^ m) (product ▸ below)
    have left : 2 ^ (m + j) - 1 - value = 2 ^ j * 2 ^ m - (value + 1) := by omega
    rw [left, mirrored]
    omega
  unfold turn
  split
  · split
    · rw [reflect_of_lt inside.col wide, reflect_of_lt inside.row wide,
        reflect_of_lt squares.col narrow, reflect_of_lt squares.row narrow]
      simp only [Cell.high, other _ inside.col, other _ inside.row]
    · rfl
  · rfl

theorem high_high (c : Cell) (m j : Nat) :
    (c.high (2 ^ j)).high (2 ^ m) = c.high (2 ^ (m + j)) := by
  simp only [Cell.high, Nat.div_div_eq_div_mul, pow_add, Nat.mul_comm]

theorem high_low (c : Cell) (m j : Nat) :
    (c.low (2 ^ (m + j))).high (2 ^ j) = (c.high (2 ^ j)).low (2 ^ m) := by
  simp only [Cell.high, Cell.low, Nat.add_comm m j, pow_add, Nat.mod_mul_right_div_self]

/-- The place of a cell begins with the place of its square among the squares. -/
theorem index_div {m j : Nat} (fits : m + j ≤ 64) {c : Cell} (inside : c.Within (2 ^ (m + j))) :
    index (2 ^ (m + j)) c / 4 ^ j = index (2 ^ m) (c.high (2 ^ j)) := by
  induction m generalizing c with
  | zero =>
    rw [Nat.zero_add, index_zero]
    exact Nat.div_eq_of_lt (index_lt j c)
  | succ m ih =>
    have sum : m + 1 + j = m + j + 1 := by omega
    have positive : 0 < 4 ^ j := Nat.pow_pos (by decide)
    rw [sum] at inside fits ⊢
    have low := c.low_within (Nat.two_pow_pos (m + j))
    have turned := turn_within (c.high (2 ^ (m + j))).col (c.high (2 ^ (m + j))).row low
      (Nat.le_of_dvd (by decide) (width_dvd (Nat.le_of_succ_le fits)))
    have product : 2 ^ (m + j + 1) = 2 ^ j * 2 ^ (m + 1) := by
      rw [← pow_add]
      congr 1
      omega
    have squares : (c.high (2 ^ j)).Within (2 ^ (m + 1)) := (product ▸ inside).high
    have quarters : 4 ^ (m + j) = 4 ^ j * 4 ^ m := by rw [Nat.add_comm, pow_add]
    rw [index_succ (Nat.lt_of_succ_le fits) inside, index_succ (by omega) squares, high_high,
      quarters, Nat.mul_assoc, Nat.mul_add_div positive, ih (Nat.le_of_succ_le fits) turned,
      high_turn (Nat.le_of_succ_le fits) _ _ low, high_low]

theorem high_eq_iff {m j : Nat} (fits : m + j ≤ 64) {a b : Cell} (first : a.Within (2 ^ (m + j)))
    (second : b.Within (2 ^ (m + j))) :
    a.high (2 ^ j) = b.high (2 ^ j) ↔
      index (2 ^ (m + j)) a / 4 ^ j = index (2 ^ (m + j)) b / 4 ^ j := by
  have product : 2 ^ (m + j) = 2 ^ j * 2 ^ m := by rw [Nat.add_comm, pow_add]
  have few : m ≤ 64 := by omega
  have one : (a.high (2 ^ j)).Within (2 ^ m) := (product ▸ first).high
  have two : (b.high (2 ^ j)).Within (2 ^ m) := (product ▸ second).high
  rw [index_div fits first, index_div fits second]
  constructor
  · intro same
    rw [same]
  · intro same
    rw [← cell_index few one, same, cell_index few two]

end Gazetteer.Hilbert
