import Gazetteer.Proofs.Hilbert.Quadrants

/-! Places that follow one another on the Hilbert curve are cells side by side. The curve enters a
square at its lower left corner and leaves it at its lower right corner; every quadrant is turned so
that it is entered beside the cell at which the quadrant before it was left. -/
namespace Gazetteer

namespace Cell

/-- One step apart along one axis, and level along the other. -/
def Beside (a b : Cell) : Prop :=
  (a.col = b.col ∧ (a.row + 1 = b.row ∨ b.row + 1 = a.row)) ∨
    (a.row = b.row ∧ (a.col + 1 = b.col ∨ b.col + 1 = a.col))

end Cell

namespace Hilbert

theorem cell_first (k : Nat) : cell (2 ^ k) 0 = ⟨0, 0⟩ := by
  induction k with
  | zero => exact cell_zero 0
  | succ k ih =>
    rw [cell_succ, ih, Nat.zero_div]
    rfl

/-- The last quadrant is the lower right one, turned so that its first cell is its upper right
corner. -/
theorem placed_three {s : Nat} (positive : 0 < s) (fits : s ≤ wordSize) {c : Cell}
    (inside : c.Within s) : placed s 3 c = ⟨2 * s - 1 - c.row, s - 1 - c.col⟩ := by
  have col := inside.col
  have row := inside.row
  change (⟨reflect s c.row + s * 1, reflect s c.col + s * 0⟩ : Cell) = _
  rw [reflect_of_lt row fits, reflect_of_lt col fits, Cell.mk.injEq]
  omega

theorem cell_last {k : Nat} (fits : k ≤ 64) : cell (2 ^ k) (4 ^ k - 1) = ⟨2 ^ k - 1, 0⟩ := by
  induction k with
  | zero => exact cell_zero 0
  | succ k ih =>
    have fewer := Nat.le_of_succ_le fits
    have word := Nat.le_of_dvd (by decide) (width_dvd fewer)
    have area : 0 < 4 ^ k := Nat.pow_pos (by decide)
    have width := Nat.two_pow_pos k
    have split : 4 ^ (k + 1) - 1 = 4 ^ k * 3 + (4 ^ k - 1) := by omega
    have corner : (⟨2 ^ k - 1, 0⟩ : Cell).Within (2 ^ k) := ⟨by simp only; omega, width⟩
    have quarter : (4 ^ k * 3 + (4 ^ k - 1)) / 4 ^ k = 3 := by
      rw [Nat.mul_add_div area, Nat.div_eq_of_lt (by omega)]
    have rest : (4 ^ k * 3 + (4 ^ k - 1)) % 4 ^ k = 4 ^ k - 1 := by
      rw [Nat.mul_add_mod, Nat.mod_eq_of_lt (by omega)]
    rw [cell_succ, split, quarter, ← cell_low, rest, ih fewer, placed_three width word corner,
      Cell.mk.injEq]
    simp only
    omega

theorem beside_turn {s : Nat} (right upper : Nat) {a b : Cell} (h : a.Beside b)
    (first : a.Within s) (second : b.Within s) (fits : s ≤ wordSize) :
    (turn s right upper a).Beside (turn s right upper b) := by
  have fromCol := first.col
  have fromRow := first.row
  have toCol := second.col
  have toRow := second.row
  unfold Hilbert.turn
  split
  · split
    · rw [reflect_of_lt fromCol fits, reflect_of_lt fromRow fits, reflect_of_lt toCol fits,
        reflect_of_lt toRow fits]
      unfold Cell.Beside at h ⊢
      simp only
      omega
    · exact h.symm
  · exact h

theorem beside_placed {s q : Nat} {a b : Cell} (h : a.Beside b) (first : a.Within s)
    (second : b.Within s) (fits : s ≤ wordSize) : (placed s q a).Beside (placed s q b) := by
  have turned := beside_turn (right q) (upper q) h first second fits
  unfold Cell.Beside at turned ⊢
  simp only [Hilbert.placed]
  omega

theorem placed_beside_next {s q : Nat} (positive : 0 < s) (fits : s ≤ wordSize) (more : q < 3) :
    (placed s q ⟨s - 1, 0⟩).Beside (placed s (q + 1) ⟨0, 0⟩) := by
  have origin : (⟨0, 0⟩ : Cell).Within s := ⟨positive, positive⟩
  interval_cases q
  · -- upwards from the lower left quadrant
    change Cell.Beside ⟨0 + s * 0, s - 1 + s * 0⟩ ⟨0 + s * 0, 0 + s * 1⟩
    refine .inl ⟨rfl, .inl ?_⟩
    simp only
    omega
  · -- to the right along the upper quadrants
    change Cell.Beside ⟨s - 1 + s * 0, 0 + s * 1⟩ ⟨0 + s * 1, 0 + s * 1⟩
    refine .inr ⟨rfl, .inl ?_⟩
    simp only
    omega
  · -- downwards into the lower right quadrant
    rw [placed_three positive fits origin]
    change Cell.Beside ⟨s - 1 + s * 1, 0 + s * 1⟩ ⟨2 * s - 1 - 0, s - 1 - 0⟩
    unfold Cell.Beside
    simp only
    omega

theorem cell_beside {k : Nat} (fits : k ≤ 64) {d : Nat} (more : d + 1 < 4 ^ k) :
    (cell (2 ^ k) d).Beside (cell (2 ^ k) (d + 1)) := by
  induction k generalizing d with
  | zero =>
    rw [pow_zero] at more
    omega
  | succ k ih =>
    have fewer := Nat.le_of_succ_le fits
    have word := Nat.le_of_dvd (by decide) (width_dvd fewer)
    have area : 0 < 4 ^ k := Nat.pow_pos (by decide)
    have parts := Nat.div_add_mod d (4 ^ k)
    have below := Nat.mod_lt d area
    rw [cell_succ, cell_succ, ← cell_low k d, ← cell_low k (d + 1)]
    by_cases inner : d % 4 ^ k + 1 < 4 ^ k
    · -- both cells are in one quadrant
      have next : d + 1 = 4 ^ k * (d / 4 ^ k) + (d % 4 ^ k + 1) := by omega
      have same : (d + 1) / 4 ^ k = d / 4 ^ k := by
        rw [next, Nat.mul_add_div area, Nat.div_eq_of_lt inner, Nat.add_zero]
      have rest : (d + 1) % 4 ^ k = d % 4 ^ k + 1 := by
        rw [next, Nat.mul_add_mod, Nat.mod_eq_of_lt inner]
      rw [same, rest]
      exact beside_placed (ih fewer inner) (cell_within fewer _) (cell_within fewer _) word
    · -- the curve passes on to the next quadrant
      have ended : d % 4 ^ k = 4 ^ k - 1 := by omega
      have next : d + 1 = 4 ^ k * (d / 4 ^ k + 1) := by
        rw [Nat.mul_add, Nat.mul_one]
        omega
      have following : (d + 1) / 4 ^ k = d / 4 ^ k + 1 := by
        rw [next, Nat.mul_div_cancel_left _ area]
      have rest : (d + 1) % 4 ^ k = 0 := by rw [next, Nat.mul_mod_right]
      have quarters : d / 4 ^ k < 3 := by
        have four : (d + 1) / 4 ^ k < 4 := Nat.div_lt_of_lt_mul (by rw [← pow_succ]; exact more)
        omega
      rw [following, ended, rest, cell_last fewer, cell_first]
      exact placed_beside_next (Nat.two_pow_pos k) word quarters

end Hilbert

end Gazetteer
