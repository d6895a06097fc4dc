import Gazetteer.Grid.Morton
import Mathlib.Tactic.Ring

/-! Codes and cells. The two numbers of a code have as many bits as the grid has columns and rows, a
cell of the grid is found again from its code, and a code grows at its upper end by a bit of the one
number or the other. -/
namespace Gazetteer.Morton

theorem unweave_lt (bits code : Nat) :
    (unweave bits code).1 < 2 ^ ((bits + 1) / 2) ∧ (unweave bits code).2 < 2 ^ (bits / 2) := by
  induction bits generalizing code with
  | zero => exact ⟨Nat.one_pos, Nat.one_pos⟩
  | succ bits ih =>
    obtain ⟨first, second⟩ := ih (code / 2)
    have turns : (bits + 1 + 1) / 2 = bits / 2 + 1 := by omega
    refine ⟨?_, first⟩
    rw [turns, Nat.pow_succ]
    simp only [unweave]
    omega

def cellOf (bits code : Nat) : Cell :=
  if bits % 2 = 1 then ⟨(unweave bits code).1, (unweave bits code).2⟩
  else ⟨(unweave bits code).2, (unweave bits code).1⟩

theorem cellOf_lt (bits code : Nat) :
    (cellOf bits code).col < 2 ^ ((bits + 1) / 2) ∧ (cellOf bits code).row < 2 ^ (bits / 2) := by
  obtain ⟨first, second⟩ := unweave_lt bits code
  unfold cellOf
  split
  · exact ⟨first, second⟩
  · next even =>
    have same : (bits + 1) / 2 = bits / 2 := by omega
    rw [same] at first ⊢
    exact ⟨second, first⟩

theorem cell_lt (precision code : Nat) :
    (cell precision code).col < columns precision ∧ (cell precision code).row < rows precision :=
  cellOf_lt (bitsPerUnit * precision) code

/-- One more bit at the lower end of a code is the column's if it was the row's turn before. -/
theorem cellOf_succ (bits code : Nat) :
    cellOf (bits + 1) code =
      if bits % 2 = 0 then
        ⟨2 * (cellOf bits (code / 2)).col + code % 2, (cellOf bits (code / 2)).row⟩
      else ⟨(cellOf bits (code / 2)).col, 2 * (cellOf bits (code / 2)).row + code % 2⟩ := by
  unfold cellOf
  rcases Nat.mod_two_eq_zero_or_one bits with even | odd
  · have next : (bits + 1) % 2 = 1 := by omega
    simp only [even, next, unweave, if_true, Nat.zero_ne_one, if_false]
  · have next : (bits + 1) % 2 = 0 := by omega
    simp only [odd, next, unweave, if_true, Nat.zero_ne_one, Nat.one_ne_zero, if_false]

theorem code_cell {precision place : Nat} (inside : place < 2 ^ (bitsPerUnit * precision)) :
    code precision (cell precision place) = place := by
  have again := weave_unweave (bitsPerUnit * precision) place
  change _ = place % 2 ^ (bitsPerUnit * precision) at again
  rw [Nat.mod_eq_of_lt inside] at again
  unfold code cell
  by_cases odd : bitsPerUnit * precision % 2 = 1
  · simp only [odd, if_true]
    exact again
  · simp only [odd, if_false]
    exact again

theorem cell_code {precision col row : ℕ} (inCols : col < 2 ^ columnBits precision)
    (inRows : row < 2 ^ rowBits precision) :
    cell precision (code precision ⟨col, row⟩) = ⟨col, row⟩ := by
  unfold columnBits at inCols
  unfold rowBits at inRows
  unfold cell code
  by_cases odd : bitsPerUnit * precision % 2 = 1
  · have again := unweave_weave (bitsPerUnit * precision) col row
    simp only [odd, if_true, again]
    exact congrArg₂ Cell.mk (Nat.mod_eq_of_lt inCols) (Nat.mod_eq_of_lt inRows)
  · have again := unweave_weave (bitsPerUnit * precision) row col
    have half : (bitsPerUnit * precision + 1) / 2 = bitsPerUnit * precision / 2 := by omega
    rw [half] at inCols again
    simp only [odd, if_false, again]
    exact congrArg₂ Cell.mk (Nat.mod_eq_of_lt inCols) (Nat.mod_eq_of_lt inRows)

theorem weave_top {bits top a b : Nat} (digit : top ≤ 1) (first : a < 2 ^ ((bits + 1) / 2))
    (second : b < 2 ^ (bits / 2)) :
    top * 2 ^ bits + weave bits a b =
      if bits % 2 = 0 then weave (bits + 1) (top * 2 ^ (bits / 2) + a) b
      else weave (bits + 1) a (top * 2 ^ (bits / 2) + b) := by
  induction bits generalizing a b with
  | zero =>
    have none : a = 0 := Nat.lt_one_iff.mp first
    change top * 1 + 0 = 2 * 0 + (top * 1 + a) % 2
    omega
  | succ bits ih =>
    have turns : (bits + 1 + 1) / 2 = bits / 2 + 1 := by omega
    rw [turns, pow_succ] at first
    have rest := ih second (by omega : a / 2 < 2 ^ (bits / 2))
    have shifted : top * 2 ^ (bits + 1) + weave (bits + 1) a b =
        2 * (top * 2 ^ bits + weave bits b (a / 2)) + a % 2 := by
      rw [weave, pow_succ]
      ring
    rw [shifted, rest]
    rcases Nat.mod_two_eq_zero_or_one bits with even | odd
    · have other : (bits + 1) % 2 = 1 := by omega
      have half : (bits + 1) / 2 = bits / 2 := by omega
      rw [if_pos even, if_neg (by omega), half]
      rfl
    · have half : (bits + 1) / 2 = bits / 2 + 1 := by omega
      have even : top * 2 ^ (bits / 2 + 1) = 2 * (top * 2 ^ (bits / 2)) := by
        rw [pow_succ]
        ring
      have high : (top * 2 ^ (bits / 2 + 1) + a) / 2 = top * 2 ^ (bits / 2) + a / 2 := by omega
      have low : (top * 2 ^ (bits / 2 + 1) + a) % 2 = a % 2 := by omega
      rw [if_neg (by omega), if_pos (by omega), half]
      simp only [weave, high, low]

/-- `bits` bits in turns, downwards from the highest, which is that of `a`. -/
def woven (bits a b : ℕ) : ℕ := if bits % 2 = 1 then weave bits a b else weave bits b a

theorem woven_succ {bits top a b : ℕ} (digit : top ≤ 1) (first : a < 2 ^ (bits / 2))
    (second : b < 2 ^ ((bits + 1) / 2)) :
    woven (bits + 1) (top * 2 ^ (bits / 2) + a) b = top * 2 ^ bits + woven bits b a := by
  unfold woven
  rcases Nat.mod_two_eq_zero_or_one bits with even | odd
  · have half : (bits + 1) / 2 = bits / 2 := by omega
    rw [half] at second
    have high := weave_top digit (half ▸ first) second
    rw [if_pos even] at high
    rw [if_pos (by omega), if_neg (by omega), high]
  · have high := weave_top digit second first
    rw [if_neg (by omega)] at high
    rw [if_neg (by omega), if_pos odd, high]

theorem weave_lt (bits a b : ℕ) : weave bits a b < 2 ^ bits := by
  induction bits generalizing a b with
  | zero => exact Nat.one_pos
  | succ bits ih =>
    have rest := ih b (a / 2)
    rw [weave, pow_succ]
    omega

theorem woven_lt (bits a b : ℕ) : woven bits a b < 2 ^ bits := by
  unfold woven
  split <;> apply weave_lt

theorem woven_low (bits a b : ℕ) :
    woven (bits + 1) a b =
      if bits % 2 = 0 then 2 * woven bits (a / 2) b + a % 2
      else 2 * woven bits a (b / 2) + b % 2 := by
  unfold woven
  rcases Nat.mod_two_eq_zero_or_one bits with even | odd
  · have next : (bits + 1) % 2 = 1 := by omega
    simp only [even, next, weave, if_true, Nat.zero_ne_one, if_false]
  · have next : (bits + 1) % 2 = 0 := by omega
    simp only [odd, next, weave, if_true, Nat.zero_ne_one, Nat.one_ne_zero, if_false]

end Gazetteer.Morton
