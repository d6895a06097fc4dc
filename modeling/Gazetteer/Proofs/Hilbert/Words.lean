import Gazetteer.Proofs.Hilbert.Quadrants

/-! The two loops along the Hilbert curve in words: as they run, with the place and the cell built up
step by step, and with every sum and every product checked. No check fails on a grid of up to
`2 ^ 31` by `2 ^ 31` cells, and what is built up is what the recursions say. Only the reflections
wrap. -/
namespace Gazetteer.Hilbert

def sum? (a b : Nat) : Option Nat := if a + b < wordSize then some (a + b) else none

def product? (a b : Nat) : Option Nat := if a * b < wordSize then some (a * b) else none

theorem sum?_of_lt {a b : Nat} (fits : a + b < wordSize) : sum? a b = some (a + b) := if_pos fits

theorem product?_of_lt {a b : Nat} (fits : a * b < wordSize) : product? a b = some (a * b) :=
  if_pos fits

/-- The loop from a cell to its place, at the quadrants of width `s`, with `place` built up so far. -/
def indexLoop (s place : Nat) (c : Cell) : Option Nat :=
  if s = 0 then some place
  else do
    let right := meets c.col s
    let upper := meets c.row s
    let area ← product? s s
    let three ← product? 3 right
    let part ← product? area (three ^^^ upper)
    let place ← sum? place part
    indexLoop (s / 2) place (turn s right upper c)
termination_by s
decreasing_by omega

def index? (n : Nat) (c : Cell) : Option Nat := indexLoop (n / 2) 0 c

/-- The loop from a place to its cell, at the quadrants of width `s`, with `c` built up so far. -/
def cellLoop (n s rest : Nat) (c : Cell) : Option Cell :=
  if _ : 0 < s ∧ s < n then do
    let right := rest / 2 % 2
    let upper := (rest ^^^ right) % 2
    let turned := turn s right upper c
    let cols ← product? s right
    let col ← sum? turned.col cols
    let rows ← product? s upper
    let row ← sum? turned.row rows
    let _ ← product? s 2
    cellLoop n (2 * s) (rest / 4) ⟨col, row⟩
  else some c
termination_by n - s
decreasing_by omega

def cell? (n place : Nat) : Option Cell := cellLoop n 1 place ⟨0, 0⟩

theorem meets_lt (a s : Nat) : meets a s < 2 := by
  unfold meets
  split <;> decide

theorem indexLoop_step {s place : Nat} {c : Cell} (positive : s ≠ 0) (area : s * s < wordSize)
    (fits : place + s * s * quarter (meets c.col s) (meets c.row s) < wordSize) :
    indexLoop s place c =
      indexLoop (s / 2) (place + s * s * quarter (meets c.col s) (meets c.row s))
        (turn s (meets c.col s) (meets c.row s) c) := by
  have right := meets_lt c.col s
  have three : 3 * meets c.col s < wordSize := by
    rw [wordSize]
    omega
  have part : s * s * ((3 * meets c.col s) ^^^ meets c.row s) < wordSize :=
    Nat.lt_of_le_of_lt (Nat.le_add_left _ place) fits
  unfold quarter at fits ⊢
  rw [indexLoop, if_neg positive]
  simp only [product?_of_lt area, product?_of_lt three, product?_of_lt part, sum?_of_lt fits,
    Option.bind_eq_bind, Option.bind_some]

theorem indexLoop_eq {k place : Nat} (low : k ≤ 31) (c : Cell) (fits : place + 4 ^ k ≤ wordSize) :
    indexLoop (2 ^ k / 2) place c = some (place + index (2 ^ k) c) := by
  induction k generalizing place c with
  | zero =>
    have none : 2 ^ 0 / 2 = 0 := rfl
    rw [index_zero, none, indexLoop, if_pos rfl, Nat.add_zero]
  | succ k ih =>
    have half : 2 ^ (k + 1) / 2 = 2 ^ k := by omega
    have positive : 2 ^ k ≠ 0 := Nat.ne_of_gt (Nat.two_pow_pos k)
    have square : 2 ^ k * 2 ^ k = 4 ^ k := by rw [← Nat.mul_pow]
    have some_area : 0 < 4 ^ k := Nat.pow_pos (by decide)
    have number := quarter_lt (meets_lt c.col (2 ^ k)) (meets_lt c.row (2 ^ k))
    have part := Nat.mul_le_mul_left (4 ^ k) (Nat.le_of_lt_succ number)
    rw [pow_succ] at fits
    have step : indexLoop (2 ^ k) place c = _ :=
      indexLoop_step positive (by rw [square]; omega) (by rw [square]; omega)
    rw [half, step, ih (by omega) _ (by rw [square]; omega), index_step, square, meets_two_pow,
      meets_two_pow, Nat.add_assoc]

theorem cellLoop_step {n s rest : Nat} {c : Cell} (positive : 0 < s) (more : s < n)
    (low : 2 * s ≤ 2 ^ 31) (inside : c.Within s) :
    cellLoop n s rest c = cellLoop n (2 * s) (rest / 4) (placed s rest c) := by
  have word : wordSize = 2 ^ 64 := rfl
  have turned := turn_within (right rest) (upper rest) inside (by omega)
  have cols := Nat.mul_le_mul_left s (Nat.le_of_lt_succ (right_lt rest))
  have rows := Nat.mul_le_mul_left s (Nat.le_of_lt_succ (upper_lt rest))
  have col := turned.col
  have row := turned.row
  rw [cellLoop, dif_pos ⟨positive, more⟩]
  change (product? s (right rest)).bind (fun cols =>
    (sum? (turn s (right rest) (upper rest) c).col cols).bind fun col =>
    (product? s (upper rest)).bind fun rows =>
    (sum? (turn s (right rest) (upper rest) c).row rows).bind fun row =>
    (product? s 2).bind fun _ => cellLoop n (2 * s) (rest / 4) ⟨col, row⟩) = _
  rw [product?_of_lt (by omega), Option.bind_some, sum?_of_lt (by omega), Option.bind_some,
    product?_of_lt (by omega), Option.bind_some, sum?_of_lt (by omega), Option.bind_some,
    product?_of_lt (by omega), Option.bind_some]
  rfl

theorem cellLoop_eq {j m rest : Nat} (low : j + m ≤ 31) {c : Cell} (inside : c.Within (2 ^ j)) :
    cellLoop (2 ^ (j + m)) (2 ^ j) rest c = some (cellFrom (2 ^ (j + m)) (2 ^ j) rest c) := by
  induction m generalizing j rest c with
  | zero => rw [Nat.add_zero, cellFrom_stop, cellLoop, dif_neg (by omega)]
  | succ m ih =>
    have positive := Nat.two_pow_pos j
    have twice : 2 * 2 ^ j = 2 ^ (j + 1) := by omega
    have more : 2 ^ j < 2 ^ (j + (m + 1)) := Nat.pow_lt_pow_right (by decide) (by omega)
    have small : 2 ^ (j + 1) ≤ 2 ^ 31 := Nat.pow_le_pow_right (by decide) (by omega)
    have sum : j + (m + 1) = j + 1 + m := by omega
    rw [cellLoop_step positive more (by omega) inside, cellFrom_step positive more, twice, sum]
    exact ih (by omega) (placed_within (by omega) rest inside)

/-- On every grid that settings allow, the places along the curve and the cells are in one-to-one
correspondence, and neither loop leaves the words. -/
theorem cell_index_inverse {k : Nat} (order : k ≤ 31) :
    (∀ c : Cell, c.col < 2 ^ k → c.row < 2 ^ k →
      index (2 ^ k) c < 2 ^ k * 2 ^ k ∧ cell (2 ^ k) (index (2 ^ k) c) = c ∧
        index? (2 ^ k) c = some (index (2 ^ k) c)) ∧
    (∀ d < 2 ^ k * 2 ^ k,
      (cell (2 ^ k) d).col < 2 ^ k ∧ (cell (2 ^ k) d).row < 2 ^ k ∧
        index (2 ^ k) (cell (2 ^ k) d) = d ∧ cell? (2 ^ k) d = some (cell (2 ^ k) d)) := by
  have area : 2 ^ k * 2 ^ k = 4 ^ k := by rw [← Nat.mul_pow]
  have fits : k ≤ 64 := by omega
  have word : 0 + 4 ^ k ≤ wordSize := by
    rw [Nat.zero_add]
    have largest : 4 ^ k ≤ 4 ^ 32 := Nat.pow_le_pow_right (by decide) (by omega)
    exact largest
  rw [area]
  constructor
  · intro c col row
    refine ⟨index_lt k c, cell_index fits ⟨col, row⟩, ?_⟩
    rw [index?, indexLoop_eq order c word, Nat.zero_add]
  · intro d inside
    have within := cell_within fits d
    refine ⟨within.col, within.row, index_cell fits inside, ?_⟩
    have loop : cellLoop (2 ^ (0 + k)) (2 ^ 0) d ⟨0, 0⟩ = _ :=
      cellLoop_eq (by omega) ⟨by decide, by decide⟩
    rw [Nat.zero_add] at loop
    exact loop

/-- A cell of the largest grid, and the place of another. -/
theorem cell_index_inverse_largest :
    cell (2 ^ 31) (index (2 ^ 31) ⟨5, 2 ^ 31 - 1⟩) = ⟨5, 2 ^ 31 - 1⟩ ∧
      index (2 ^ 31) (cell (2 ^ 31) 416884576) = 416884576 := by
  have both := cell_index_inverse (k := 31) (by decide)
  exact ⟨(both.1 ⟨5, 2 ^ 31 - 1⟩ (by decide) (by decide)).2.1,
    (both.2 416884576 (by decide)).2.2.1⟩

end Gazetteer.Hilbert
