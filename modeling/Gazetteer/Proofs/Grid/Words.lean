import Gazetteer.Limits
import Gazetteer.Proofs.Grid.Weave

/-! A step between cells in words, as it runs: the bits of the code are dealt out from the highest
down, and those of the cell that is stepped to are shifted in one by one. Each number is checked to
be a word before it is used. On the grids that settings allow no check fails, and the outcome is
what the recursions say. -/
namespace Gazetteer.Morton

variable {bits k more : Nat}

def word? (n : Int) : Option Nat := if 0 ≤ n ∧ n < wordSize then some n.toNat else none

def signed? (n : Int) : Option Int := if -2 ^ 63 ≤ n ∧ n < 2 ^ 63 then some n else none

def bit? (n place : Nat) : Option Nat := if place < 64 then some (n / 2 ^ place % 2) else none

theorem word?_of_eq {n : Int} {m : Nat} (same : n = m) (fits : m < wordSize) :
    word? n = some m := by
  subst same
  exact if_pos ⟨Int.natCast_nonneg m, Int.ofNat_lt.mpr fits⟩

theorem signed?_of_bounds {n : Int} (low : -2 ^ 63 ≤ n) (high : n < 2 ^ 63) :
    signed? n = some n :=
  if_pos ⟨low, high⟩

theorem bit?_of_lt {place : Nat} (n : Nat) (shift : place < 64) :
    bit? n place = some (n / 2 ^ place % 2) :=
  if_pos shift

def shifted? (n bit : Nat) : Option Nat := word? (2 * n + bit : Nat)

theorem shifted?_of_lt {n bit width : Nat} (low : n < 2 ^ width) (digit : bit < 2)
    (room : width < 64) : shifted? n bit = some (2 * n + bit) := by
  have word : 2 ^ (width + 1) ≤ 2 ^ 64 := Nat.pow_le_pow_right (by decide) room
  apply word?_of_eq rfl
  change 2 * n + bit < 2 ^ 64
  omega

/-- The loop over the bits of a code, `k` of them dealt out and `more` to come. -/
def splitLoop (code bits : Nat) : Nat → Nat → Cell → Option Cell
  | 0, _, here => some here
  | more + 1, k, here => do
    let last ← word? (bits - 1)
    let place ← word? (last - k)
    let bit ← bit? code place
    if k % 2 = 0 then
      let col ← shifted? here.col bit
      splitLoop code bits more (k + 1) ⟨col, here.row⟩
    else
      let row ← shifted? here.row bit
      splitLoop code bits more (k + 1) ⟨here.col, row⟩

theorem splitLoop_step (code : Nat) (all : k + (more + 1) = bits) (low : bits < 64) :
    splitLoop code bits (more + 1) k (cellOf k (code / 2 ^ (more + 1))) =
      splitLoop code bits more (k + 1) (cellOf (k + 1) (code / 2 ^ more)) := by
  have word : bits < wordSize := Nat.lt_trans low (by decide)
  have last : word? ((bits : Int) - 1) = some (bits - 1) := word?_of_eq (by omega) (by omega)
  have place : word? (((bits - 1 : Nat) : Int) - k) = some more :=
    word?_of_eq (by omega) (by omega)
  have half : code / 2 ^ more / 2 = code / 2 ^ (more + 1) := by
    rw [Nat.div_div_eq_div_mul, pow_succ]
  have digit := Nat.mod_lt (code / 2 ^ more) Nat.two_pos
  obtain ⟨col, row⟩ := cellOf_lt k (code / 2 ^ (more + 1))
  rw [cellOf_succ, half, splitLoop]
  simp only [last, place, bit?_of_lt code (by omega : more < 64), Option.bind_eq_bind,
    Option.bind_some]
  split
  · rw [shifted?_of_lt col digit (by omega), Option.bind_some]
  · rw [shifted?_of_lt row digit (by omega), Option.bind_some]

theorem splitLoop_eq (code : Nat) (all : k + more = bits) (low : bits < 64) :
    splitLoop code bits more k (cellOf k (code / 2 ^ more)) = some (cellOf bits code) := by
  induction more generalizing k with
  | zero =>
    cases all
    rw [pow_zero, Nat.div_one]
    rfl
  | succ more ih =>
    rw [splitLoop_step code all low]
    exact ih (by omega)

/-- The number whose turn it is behind `k` bits, and the number of its bits. -/
def axis (bits : Nat) (there : Cell) (k : Nat) : Nat × Nat :=
  if k % 2 = 0 then (there.col, (bits + 1) / 2) else (there.row, bits / 2)

/-- The loop over the bits of a cell, `k` of them shifted into the code and `more` to come. -/
def joinLoop (bits : Nat) (there : Cell) : Nat → Nat → Nat → Option Nat
  | 0, _, code => some code
  | more + 1, k, code => do
    let last ← word? ((axis bits there k).2 - 1)
    let place ← word? (last - (k / 2 : Nat))
    let bit ← bit? (axis bits there k).1 place
    let code ← shifted? code bit
    joinLoop bits there more (k + 1) code

theorem axis_width (there : Cell) (more : k < bits) :
    k / 2 < (axis bits there k).2 ∧ (axis bits there k).2 ≤ bits := by
  unfold axis
  split
  · constructor <;> simp only <;> omega
  · constructor <;> simp only <;> omega

/-- The code of the highest `k` bits of a cell. -/
def joined (bits : Nat) (there : Cell) (k : Nat) : Nat :=
  woven k (there.col / 2 ^ ((bits + 1) / 2 - (k + 1) / 2)) (there.row / 2 ^ (bits / 2 - k / 2))

theorem div_half {n width : Nat} (positive : 0 < width) :
    n / 2 ^ (width - 1) / 2 = n / 2 ^ width := by
  rw [Nat.div_div_eq_div_mul, ← pow_succ, Nat.sub_add_cancel positive]

theorem joined_succ (there : Cell) (more : k < bits) :
    joined bits there (k + 1) = 2 * joined bits there k +
      (axis bits there k).1 / 2 ^ ((axis bits there k).2 - 1 - k / 2) % 2 := by
  unfold joined axis
  rw [woven_low]
  rcases Nat.mod_two_eq_zero_or_one k with even | odd
  · have kept : (k + 1) / 2 = k / 2 := by omega
    have next : (bits + 1) / 2 - (k + 1 + 1) / 2 = (bits + 1) / 2 - k / 2 - 1 := by omega
    have place : (bits + 1) / 2 - 1 - k / 2 = (bits + 1) / 2 - k / 2 - 1 := by omega
    simp only [if_pos even, next, place, kept, div_half (by omega : 0 < (bits + 1) / 2 - k / 2)]
  · have kept : (k + 1 + 1) / 2 = (k + 1) / 2 := by omega
    have next : bits / 2 - (k + 1) / 2 = bits / 2 - k / 2 - 1 := by omega
    have place : bits / 2 - 1 - k / 2 = bits / 2 - k / 2 - 1 := by omega
    have turn : ¬ k % 2 = 0 := by omega
    simp only [if_neg turn, next, place, kept, div_half (by omega : 0 < bits / 2 - k / 2)]

theorem joinLoop_step (there : Cell) (all : k + (more + 1) = bits) (low : bits < 64) :
    joinLoop bits there (more + 1) k (joined bits there k) =
      joinLoop bits there more (k + 1) (joined bits there (k + 1)) := by
  have small : joined bits there k < 2 ^ k := woven_lt k _ _
  have word : bits < wordSize := Nat.lt_trans low (by decide)
  rw [joined_succ there (by omega), joinLoop]
  have turn := axis_width there (by omega : k < bits)
  -- which of the two axes it is no longer matters
  generalize axis bits there k = pair at turn ⊢
  obtain ⟨number, width⟩ := pair
  simp only at turn
  have last : word? ((width : Int) - 1) = some (width - 1) := word?_of_eq (by omega) (by omega)
  have place : word? (((width - 1 : Nat) : Int) - (k / 2 : Nat)) = some (width - 1 - k / 2) :=
    word?_of_eq (by omega) (by omega)
  have digit := Nat.mod_lt (number / 2 ^ (width - 1 - k / 2)) Nat.two_pos
  simp only [Option.bind_eq_bind]
  rw [last, Option.bind_some, place, Option.bind_some, bit?_of_lt number (by omega),
    Option.bind_some, shifted?_of_lt small digit (by omega), Option.bind_some]

theorem joinLoop_eq (there : Cell) (all : k + more = bits) (low : bits < 64) :
    joinLoop bits there more k (joined bits there k) =
      some (woven bits there.col there.row) := by
  induction more generalizing k with
  | zero =>
    cases all
    simp [joined, joinLoop]
  | succ more ih =>
    rw [joinLoop_step there all low]
    exact ih (by omega)

/-- A step in words. It fails where a number is not a word, and finds no cell past the edge. -/
def neighborWords? (precision code : Nat) (rowStep colStep : Int) : Option (Option Nat) := do
  let bits ← word? (bitsPerUnit * precision : Nat)
  let here ← splitLoop code bits bits 0 ⟨0, 0⟩
  let col ← signed? here.col
  let col ← signed? (col + colStep)
  let row ← signed? here.row
  let row ← signed? (row + rowStep)
  let cols ← signed? (2 ^ ((bits + 1) / 2) : Nat)
  let rows ← signed? (2 ^ (bits / 2) : Nat)
  if col < 0 ∨ cols ≤ col ∨ row < 0 ∨ rows ≤ row then return none
  else
    let col ← word? col
    let row ← word? row
    some <$> joinLoop bits ⟨col, row⟩ bits 0 0

theorem bits_le {precision : Nat} (low : precision ≤ maxPrecision) :
    bitsPerUnit * precision ≤ 60 :=
  Nat.mul_le_mul_left bitsPerUnit low

theorem columns_le {precision : Nat} (low : precision ≤ maxPrecision) :
    columns precision ≤ 2 ^ 30 := by
  have bits := bits_le low
  apply Nat.pow_le_pow_right Nat.two_pos
  unfold columnBits
  omega

theorem rows_le {precision : Nat} (low : precision ≤ maxPrecision) : rows precision ≤ 2 ^ 30 := by
  have bits := bits_le low
  apply Nat.pow_le_pow_right Nat.two_pos
  unfold rowBits
  omega

theorem splitLoop_cell {precision : Nat} (low : precision ≤ maxPrecision) (code : Nat) :
    splitLoop code (bitsPerUnit * precision) (bitsPerUnit * precision) 0 ⟨0, 0⟩ =
      some (cell precision code) :=
  splitLoop_eq code (Nat.zero_add _) (Nat.lt_of_le_of_lt (bits_le low) (by decide))

theorem joinLoop_code {precision : Nat} (low : precision ≤ maxPrecision) (there : Cell) :
    joinLoop (bitsPerUnit * precision) there (bitsPerUnit * precision) 0 0 =
      some (Morton.code precision there) :=
  joinLoop_eq there (Nat.zero_add _) (Nat.lt_of_le_of_lt (bits_le low) (by decide))

theorem neighborWords?_eq {precision : Nat} {rowStep colStep : Int}
    (low : precision ≤ maxPrecision) (code : Nat) (byRow : rowStep.natAbs ≤ 2 ^ 62)
    (byCol : colStep.natAbs ≤ 2 ^ 62) :
    neighborWords? precision code rowStep colStep =
      some (neighbor? precision code rowStep colStep) := by
  have cols := columns_le low
  have rows := rows_le low
  have bits : word? (bitsPerUnit * precision : Nat) = some (bitsPerUnit * precision) :=
    word?_of_eq rfl (Nat.lt_of_le_of_lt (bits_le low) (by decide))
  have wide : signed? (2 ^ ((bitsPerUnit * precision + 1) / 2) : Nat) =
      some (columns precision : Int) :=
    signed?_of_bounds (n := columns precision) (by omega) (by omega)
  have high : signed? (2 ^ (bitsPerUnit * precision / 2) : Nat) =
      some (Morton.rows precision : Int) :=
    signed?_of_bounds (n := Morton.rows precision) (by omega) (by omega)
  obtain ⟨inCols, inRows⟩ := cell_lt precision code
  unfold neighborWords? neighbor?
  simp only [Option.bind_eq_bind]
  rw [bits, Option.bind_some, splitLoop_cell low, Option.bind_some,
    signed?_of_bounds (by omega) (by omega), Option.bind_some,
    signed?_of_bounds (by omega) (by omega), Option.bind_some,
    signed?_of_bounds (by omega) (by omega), Option.bind_some,
    signed?_of_bounds (by omega) (by omega), Option.bind_some,
    wide, Option.bind_some, high, Option.bind_some]
  generalize cell precision code = here at inCols inRows ⊢
  by_cases inside : 0 ≤ here.col + colStep ∧ here.col + colStep < columns precision ∧
      0 ≤ here.row + rowStep ∧ here.row + rowStep < Morton.rows precision
  · obtain ⟨west, east, south, north⟩ := inside
    have col : word? (here.col + colStep) = some (here.col + colStep).toNat :=
      word?_of_eq (by omega) (by unfold wordSize; omega)
    have row : word? (here.row + rowStep) = some (here.row + rowStep).toNat :=
      word?_of_eq (by omega) (by unfold wordSize; omega)
    rw [if_neg (by omega), if_pos ⟨west, east, south, north⟩, col, Option.bind_some, row,
      Option.bind_some, joinLoop_code low]
    rfl
  · rw [if_pos (by omega), if_neg inside]
    rfl

end Gazetteer.Morton
