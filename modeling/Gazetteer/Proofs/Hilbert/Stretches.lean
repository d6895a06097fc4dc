import Gazetteer.Proofs.Hilbert.Squares
import Mathlib.Data.List.Basic
import Mathlib.Data.Set.Function

/-! Squares of cells and stretches of the Hilbert curve, one for one. The cells of a square have the
values of one stretch, each value once; and the squares of one width, by ascending values, fill the
curve from its first value to its last. -/
namespace Gazetteer

structure Cell.InSquare (c corner : Cell) (width : Nat) : Prop where
  fromCol : corner.col ≤ c.col
  toCol : c.col < corner.col + width
  fromRow : corner.row ≤ c.row
  toRow : c.row < corner.row + width

namespace Hilbert

variable {k j m value : Nat} {c corner : Cell}

/-- The lower left corner of a square of width `2 ^ j` that the grid of width `2 ^ k` is cut into. -/
structure Corner (k j : Nat) (corner : Cell) : Prop where
  within : corner.Within (2 ^ k)
  col : 2 ^ j ∣ corner.col
  row : 2 ^ j ∣ corner.row

theorem end_le {start : Nat} (level : j ≤ k) (divides : 2 ^ j ∣ start) (inside : start < 2 ^ k) :
    start + 2 ^ j ≤ 2 ^ k := by
  obtain ⟨place, rfl⟩ := divides
  obtain ⟨more, rfl⟩ := Nat.exists_eq_add_of_le level
  rw [pow_add] at inside ⊢
  have squares : place + 1 ≤ 2 ^ more := Nat.lt_of_mul_lt_mul_left inside
  have total := Nat.mul_le_mul_left (2 ^ j) squares
  rw [Nat.mul_add, Nat.mul_one] at total
  exact total

theorem Corner.bounds (h : Corner k j corner) (level : j ≤ k) :
    corner.col + 2 ^ j ≤ 2 ^ k ∧ corner.row + 2 ^ j ≤ 2 ^ k :=
  ⟨end_le level h.col h.within.col, end_le level h.row h.within.row⟩

theorem Corner.within_of_inSquare (h : Corner k j corner) (level : j ≤ k)
    (inside : c.InSquare corner (2 ^ j)) : c.Within (2 ^ k) :=
  ⟨Nat.lt_of_lt_of_le inside.toCol (h.bounds level).1,
    Nat.lt_of_lt_of_le inside.toRow (h.bounds level).2⟩

theorem div_eq_iff_between {width start : Nat} (positive : 0 < width) (divides : width ∣ start) :
    value / width = start / width ↔ start ≤ value ∧ value < start + width := by
  obtain ⟨place, rfl⟩ := divides
  rw [Nat.mul_div_cancel_left _ positive, Nat.div_eq_iff positive, Nat.mul_comm]
  omega

theorem Corner.inSquare_iff_high (h : Corner k j corner) (c : Cell) :
    c.InSquare corner (2 ^ j) ↔ c.high (2 ^ j) = corner.high (2 ^ j) := by
  have positive := Nat.two_pow_pos j
  simp only [Cell.high, Cell.mk.injEq, div_eq_iff_between positive h.col,
    div_eq_iff_between positive h.row]
  constructor
  · rintro ⟨fromCol, toCol, fromRow, toRow⟩
    exact ⟨⟨fromCol, toCol⟩, fromRow, toRow⟩
  · rintro ⟨⟨fromCol, toCol⟩, fromRow, toRow⟩
    exact ⟨fromCol, toCol, fromRow, toRow⟩

theorem Corner.inSquare_iff_div (h : Corner k j corner) (fits : k ≤ 64) (level : j ≤ k)
    (within : c.Within (2 ^ k)) :
    c.InSquare corner (2 ^ j) ↔ index (2 ^ k) c / 4 ^ j = index (2 ^ k) corner / 4 ^ j := by
  obtain ⟨m, rfl⟩ := Nat.exists_eq_add_of_le' level
  rw [h.inSquare_iff_high]
  exact high_eq_iff fits within h.within

theorem lt_of_div_eq (level : j ≤ k) (stretch : value / 4 ^ j = index (2 ^ k) corner / 4 ^ j) :
    value < 4 ^ k := by
  have positive : 0 < 4 ^ j := Nat.pow_pos (by decide)
  obtain ⟨m, rfl⟩ := Nat.exists_eq_add_of_le' level
  have last := index_lt (m + j) corner
  rw [pow_add 4 m j, ← Nat.div_lt_iff_lt_mul positive] at last ⊢
  rw [stretch]
  exact last

def start (k j : Nat) (corner : Cell) : Nat := index (2 ^ k) corner / 4 ^ j * 4 ^ j

theorem mem_stretch_iff :
    value ∈ Set.Icc (start k j corner) (start k j corner + 4 ^ j - 1) ↔
      value / 4 ^ j = index (2 ^ k) corner / 4 ^ j := by
  have positive : 0 < 4 ^ j := Nat.pow_pos (by decide)
  rw [Set.mem_Icc, start, Nat.div_eq_iff positive]

theorem Corner.bijOn (h : Corner k j corner) (fits : k ≤ 64) (level : j ≤ k) :
    Set.BijOn (index (2 ^ k)) {c | c.InSquare corner (2 ^ j)}
      (Set.Icc (start k j corner) (start k j corner + 4 ^ j - 1)) := by
  have inverse : Set.InvOn (cell (2 ^ k)) (index (2 ^ k)) {c | c.InSquare corner (2 ^ j)}
      (Set.Icc (start k j corner) (start k j corner + 4 ^ j - 1)) := by
    constructor
    · intro c inside
      exact cell_index fits (h.within_of_inSquare level inside)
    · intro d stretch
      exact index_cell fits (lt_of_div_eq level (mem_stretch_iff.mp stretch))
  apply inverse.bijOn
  · intro c inside
    apply mem_stretch_iff.mpr
    exact (h.inSquare_iff_div fits level (h.within_of_inSquare level inside)).mp inside
  · intro d stretch
    have same := mem_stretch_iff.mp stretch
    apply (h.inSquare_iff_div fits level (cell_within fits d)).mpr
    rw [index_cell fits (lt_of_div_eq level same)]
    exact same

/-- The corner of the square that comes at a place in the order of the curve. -/
def cornerAt (m j place : Nat) : Cell :=
  ⟨2 ^ j * (cell (2 ^ m) place).col, 2 ^ j * (cell (2 ^ m) place).row⟩

theorem high_cornerAt (m j place : Nat) : (cornerAt m j place).high (2 ^ j) = cell (2 ^ m) place := by
  have positive := Nat.two_pow_pos j
  simp only [cornerAt, Cell.high, Nat.mul_div_cancel_left _ positive]

theorem corner_cornerAt (fits : m ≤ 64) (place : Nat) : Corner (m + j) j (cornerAt m j place) := by
  have within := cell_within fits place
  have width : 2 ^ (m + j) = 2 ^ j * 2 ^ m := by rw [Nat.add_comm, pow_add]
  refine ⟨⟨?_, ?_⟩, Nat.dvd_mul_right _ _, Nat.dvd_mul_right _ _⟩
  · rw [width]
    exact Nat.mul_lt_mul_of_pos_left within.col (Nat.two_pow_pos j)
  · rw [width]
    exact Nat.mul_lt_mul_of_pos_left within.row (Nat.two_pow_pos j)

theorem start_cornerAt (fits : m + j ≤ 64) {place : Nat} (inside : place < 4 ^ m) :
    start (m + j) j (cornerAt m j place) = place * 4 ^ j := by
  have few : m ≤ 64 := by omega
  rw [start, index_div fits (corner_cornerAt few place).within, high_cornerAt,
    index_cell few inside]

theorem Corner.exists_place (h : Corner (m + j) j corner) (fits : m ≤ 64) :
    ∃ place < 4 ^ m, cornerAt m j place = corner := by
  have width : 2 ^ (m + j) = 2 ^ j * 2 ^ m := by rw [Nat.add_comm, pow_add]
  have squares : (corner.high (2 ^ j)).Within (2 ^ m) := (width ▸ h.within).high
  refine ⟨index (2 ^ m) (corner.high (2 ^ j)), index_lt m _, ?_⟩
  rw [cornerAt, cell_index fits squares]
  simp only [Cell.high, Nat.mul_div_cancel' h.col, Nat.mul_div_cancel' h.row]

theorem flatMap_stretches (count length : Nat) :
    ((List.range count).flatMap fun place => List.range' (place * length) length) =
      List.range (count * length) := by
  induction count with
  | zero => simp
  | succ count ih =>
    rw [List.range_succ, List.flatMap_append, ih, Nat.succ_mul, List.range_add]
    simp [List.range'_eq_map_range]

theorem exists_corners (fits : m + j ≤ 64) :
    ∃ corners : List Cell, (∀ corner, corner ∈ corners ↔ Corner (m + j) j corner) ∧
      (corners.Pairwise fun a b => start (m + j) j a < start (m + j) j b) ∧
      (corners.flatMap fun corner => List.range' (start (m + j) j corner) (4 ^ j)) =
        List.range (4 ^ m * 4 ^ j) := by
  have few : m ≤ 64 := by omega
  have positive : 0 < 4 ^ j := Nat.pow_pos (by decide)
  refine ⟨(List.range (4 ^ m)).map (cornerAt m j), ?_, ?_, ?_⟩
  · intro corner
    rw [List.mem_map]
    constructor
    · rintro ⟨place, -, rfl⟩
      exact corner_cornerAt few place
    · intro h
      obtain ⟨place, inside, here⟩ := h.exists_place few
      exact ⟨place, List.mem_range.mpr inside, here⟩
  · rw [List.pairwise_map]
    apply List.pairwise_lt_range.imp_of_mem
    intro place next first second ascending
    rw [start_cornerAt fits (List.mem_range.mp first), start_cornerAt fits (List.mem_range.mp second)]
    exact Nat.mul_lt_mul_of_pos_right ascending positive
  · rw [← flatMap_stretches, List.flatMap_map]
    apply List.flatMap_congr
    intro place inside
    rw [start_cornerAt fits (List.mem_range.mp inside)]

/-- The curve goes through the cells of each square without a step outside, and through the squares
of one width one after the other. -/
theorem squares_tile_curve (order : k ≤ 31) (level : j ≤ k) :
    (∀ corner, Corner k j corner → Set.BijOn (index (2 ^ k)) {c | c.InSquare corner (2 ^ j)}
      (Set.Icc (start k j corner) (start k j corner + 4 ^ j - 1))) ∧
    ∃ corners : List Cell, (∀ corner, corner ∈ corners ↔ Corner k j corner) ∧
      (corners.Pairwise fun a b => start k j a < start k j b) ∧
      (corners.flatMap fun corner => List.range' (start k j corner) (4 ^ j)) =
        List.range (2 ^ k * 2 ^ k) := by
  have fits : k ≤ 64 := by omega
  constructor
  · intro corner h
    exact h.bijOn fits level
  · have area : 2 ^ k * 2 ^ k = 4 ^ k := by rw [← Nat.mul_pow]
    obtain ⟨m, rfl⟩ := Nat.exists_eq_add_of_le' level
    rw [area, pow_add]
    exact exists_corners fits

/-- The largest grid in sixteen squares: one at the upper side is the seventh along the curve. -/
theorem squares_tile_curve_largest :
    Corner 31 29 ⟨2 ^ 29, 3 * 2 ^ 29⟩ ∧
      Set.BijOn (index (2 ^ 31)) {c | c.InSquare ⟨2 ^ 29, 3 * 2 ^ 29⟩ (2 ^ 29)}
        (Set.Icc (6 * 4 ^ 29) (7 * 4 ^ 29 - 1)) := by
  have h : Corner 31 29 ⟨2 ^ 29, 3 * 2 ^ 29⟩ := ⟨⟨by decide, by decide⟩, by decide, by decide⟩
  have tiled := squares_tile_curve (k := 31) (j := 29) (by decide) (by decide)
  have first : start 31 29 ⟨2 ^ 29, 3 * 2 ^ 29⟩ = 6 * 4 ^ 29 := by decide +kernel
  have square := tiled.1 _ h
  rw [first] at square
  exact ⟨h, square⟩

end Hilbert

end Gazetteer
