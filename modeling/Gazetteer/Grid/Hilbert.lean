import Gazetteer.Grid.Cell
import Gazetteer.Settings

/-! The Hilbert curve on a grid of `n` by `n` cells. The grid is cut into quadrants, and each
quadrant again, down to single cells; every cut gives two bits of the place along the curve and
turns what is left of the cell. Cells that follow one another on the curve are neighbours, if `n`
is a power of two; for any other `n` the cuts are made all the same. -/
namespace Gazetteer.Hilbert

/-- The other side of `0 .. s - 1`, in words that wrap below zero. Bits above those of `s` become
anything and are not looked at afterwards, if `s` is a power of two. -/
def reflect (s value : Nat) : Nat := (wordSize + (s - 1) - value) % wordSize

/-- A cell turned with the quadrant that it lies in: the lower quadrants are turned, the lower
right one the other way. -/
def turn (s right upper : Nat) (c : Cell) : Cell :=
  if upper = 0 then
    if right = 1 then ⟨reflect s c.row, reflect s c.col⟩ else ⟨c.row, c.col⟩
  else c

def meets (a b : Nat) : Nat := if a &&& b = 0 then 0 else 1

def along (s : Nat) (c : Cell) : Nat :=
  if s = 0 then 0
  else
    let right := meets c.col s
    let upper := meets c.row s
    s * s * ((3 * right) ^^^ upper) + along (s / 2) (turn s right upper c)
termination_by s
decreasing_by omega

def index (n : Nat) (c : Cell) : Nat := along (n / 2) c

/-- The cell reached from one in the lower left square of width `s`, by the cuts that are left. -/
def cellFrom (n s rest : Nat) (c : Cell) : Cell :=
  if 0 < s ∧ s < n then
    let right := rest / 2 % 2
    let upper := (rest ^^^ right) % 2
    let turned := turn s right upper c
    cellFrom n (2 * s) (rest / 4) ⟨turned.col + s * right, turned.row + s * upper⟩
  else c
termination_by n - s
decreasing_by omega

def cell (n place : Nat) : Cell := cellFrom n 1 place ⟨0, 0⟩

/-- A value of the axis as a number of cells: its part of the way from `low` to `high`, held
within the two, times the greatest number of a cell, cut to a whole. What is no number is zero. -/
def quantize (value low high : Float) (order : Nat) : Nat :=
  let ratio := (value - low) / (high - low)
  let clamped := if ratio < 0.0 then 0.0 else if 1.0 < ratio then 1.0 else ratio
  (clamped * (Nat.pow 2 order - 1).toUInt64.toFloat).toUInt64.toNat

def cellOf (settings : HilbertSettings) (place : Coordinate) : Cell where
  col := quantize place.lng settings.region.minLng.toFloat settings.region.maxLng.toFloat
    settings.order.toNat
  row := quantize place.lat settings.region.minLat.toFloat settings.region.maxLat.toFloat
    settings.order.toNat

theorem along_zero (c : Cell) : along 0 c = 0 := by
  rw [along, if_pos rfl]

theorem index_one (c : Cell) : index 1 c = 0 := along_zero c

end Gazetteer.Hilbert
