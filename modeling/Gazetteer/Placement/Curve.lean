import Gazetteer.Grid.Hilbert
import Gazetteer.PageList
import Gazetteer.Placement.Radius

/-! Pages along the Hilbert curve: the curve is cut into as many equal pieces as there are pages,
and the last page takes what is left over. Neighbours on the curve share a page or have pages
that follow one another.

The cells of a search form a rectangle, and a rectangle falls into many stretches of the curve. A
square of a width that is a power of two, with its corner at multiples of the width, is one stretch;
so the rectangle is taken apart into such squares, and of each the pages from its first to its last
value are taken. A square with all its cells on one page needs no taking apart, even when the
rectangle has only some of them. -/
namespace Gazetteer

structure Curve where
  settings : HilbertSettings
  accepted : settings.fault? = none

/-- A rectangle of cells, its sides included. -/
structure CellRect where
  firstCol : Nat
  lastCol : Nat
  firstRow : Nat
  lastRow : Nat

namespace CellRect

def around (c : Cell) (cols rows n : Nat) : CellRect where
  firstCol := c.col - cols
  lastCol := min (c.col + cols) (n - 1)
  firstRow := c.row - rows
  lastRow := min (c.row + rows) (n - 1)

def meets (r : CellRect) (c : Cell) (width : Nat) : Bool :=
  c.col ≤ r.lastCol ∧ r.firstCol < c.col + width ∧ c.row ≤ r.lastRow ∧ r.firstRow < c.row + width

def covers (r : CellRect) (c : Cell) (width : Nat) : Bool :=
  r.firstCol ≤ c.col ∧ c.col + width ≤ r.lastCol + 1 ∧
    r.firstRow ≤ c.row ∧ c.row + width ≤ r.lastRow + 1

end CellRect

namespace Curve

def ofSettings (settings : HilbertSettings) : Except Fault Curve :=
  match h : settings.fault? with
  | none => .ok ⟨settings, h⟩
  | some fault => .error (.invalidSettings fault)

def order (c : Curve) : Nat := c.settings.order.toNat

def gridSize (c : Curve) : Nat := c.settings.gridSize

def maxPages (c : Curve) : Nat := c.settings.maxPages.toNat

/-- Values of the curve on each page but the last. -/
def rangePerPage (c : Curve) : Nat := c.gridSize * c.gridSize / c.maxPages

def pageOfValue (c : Curve) (value : Nat) : Nat := min (value / c.rangePerPage) (c.maxPages - 1)

def cellOf (c : Curve) (place : Coordinate) : Cell := Hilbert.cellOf c.settings place

def value (c : Curve) (place : Coordinate) : Nat := Hilbert.index c.gridSize (c.cellOf place)

def page (c : Curve) (place : Coordinate) : Nat := c.pageOfValue (c.value place)

/-- First and last page of the stretch of the curve that fills a square. -/
def squareRun (c : Curve) (corner : Cell) (width : Nat) : Nat × Nat :=
  let area := width * width
  let first := Hilbert.index c.gridSize corner / area * area
  (c.pageOfValue first, c.pageOfValue (first + area - 1))

/-- The runs of pages of the cells that a rectangle shares with a square of width `2 ^ k`. -/
def runs (c : Curve) (rect : CellRect) : Nat → Cell → List (Nat × Nat)
  | 0, corner => if rect.meets corner 1 then [c.squareRun corner 1] else []
  | k + 1, corner =>
    if rect.meets corner (Nat.pow 2 (k + 1)) then
      let run := c.squareRun corner (Nat.pow 2 (k + 1))
      if run.1 = run.2 ∨ rect.covers corner (Nat.pow 2 (k + 1)) then [run]
      else
        let half := Nat.pow 2 k
        c.runs rect k corner ++ c.runs rect k ⟨corner.col, corner.row + half⟩ ++
          c.runs rect k ⟨corner.col + half, corner.row⟩ ++
          c.runs rect k ⟨corner.col + half, corner.row + half⟩
    else []

def pagesIn (c : Curve) (rect : CellRect) : List Nat :=
  PageList.union (c.runs rect c.order ⟨0, 0⟩)

def maxSteps : Nat := wordSize - 1

def rectAround (c : Curve) (place : Coordinate) (radiusKm : Float) : CellRect :=
  .around (c.cellOf place) (Radius.cells radiusKm c.settings.kmPerGridLng maxSteps)
    (Radius.cells radiusKm c.settings.kmPerGridLat maxSteps) c.gridSize

def pages (c : Curve) (place : Coordinate) (radiusKm : Float) : Except Fault (List Nat) := do
  let radius ← Radius.checked radiusKm
  return c.pagesIn (c.rectAround place radius)

theorem maxPages_pos (c : Curve) : 0 < c.maxPages :=
  ((HilbertSettings.fault?_eq_none_iff _).mp c.accepted).2.1.1

theorem pageOfValue_lt (c : Curve) (value : Nat) : c.pageOfValue value < c.maxPages := by
  have positive := c.maxPages_pos
  unfold pageOfValue
  omega

end Curve

end Gazetteer
