import Gazetteer.Grid.Geohash
import Gazetteer.Placement.FirstSeen
import Gazetteer.Placement.Radius
import Gazetteer.Settings

/-! Pages by geohash: the Morton code of a cell, divided by the number of pages, leaves the page.
Cells side by side on the ground may be far apart along the code, and the remainder scatters them
further, so that a search reads many pages that have nothing to do with one another. -/
namespace Gazetteer

structure ZOrder where
  settings : GeohashSettings
  accepted : settings.fault? = none

namespace ZOrder

def ofSettings (settings : GeohashSettings) : Except Fault ZOrder :=
  match h : settings.fault? with
  | none => .ok ⟨settings, h⟩
  | some fault => .error (.invalidSettings fault)

def precision (z : ZOrder) : Nat := z.settings.precision.toNat

def maxPages (z : ZOrder) : Nat := z.settings.maxPages.toNat

def code (z : ZOrder) (place : Coordinate) : Nat := Geohash.mortonCode place z.precision

def pageOfCode (z : ZOrder) (code : Nat) : Nat := code % z.maxPages

def page (z : ZOrder) (place : Coordinate) : Nat := z.pageOfCode (z.code place)

def maxSteps : Nat := Nat.pow 2 63 - 1

/-- How far a search goes from its own cell: over the radius and one cell further. -/
def steps (z : ZOrder) (radiusKm : Float) : Nat :=
  min (Radius.cells radiusKm z.settings.cellSizeKm maxSteps + 1) maxSteps

/-- Cells beside one another in a row, from west to east, until all pages are seen. -/
def scanRow (z : ZOrder) (row col : Nat) : Nat → FirstSeen → FirstSeen
  | 0, seen => seen
  | more + 1, seen =>
    if seen.isFull z.maxPages then seen
    else
      let page := z.pageOfCode (Morton.code z.precision ⟨col, row⟩)
      z.scanRow row (col + 1) more (seen.visit page)

def scanRows (z : ZOrder) (col width row : Nat) : Nat → FirstSeen → FirstSeen
  | 0, seen => seen
  | more + 1, seen =>
    if seen.isFull z.maxPages then seen
    else z.scanRows col width (row + 1) more (z.scanRow row col width seen)

/-- The first place of an axis that is at most `steps` before `place`, and how many places there
are from it to the last that is at most `steps` behind it. -/
def reach (place length steps : Nat) : Nat × Nat :=
  let before := min place steps
  let after := min (length - 1 - place) steps
  (place - before, before + after + 1)

/-- The pages of the cells at most `steps` rows and columns from one, each where it first turns
up. -/
def pagesAround (z : ZOrder) (code steps : Nat) : List Nat :=
  let cell := Morton.cell z.precision code
  let cols := reach cell.col (Morton.columns z.precision) steps
  let rows := reach cell.row (Morton.rows z.precision) steps
  (z.scanRows cols.1 cols.2 rows.1 rows.2 {}).toList

def pages (z : ZOrder) (place : Coordinate) (radiusKm : Float) : Except Fault (List Nat) := do
  let radius ← Radius.checked radiusKm
  return z.pagesAround (z.code place) (z.steps radius)

theorem maxPages_pos (z : ZOrder) : 0 < z.maxPages :=
  ((GeohashSettings.fault?_eq_none_iff _).mp z.accepted).2.1.1

theorem pageOfCode_lt (z : ZOrder) (code : Nat) : z.pageOfCode code < z.maxPages :=
  Nat.mod_lt _ z.maxPages_pos

end ZOrder

end Gazetteer
