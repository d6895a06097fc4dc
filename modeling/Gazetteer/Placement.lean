import Gazetteer.Placement.Curve
import Gazetteer.Placement.ZOrder

/-! How coordinates are placed on pages. Both ways lay a grid over the ground, bring its cells into
one order and cut that order into pages; they differ in how well neighbours stay together. -/
namespace Gazetteer

inductive Placement where
  | zOrder (z : ZOrder)
  | curve (c : Curve)

namespace Placement

def ofSettings : PlacementSettings → Except Fault Placement
  | .geohash settings => do return .zOrder (← ZOrder.ofSettings settings)
  | .hilbert settings => do return .curve (← Curve.ofSettings settings)

def name : Placement → String
  | .zOrder _ => "geohash"
  | .curve _ => "hilbert"

def maxPages : Placement → Nat
  | .zOrder z => z.maxPages
  | .curve c => c.maxPages

def page : Placement → Coordinate → Nat
  | .zOrder z, place => z.page place
  | .curve c, place => c.page place

/-- The pages to look at for the places around one. Some may lie outside the circle. -/
def pages : Placement → Coordinate → Float → Except Fault (List Nat)
  | .zOrder z, place, radiusKm => z.pages place radiusKm
  | .curve c, place, radiusKm => c.pages place radiusKm

end Placement

end Gazetteer
