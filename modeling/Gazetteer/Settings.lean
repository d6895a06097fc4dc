import Gazetteer.Fault

/-! What the store can be asked for, with the values that hold when nothing is asked. Settings
are stored as they stand, so words and doubles are kept as such; whether they make sense is
judged when a store is built on them. -/
namespace Gazetteer

/-- How many cached pages are reported as too many. Nothing is ever evicted. -/
structure BufferSettings where
  capacityHint : Option UInt64 := none
  deriving DecidableEq, Repr

structure KeyedSettings where
  maxPages : UInt64 := 1000
  deriving DecidableEq, Repr

/-- Cells of `precision` characters, spread over `maxPages` pages. A radius is turned into cells
by `cellSizeKm`, the length of one edge. -/
structure GeohashSettings where
  precision : UInt64 := 6
  maxPages : UInt64 := 10000
  cellSizeKm : Binary64 := .ofFloat 1.2
  deriving DecidableEq, Repr

structure Region where
  minLat : Binary64 := .ofFloat 33.0
  maxLat : Binary64 := .ofFloat 38.5
  minLng : Binary64 := .ofFloat 126.0
  maxLng : Binary64 := .ofFloat 129.5
  deriving DecidableEq, Repr

/-- A grid of `2 ^ order` cells along each side of the region, with the length of a cell along
each axis. The lengths belong to the region and are of no use for another. -/
structure HilbertSettings where
  order : UInt32 := 15
  maxPages : UInt64 := 10000
  region : Region := {}
  kmPerGridLat : Binary64 := .ofFloat 0.0185
  kmPerGridLng : Binary64 := .ofFloat 0.0095
  deriving DecidableEq, Repr

inductive PlacementSettings where
  | geohash (settings : GeohashSettings)
  | hilbert (settings : HilbertSettings)
  deriving DecidableEq, Repr

def Binary64.isPositive (x : Binary64) : Bool := 0.0 < x.toFloat

/-- There is a page, and every page can be linked. -/
def pagesFault? (maxPages : Nat) : Option SettingsFault :=
  if maxPages = 0 then some .noPages
  else if linkLimit ≤ maxPages then some (.tooManyPages maxPages)
  else none

def KeyedSettings.fault? (s : KeyedSettings) : Option SettingsFault :=
  pagesFault? s.maxPages.toNat

namespace GeohashSettings

def precisionFault? (s : GeohashSettings) : Option SettingsFault :=
  if s.precision.toNat = 0 ∨ maxPrecision < s.precision.toNat then
    some (.precisionOutOfRange s.precision.toNat)
  else none

def fault? (s : GeohashSettings) : Option SettingsFault :=
  s.precisionFault? <|> pagesFault? s.maxPages.toNat <|>
    if s.cellSizeKm.isPositive then none else some .cellSizeNotPositive

end GeohashSettings

/-- NaN bounds leave the region empty. -/
def Region.isEmpty (r : Region) : Bool :=
  ¬ (r.minLat.toFloat < r.maxLat.toFloat ∧ r.minLng.toFloat < r.maxLng.toFloat)

namespace HilbertSettings

def gridSize (s : HilbertSettings) : Nat := Nat.pow 2 s.order.toNat

def orderFault? (s : HilbertSettings) : Option SettingsFault :=
  if s.order.toNat = 0 ∨ maxOrder < s.order.toNat then
    some (.orderOutOfRange s.order.toNat)
  else none

/-- Every page needs a value of the curve. -/
def lengthFault? (s : HilbertSettings) : Option SettingsFault :=
  if s.gridSize * s.gridSize < s.maxPages.toNat then
    some (.curveTooShort s.maxPages.toNat (s.gridSize * s.gridSize))
  else none

def fault? (s : HilbertSettings) : Option SettingsFault :=
  s.orderFault? <|> pagesFault? s.maxPages.toNat <|> s.lengthFault? <|>
    (if s.region.isEmpty then some .emptyRegion else none) <|>
    if s.kmPerGridLat.isPositive ∧ s.kmPerGridLng.isPositive then none
    else some .gridUnitNotPositive

end HilbertSettings

theorem pagesFault?_eq_none_iff (maxPages : Nat) :
    pagesFault? maxPages = none ↔ 0 < maxPages ∧ maxPages < linkLimit := by
  unfold pagesFault?
  split
  · simp; omega
  · split
    · simp; omega
    · simp; omega

theorem GeohashSettings.fault?_eq_none_iff (s : GeohashSettings) :
    s.fault? = none ↔
      (1 ≤ s.precision.toNat ∧ s.precision.toNat ≤ maxPrecision) ∧
      (0 < s.maxPages.toNat ∧ s.maxPages.toNat < linkLimit) ∧
      s.cellSizeKm.isPositive = true := by
  have range : s.precisionFault? = none ↔
      1 ≤ s.precision.toNat ∧ s.precision.toNat ≤ maxPrecision := by
    simp [precisionFault?]
    omega
  simp [fault?, range, pagesFault?_eq_none_iff]

theorem HilbertSettings.fault?_eq_none_iff (s : HilbertSettings) :
    s.fault? = none ↔
      (1 ≤ s.order.toNat ∧ s.order.toNat ≤ maxOrder) ∧
      (0 < s.maxPages.toNat ∧ s.maxPages.toNat < linkLimit) ∧
      s.maxPages.toNat ≤ s.gridSize * s.gridSize ∧ s.region.isEmpty = false ∧
      s.kmPerGridLat.isPositive = true ∧ s.kmPerGridLng.isPositive = true := by
  have range : s.orderFault? = none ↔
      1 ≤ s.order.toNat ∧ s.order.toNat ≤ maxOrder := by
    simp [orderFault?]
    omega
  have length : s.lengthFault? = none ↔ s.maxPages.toNat ≤ s.gridSize * s.gridSize := by
    simp [lengthFault?]
  simp [fault?, range, length, pagesFault?_eq_none_iff]

end Gazetteer
