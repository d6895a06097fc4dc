import Gazetteer.Proofs.Placement.Contract
import Gazetteer.Proofs.Spatial.Search

/-! Places due north or south of one another, with the default settings. The rows of the curve are as
high as its settings say, so a search finds whatever the radius reaches. A row of geohashes is about
half as high as the cell size says, and a search finds about half as far. -/
namespace Gazetteer

open Rounding

namespace Rounding

variable {x y a : ℚ}

theorem floor_le_floor_add_ceil (within : x ≤ y + a) : ⌊x⌋ ≤ ⌊y⌋ + ⌈a⌉₊ := by
  have from_floor := Int.lt_floor_add_one y
  have to_ceil := Nat.le_ceil a
  rw [← Int.lt_add_one_iff, Int.floor_lt]
  push_cast
  linarith

theorem natFloor_le_natFloor_add_ceil (within : x ≤ y + a) : ⌊x⌋₊ ≤ ⌊y⌋₊ + ⌈a⌉₊ := by
  have floors := floor_le_floor_add_ceil within
  rw [← Int.floor_toNat, ← Int.floor_toNat]
  omega

end Rounding

/-- The numbers written in the default settings: the ends of the region's latitudes, the height of a
row of the curve and the length of a geohash cell. -/
theorem amounts_settings : Amounts 33.0 33 ∧ Amounts 38.5 (77 / 2) ∧
    Amounts 0.0185 (5332261958806667 / 2 ^ 58) ∧ Amounts 1.2 (5404319552844595 / 2 ^ 52) := by
  refine ⟨.literal (m := 33 * 2 ^ 47) (e := -47) ?_ ?_ (by norm_num),
    .literal (m := 77 * 2 ^ 46) (e := -47) ?_ ?_ (by norm_num),
    .literal (m := 5332261958806667) (e := -58) ?_ ?_ (by norm_num),
    .literal (m := 5404319552844595) (e := -52) ?_ ?_ (by norm_num)⟩
  all_goals decide +kernel

namespace ZOrder

def rowOf (z : ZOrder) (place : Coordinate) : ℕ :=
  Geohash.part place.lat ⟨-90.0, 90.0⟩ (Morton.rowBits z.precision)

theorem rowOf_lt (z : ZOrder) (place : Coordinate) : z.rowOf place < Morton.rows z.precision :=
  Geohash.part_lt _ _ _

theorem walked_of_rows (z : ZOrder) (place other : Coordinate) (same : other.lng = place.lng)
    {steps : ℕ} (south : z.rowOf place ≤ z.rowOf other + steps)
    (north : z.rowOf other ≤ z.rowOf place + steps) :
    z.Walked (Morton.cell z.precision (z.code place)) steps (z.page other) := by
  have most : z.precision ≤ maxPrecision :=
    ((GeohashSettings.fault?_eq_none_iff _).mp z.accepted).1.2
  have inCols := Geohash.part_lt other.lng ⟨-180.0, 180.0⟩ (Morton.columnBits z.precision)
  rw [code, Geohash.cell_mortonCode place most, ← same]
  -- the column is that of the centre itself
  refine ⟨_, z.rowOf other, Nat.sub_le _ _,
    le_min (Nat.le_add_right _ _) (Nat.le_sub_one_of_lt inCols),
    Nat.sub_le_iff_le_add.mpr south, le_min north (Nat.le_sub_one_of_lt (z.rowOf_lt other)), ?_⟩
  rw [page, code, Geohash.mortonCode_eq_code other most]
  rfl

variable {z : ZOrder} (place other : Coordinate) {radius : Float} {y y' x : ℚ}

/-- A row is half as high as a cell is said to be long, and a search goes one row further than the
radius asks for. -/
theorem rowOf_le (default : z.settings = {}) (at_place : Holds place.lat y)
    (at_other : Holds other.lat y') (reach : Amounts radius x)
    (near : 1112 * (y - y') ≤ 5 * x + 6) : z.rowOf place ≤ z.rowOf other + z.steps radius := by
  have bits : Morton.rowBits z.precision = 15 := by
    unfold precision
    rw [default]
    rfl
  have word : maxSteps ≤ 2 ^ 64 := by decide
  obtain ⟨-, -, -, cellSize⟩ := amounts_settings
  have cells := Radius.cells_eq reach cellSize.stored (by norm_num) word
  have length : 0 ≤ x / (5404319552844595 / 2 ^ 52) := div_nonneg reach.nonneg (by norm_num)
  have rounded := (nearest_bounds length).1
  have apart : (y + 90) * 2 ^ 15 / 180 ≤
      (y' + 90) * 2 ^ 15 / 180 + (nearest (x / (5404319552844595 / 2 ^ 52)) + 1) := by
    have nonneg := reach.nonneg
    linarith
  have floors := floor_le_floor_add_ceil apart
  rw [Nat.ceil_add_one (nearest_nonneg _)] at floors
  have row := Geohash.part_latitude (by norm_num : 15 ≤ 30) at_place
  have row' := Geohash.part_latitude (by norm_num : 15 ≤ 30) at_other
  have many : 2 ^ 15 ≤ maxSteps := by decide
  unfold rowOf steps
  rw [bits, default, cells]
  generalize maxSteps = limit at many ⊢
  generalize ⌊(y + 90) * 2 ^ 15 / 180⌋ = whole at floors row
  generalize ⌊(y' + 90) * 2 ^ 15 / 180⌋ = whole' at floors row'
  omega

end ZOrder

namespace Curve

theorem walked_of_rows (c : Curve) (place other : Coordinate) (same : other.lng = place.lng)
    (cols : ℕ) {rows : ℕ} (south : (c.cellOf place).row ≤ (c.cellOf other).row + rows)
    (north : (c.cellOf other).row ≤ (c.cellOf place).row + rows) :
    c.Walked (c.cellOf place) cols rows (c.page other) := by
  have within := c.cellOf_within other
  have col : (c.cellOf other).col = (c.cellOf place).col := by
    unfold cellOf Hilbert.cellOf
    rw [same]
  have inCols := within.col
  have inRows := within.row
  exact ⟨(c.cellOf other).col, (c.cellOf other).row, by omega, by omega, by omega, by omega, rfl⟩

/-- Where a latitude lies among the rows of the default settings. -/
def heightOf (y : ℚ) : ℚ := nearest (nearest ((y - 33) / (11 / 2)) * (2 ^ 15 - 1 : ℕ))

variable {y y' x k : ℚ}

theorem heightOf_bounds (south : 33 ≤ y) (north : y ≤ 77 / 2) :
    (y - 33) / (11 / 2) * 32767 - 1 / 2 ^ 30 ≤ heightOf y ∧
      heightOf y ≤ (y - 33) / (11 / 2) * 32767 + 1 / 2 ^ 30 := by
  have least : 0 ≤ (y - 33) / (11 / 2) := by linarith
  have most : (y - 33) / (11 / 2) ≤ 1 := by linarith
  have ratio := nearest_bounds least
  have cells : ((2 ^ 15 - 1 : ℕ) : ℚ) = 32767 := by norm_num
  have product : 0 ≤ nearest ((y - 33) / (11 / 2)) * 32767 :=
    mul_nonneg (nearest_nonneg _) (by norm_num)
  have height := nearest_bounds product
  rw [heightOf, cells]
  constructor <;> linarith

theorem heightOf_mono (south : 33 ≤ y) (ascending : y ≤ y') : heightOf y ≤ heightOf y' := by
  have least : 0 ≤ (y - 33) / (11 / 2) := by linarith
  have ratios := nearest_mono least (by linarith : (y - 33) / (11 / 2) ≤ (y' - 33) / (11 / 2))
  have cells : (0 : ℚ) ≤ (2 ^ 15 - 1 : ℕ) := Nat.cast_nonneg _
  exact nearest_mono (mul_nonneg (nearest_nonneg _) cells) (mul_le_mul_of_nonneg_right ratios cells)

theorem rows_le (south : 33 ≤ y) (north : y ≤ 77 / 2) (also : 33 ≤ y') (likewise : y' ≤ 77 / 2)
    (near : 1112 * (y - y') ≤ 10 * x) (fits : Fits x) (positive : 0 < k) (short : k ≤ 1 / 54) :
    ⌊heightOf y⌋₊ ≤ ⌊heightOf y'⌋₊ + ⌈nearest (x / k)⌉₊ := by
  rcases fits.nonneg.eq_or_lt with rfl | some
  · have less : y ≤ y' := by linarith
    exact Nat.le_add_right_of_le (Nat.floor_mono (heightOf_mono south less))
  · have longer : 54 * x ≤ x / k := by
      rw [le_div_iff₀ positive]
      nlinarith
    have reached : x ≤ nearest (x / k) := le_nearest_of_fits fits (by linarith) (by linarith)
    have one : 1 ≤ ⌈nearest (x / k)⌉₊ := Nat.one_le_ceil_iff.mpr (by linarith)
    have steps := (nearest_bounds (by linarith : 0 ≤ x / k)).1
    have upper := (heightOf_bounds south north).2
    have lower := (heightOf_bounds also likewise).1
    rcases le_or_gt (heightOf y) (heightOf y' + 1) with close | apart
    · -- a radius too short for the estimate still reaches the next row
      have next := natFloor_le_natFloor_add_ceil close
      rw [Nat.ceil_one] at next
      omega
    · exact natFloor_le_natFloor_add_ceil (by linarith)

variable {c : Curve} (place other : Coordinate) {radius : Float}

theorem row_eq (default : c.settings = {}) (at_place : Amounts place.lat y) (south : 33 ≤ y)
    (north : y ≤ 77 / 2) : (c.cellOf place).row = ⌊heightOf y⌋₊ := by
  obtain ⟨least, most, -, -⟩ := amounts_settings
  have height := most.stored.sub least.stored (by norm_num)
  rw [(most.fits.sub least.fits (by norm_num) (by norm_num)).nearest_eq] at height
  have span : (77 / 2 - 33 : ℚ) = 11 / 2 := by norm_num
  rw [span] at height
  have exact : Fits (y - 33) := at_place.fits.sub least.fits south (by linarith)
  have order : (15 : ℕ) ≤ 53 := by norm_num
  unfold cellOf Hilbert.cellOf
  rw [default]
  exact Hilbert.quantize_eq order at_place least.stored height (by norm_num) south
    (by linarith) exact

theorem row_le (default : c.settings = {}) (at_place : Amounts place.lat y)
    (at_other : Amounts other.lat y') (south : 33 ≤ y) (north : y ≤ 77 / 2) (also : 33 ≤ y')
    (likewise : y' ≤ 77 / 2) (reach : Amounts radius x) (near : 1112 * (y - y') ≤ 10 * x) :
    (c.cellOf place).row ≤
      (c.cellOf other).row + Radius.cells radius c.settings.kmPerGridLat maxSteps := by
  have word : maxSteps ≤ 2 ^ 64 := by decide
  obtain ⟨-, -, unit, -⟩ := amounts_settings
  have cells := Radius.cells_eq reach unit.stored (by norm_num) word
  have rows := rows_le south north also likewise near reach.fits
    (by norm_num : (0 : ℚ) < 5332261958806667 / 2 ^ 58) (by norm_num)
  have inside := (c.cellOf_within place).row
  have size : c.gridSize ≤ maxSteps := by
    unfold gridSize
    rw [default]
    decide
  rw [row_eq place default at_place south north] at inside ⊢
  rw [row_eq other default at_other also likewise, default, cells]
  generalize maxSteps = limit at size ⊢
  omega

end Curve

namespace Placement

/-- Two latitudes close enough for the default settings, at 111.2 kilometres a degree: by the curve
all that the radius reaches, by geohash half of it and half a cell. -/
def InReach (y y' km : ℚ) : Placement → Prop
  | .curve c => c.settings = {} ∧ 1112 * |y - y'| ≤ 10 * km
  | .zOrder z => z.settings = {} ∧ 1112 * |y - y'| ≤ 5 * km + 6

variable {placement : Placement} {lat lat' r : Float} {y y' x x' : ℚ}

theorem InReach.mono (h : placement.InReach y y' x) (further : x ≤ x') :
    placement.InReach y y' x' := by
  cases placement with
  | zOrder z => exact ⟨h.1, h.2.trans (by linarith)⟩
  | curve c => exact ⟨h.1, h.2.trans (by linarith)⟩

theorem latitude_within (inside : 33.0 ≤ lat ∧ lat ≤ 38.5) :
    Amounts lat (toRat lat) ∧ 33 ≤ toRat lat ∧ toRat lat ≤ 77 / 2 := by
  obtain ⟨least, most, -, -⟩ := amounts_settings
  obtain ⟨y, held, south, north⟩ := least.holds.between most.holds inside.1 inside.2
  rw [held.toRat_eq]
  exact ⟨held.amounts (by linarith), south, north⟩

theorem near_of_inReach (inside : 33.0 ≤ lat ∧ lat ≤ 38.5) (also : 33.0 ≤ lat' ∧ lat' ≤ 38.5)
    (lng : Float) {radius : Float} (reach : Amounts radius x)
    (near : placement.InReach (toRat lat) (toRat lat') x) :
    placement.Near ⟨lat, lng⟩ radius (placement.page ⟨lat', lng⟩) := by
  obtain ⟨amounts, south, north⟩ := latitude_within inside
  obtain ⟨amounts', south', north'⟩ := latitude_within also
  have upward := le_abs_self (toRat lat - toRat lat')
  have downward := neg_le_abs (toRat lat - toRat lat')
  cases placement with
  | zOrder z =>
    obtain ⟨default, close⟩ := near
    exact z.walked_of_rows ⟨lat, lng⟩ ⟨lat', lng⟩ rfl
      (ZOrder.rowOf_le _ _ default amounts.holds amounts'.holds reach (by linarith))
      (ZOrder.rowOf_le _ _ default amounts'.holds amounts.holds reach (by linarith))
  | curve c =>
    obtain ⟨default, close⟩ := near
    exact c.walked_of_rows ⟨lat, lng⟩ ⟨lat', lng⟩ rfl _
      (Curve.row_le _ _ default amounts amounts' south north south' north' reach (by linarith))
      (Curve.row_le _ _ default amounts' amounts south' north' south north reach (by linarith))

end Placement

namespace Spatial.Session

variable {placement : Placement} {lat lat' r : Float} {s : Session}

theorem toRat_examples : toRat 37.5 = 75 / 2 ∧ toRat 37.52 = 5280470563091907 / 2 ^ 47 ∧
    toRat 37.54 = 5283285312859013 / 2 ^ 47 ∧ toRat 5.0 = 5 := by
  refine ⟨Amounts.toRat_eq (.literal (m := 75 * 2 ^ 46) (e := -47) ?_ ?_ (by norm_num)),
    Amounts.toRat_eq (.literal (m := 5280470563091907) (e := -47) ?_ ?_ (by norm_num)),
    Amounts.toRat_eq (.literal (m := 5283285312859013) (e := -47) ?_ ?_ (by norm_num)),
    Amounts.toRat_eq (.literal (m := 5 * 2 ^ 50) (e := -50) ?_ ?_ (by norm_num))⟩
  all_goals decide +kernel

/-- A search around a place looks at the page of every place on its meridian that is in reach, and
returns what was put there. -/
theorem found_along_meridian (lng : Float) (inside : 33.0 ≤ lat ∧ lat ≤ 38.5)
    (also : 33.0 ≤ lat' ∧ lat' ≤ 38.5) (finite : r.isFinite = true)
    (near : placement.InReach (toRat lat) (toRat lat') (toRat r)) :
    (∃ ids, placement.pages ⟨lat, lng⟩ r = .ok ids ∧ placement.page ⟨lat', lng⟩ ∈ ids) ∧
    ∀ {disk : Disk} (_ : disk.medium.IsEmpty) (buffer : BufferSettings) (s : Session),
      Relation.ReflTransGen (Step placement) (start disk buffer) s →
      ∀ d ∈ s.stored, d.place = ⟨lat', lng⟩ → ∀ plan : FaultPlan,
        ((s.pool.failing plan).Readable →
          ∃ answer q,
            Spatial.search placement ⟨lat, lng⟩ r (s.pool.failing plan) = (.ok answer, q)) ∧
        ∀ answer q, Spatial.search placement ⟨lat, lng⟩ r (s.pool.failing plan) = (.ok answer, q) →
          d.value ∈ answer.records := by
  obtain ⟨radius, ids, reach, proposed, -, mem⟩ := placement.pages_of_finite ⟨lat, lng⟩ finite
  have listed : placement.page ⟨lat', lng⟩ ∈ ids :=
    (mem _).mpr (Placement.near_of_inReach inside also lng reach (near.mono (le_max_left _ 0)))
  refine ⟨⟨ids, proposed, listed⟩, ?_⟩
  intro disk empty buffer s run d stored there plan
  have valid : s.Valid placement := (valid_start empty buffer).run run
  refine ⟨fun readable => search_answers readable proposed, ?_⟩
  intro answer q answered
  rw [← there] at listed
  exact valid.found stored proposed listed answered

/-- Five kilometres by the curve find what lies four and a half to the north, and by geohash look at
the page of what lies two and a quarter to the north. -/
theorem found_to_the_north : ∃ (c : Curve) (z : ZOrder) (s : Session) (answer : Answer) (q : Pool),
    c.settings = {} ∧ z.settings = {} ∧ Step (.curve c) (start .inMemory {}) s ∧
    Spatial.search (.curve c) ⟨37.5, 127.0⟩ 5.0 (s.pool.failing {}) = (.ok answer, q) ∧
    [7] ∈ answer.records ∧
    ∃ ids, z.pages ⟨37.5, 127.0⟩ 5.0 = .ok ids ∧ z.page ⟨37.52, 127.0⟩ ∈ ids := by
  let c : Curve := ⟨{}, by decide +kernel⟩
  let z : ZOrder := ⟨{}, by decide +kernel⟩
  obtain ⟨middle, nearer, further, radius⟩ := toRat_examples
  have byCurve : (Placement.curve c).InReach (toRat 37.5) (toRat 37.54) (toRat 5.0) := by
    rw [middle, further, radius]
    exact ⟨rfl, by norm_num⟩
  have byGeohash : (Placement.zOrder z).InReach (toRat 37.5) (toRat 37.52) (toRat 5.0) := by
    rw [middle, nearer, radius]
    exact ⟨rfl, by norm_num⟩
  have centre : (33.0 : Float) ≤ 37.5 ∧ (37.5 : Float) ≤ 38.5 := by decide +kernel
  have finite : (5.0 : Float).isFinite = true := by decide +kernel
  obtain ⟨-, found⟩ := found_along_meridian 127.0 centre (by decide +kernel) finite byCurve
  obtain ⟨listed, -⟩ := found_along_meridian 127.0 centre (by decide +kernel) finite byGeohash
  have empty : Disk.inMemory.medium.IsEmpty := rfl
  have blank : Chain.Roomy (start .inMemory {}).pool 0 := Chain.roomy_over empty rfl {}
  obtain ⟨s, kept, step, stored, roomy⟩ := step_put (.curve c) blank ⟨37.54, 127.0⟩ [7] (by decide)
  have there : (⟨⟨37.54, 127.0⟩, [7], kept⟩ : Deposit) ∈ s.stored := by
    rw [stored]
    exact List.mem_singleton_self _
  obtain ⟨answers, holds⟩ := found empty {} _ (.single step) _ there rfl {}
  obtain ⟨answer, q, searched⟩ := answers roomy.readable
  exact ⟨c, z, _, answer, q, rfl, rfl, step, searched, holds answer q searched, listed⟩

/-- By geohash four and a half kilometres are too far, as the search stops at a row before. -/
theorem missed_by_geohash : ∃ z : ZOrder, z.settings = {} ∧
    1112 * |toRat 37.5 - toRat 37.54| ≤ 10 * toRat 5.0 ∧
    ∃ ids, z.pages ⟨37.5, 127.0⟩ 5.0 = .ok ids ∧ z.page ⟨37.54, 127.0⟩ ∉ ids := by
  let z : ZOrder := ⟨{}, by decide +kernel⟩
  refine ⟨z, rfl, ?_, z.pagesAround (z.code ⟨37.5, 127.0⟩) (z.steps 5.0), ?_, ?_⟩
  · obtain ⟨middle, -, further, radius⟩ := toRat_examples
    rw [middle, further, radius]
    norm_num
  · have radius : Radius.checked 5.0 = .ok 5.0 := by
      rw [Radius.checked, if_pos (by decide +kernel), if_pos (by decide +kernel)]
    rw [ZOrder.pages, radius]
    rfl
  · have steps : z.steps 5.0 = 6 := by decide +kernel
    have centre : Morton.cell z.precision (z.code ⟨37.5, 127.0⟩) = ⟨27943, 23210⟩ := by
      decide +kernel
    have others : ∀ i < 13, ∀ j < 13,
        z.pageOfCode (Morton.code z.precision ⟨27937 + i, 23204 + j⟩) ≠
          z.page ⟨37.54, 127.0⟩ := by decide +kernel
    rw [z.mem_pagesAround_iff, steps, centre]
    rintro ⟨col, row, left, right, lower, upper, here⟩
    obtain ⟨i, rfl⟩ := Nat.exists_eq_add_of_le left
    obtain ⟨j, rfl⟩ := Nat.exists_eq_add_of_le lower
    simp only [le_min_iff] at right upper
    exact others i (by omega) j (by omega) here

end Spatial.Session

end Gazetteer
