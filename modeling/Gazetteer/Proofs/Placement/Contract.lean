import Gazetteer.Placement
import Gazetteer.Proofs.Grid.Halves
import Gazetteer.Proofs.Placement.Marking
import Gazetteer.Proofs.Placement.Measures
import Gazetteer.Proofs.Placement.Scan

/-! What both placements keep to, for every coordinate: a search by any finite radius has pages to
look at, each once and each below the number of pages, that of the place itself among them; and a
larger radius loses none. -/
namespace Gazetteer

open Rounding

namespace ZOrder

variable {z : ZOrder}

theorem walked_self (z : ZOrder) (place : Coordinate) (steps : Nat) :
    z.Walked (Morton.cell z.precision (z.code place)) steps (z.page place) := by
  obtain ⟨col, row⟩ := Morton.cell_lt z.precision (z.code place)
  refine ⟨_, _, Nat.sub_le _ _, ?_, Nat.sub_le _ _, ?_, ?_⟩
  · omega
  · omega
  · exact congrArg z.pageOfCode (Morton.code_cell (Geohash.mortonCode_lt place z.precision))

theorem Walked.page_lt {centre : Cell} {steps page : Nat} (h : z.Walked centre steps page) :
    page < z.maxPages := by
  obtain ⟨col, row, -, -, -, -, rfl⟩ := h
  exact z.pageOfCode_lt _

theorem Walked.mono {centre : Cell} {steps more page : Nat} (h : z.Walked centre steps page)
    (further : steps ≤ more) : z.Walked centre more page := by
  obtain ⟨col, row, left, right, lower, upper, here⟩ := h
  exact ⟨col, row, by omega, by omega, by omega, by omega, here⟩

theorem steps_mono {r r' : Float} {x y : ℚ} (reach : Amounts r x) (further : Amounts r' y)
    (ascending : x ≤ y) : z.steps r ≤ z.steps r' := by
  have positive := ((GeohashSettings.fault?_eq_none_iff _).mp z.accepted).2.2
  have word : maxSteps ≤ 2 ^ 64 := by decide
  have cells := Radius.cells_mono reach further ascending positive word
  unfold steps
  omega

end ZOrder

namespace Curve

variable {c : Curve}

theorem cellOf_within (c : Curve) (place : Coordinate) : (c.cellOf place).Within c.gridSize := by
  have small : c.settings.order.toNat ≤ 53 := Nat.le_trans c.order_le (by decide)
  exact ⟨Hilbert.quantize_lt _ _ _ small, Hilbert.quantize_lt _ _ _ small⟩

theorem walked_self (c : Curve) (place : Coordinate) (cols rows : Nat) :
    c.Walked (c.cellOf place) cols rows (c.page place) := by
  have within := c.cellOf_within place
  have col := within.col
  have row := within.row
  exact ⟨_, _, Nat.sub_le _ _, by omega, Nat.sub_le _ _, by omega, rfl⟩

theorem Walked.mono {centre : Cell} {cols rows more further page : Nat}
    (h : c.Walked centre cols rows page) (wider : cols ≤ more) (higher : rows ≤ further) :
    c.Walked centre more further page := by
  obtain ⟨col, row, left, right, lower, upper, here⟩ := h
  exact ⟨col, row, by omega, by omega, by omega, by omega, here⟩

theorem Walked.page_lt {centre : Cell} {cols rows page : Nat} (h : c.Walked centre cols rows page) :
    page < c.maxPages := by
  obtain ⟨col, row, -, -, -, -, rfl⟩ := h
  exact c.pageOfValue_lt _

theorem units_positive (c : Curve) :
    c.settings.kmPerGridLat.isPositive = true ∧ c.settings.kmPerGridLng.isPositive = true :=
  ((HilbertSettings.fault?_eq_none_iff _).mp c.accepted).2.2.2.2

end Curve

namespace Placement

/-- A page of a cell that a radius reaches from the cell of a place. -/
def Near (placement : Placement) (place : Coordinate) (radius : Float) (page : Nat) : Prop :=
  match placement with
  | .zOrder z => z.Walked (Morton.cell z.precision (z.code place)) (z.steps radius) page
  | .curve c => c.Walked (c.cellOf place)
      (Radius.cells radius c.settings.kmPerGridLng Curve.maxSteps)
      (Radius.cells radius c.settings.kmPerGridLat Curve.maxSteps) page

variable (placement : Placement) (place : Coordinate)

theorem near_page (radius : Float) : placement.Near place radius (placement.page place) := by
  cases placement with
  | zOrder z => exact z.walked_self place _
  | curve c => exact c.walked_self place _ _

variable {placement place}

theorem Near.lt {radius : Float} {page : Nat} (h : placement.Near place radius page) :
    page < placement.maxPages := by
  cases placement with
  | zOrder z => exact ZOrder.Walked.page_lt h
  | curve c => exact Curve.Walked.page_lt h

theorem Near.mono {r r' : Float} {x y : ℚ} {page : Nat} (h : placement.Near place r page)
    (reach : Amounts r x) (further : Amounts r' y) (ascending : x ≤ y) :
    placement.Near place r' page := by
  cases placement with
  | zOrder z => exact ZOrder.Walked.mono h (ZOrder.steps_mono reach further ascending)
  | curve c =>
    obtain ⟨lat, lng⟩ := c.units_positive
    exact Curve.Walked.mono h
      (Radius.cells_mono reach further ascending lng (by decide))
      (Radius.cells_mono reach further ascending lat (by decide))

theorem maxPages_lt (placement : Placement) : placement.maxPages < linkLimit := by
  cases placement with
  | zOrder z => exact ((GeohashSettings.fault?_eq_none_iff _).mp z.accepted).2.1.2
  | curve c => exact ((HilbertSettings.fault?_eq_none_iff _).mp c.accepted).2.1.2

theorem pages_of_infinite (placement : Placement) (place : Coordinate) {r : Float}
    (infinite : r.isFinite = false) :
    placement.pages place r = .error (.invalidRadius (.ofFloat r)) := by
  have refused : Radius.checked r = .error (.invalidRadius (.ofFloat r)) := by
    rw [Radius.checked, infinite]
    rfl
  cases placement with
  | zOrder z =>
    change z.pages place r = _
    rw [ZOrder.pages, refused]
    rfl
  | curve c =>
    change c.pages place r = _
    rw [Curve.pages, refused]
    rfl

theorem pages_of_finite (placement : Placement) (place : Coordinate) {r : Float}
    (finite : r.isFinite = true) :
    ∃ radius ids, Amounts radius (max (toRat r) 0) ∧ placement.pages place r = .ok ids ∧
      ids.Nodup ∧ ∀ page, page ∈ ids ↔ placement.Near place radius page := by
  obtain ⟨radius, checked, amounts⟩ := Radius.checked_of_finite finite
  cases placement with
  | zOrder z =>
    refine ⟨radius, z.pagesAround (z.code place) (z.steps radius), amounts, ?_,
      z.nodup_pagesAround _ _, z.mem_pagesAround_iff _ _⟩
    change z.pages place r = _
    rw [ZOrder.pages, checked]
    rfl
  | curve c =>
    refine ⟨radius, c.pagesIn (c.rectAround place radius), amounts, ?_,
      (PageList.pairwise_union _).imp Nat.ne_of_lt, c.mem_pagesIn_iff (c.cellOf_within place) _ _⟩
    change c.pages place r = _
    rw [Curve.pages, checked]
    rfl

/-- A search by a finite radius looks at different pages below the number of pages, at that of the
place too, and by a larger radius at no fewer. -/
theorem pages_contract (placement : Placement) (place : Coordinate) :
    (∀ r : Float, r.isFinite = true → ∃ ids, placement.pages place r = .ok ids ∧ ids.Nodup ∧
      (∀ id ∈ ids, id < placement.maxPages) ∧ placement.page place ∈ ids) ∧
    ∀ r r' : Float, r.isFinite = true → r'.isFinite = true → r ≤ r' →
      ∃ ids ids', placement.pages place r = .ok ids ∧ placement.pages place r' = .ok ids' ∧
        ids ⊆ ids' := by
  constructor
  · intro r finite
    obtain ⟨radius, ids, -, found, nodup, mem⟩ := placement.pages_of_finite place finite
    exact ⟨ids, found, nodup, fun id listed => ((mem id).mp listed).lt,
      (mem _).mpr (near_page placement place radius)⟩
  · intro r r' finite also ascending
    rw [Radius.le_iff_toRat_le finite also] at ascending
    obtain ⟨radius, ids, reach, found, -, mem⟩ := placement.pages_of_finite place finite
    obtain ⟨radius', ids', further, found', -, mem'⟩ := placement.pages_of_finite place also
    refine ⟨ids, ids', found, found', ?_⟩
    intro id listed
    exact (mem' id).mpr (((mem id).mp listed).mono reach further (max_le_max_right 0 ascending))

/-- A place that is nowhere, and a radius below zero, by either placement. -/
theorem pages_contract_nowhere : ∃ (z : ZOrder) (c : Curve),
    (∃ ids, (zOrder z).pages ⟨0.0 / 0.0, 200.0⟩ (-3.0) = .ok ids ∧
      (zOrder z).page ⟨0.0 / 0.0, 200.0⟩ ∈ ids) ∧
    ∃ ids ids', (curve c).pages ⟨0.0 / 0.0, 200.0⟩ (-3.0) = .ok ids ∧
      (curve c).pages ⟨0.0 / 0.0, 200.0⟩ 0.5 = .ok ids' ∧ ids ⊆ ids' := by
  let z : ZOrder := ⟨{}, by decide +kernel⟩
  let c : Curve := ⟨{}, by decide +kernel⟩
  have byCode := pages_contract (zOrder z) ⟨0.0 / 0.0, 200.0⟩
  have byCurve := pages_contract (curve c) ⟨0.0 / 0.0, 200.0⟩
  obtain ⟨ids, found, -, -, own⟩ := byCode.1 (-3.0) (by decide +kernel)
  exact ⟨z, c, ⟨ids, found, own⟩,
    byCurve.2 (-3.0) 0.5 (by decide +kernel) (by decide +kernel) (by decide +kernel)⟩

end Placement

end Gazetteer
