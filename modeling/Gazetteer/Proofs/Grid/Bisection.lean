import Gazetteer.Limits
import Gazetteer.Proofs.Grid.Halves

/-! Halving in doubles and in exact numbers. The intervals that halving meets have ends of whole
units, so every middle is exact and both take the same halves all the way; a code is that of the
cell which exact quotients give. -/
namespace Gazetteer

namespace Geohash

open Rounding

variable {value otherValue : Float} {span other : Span} {v w : ℚ} {i j : Interval} {k n : ℕ}

namespace Interval

def middle (i : Interval) : ℚ := (i.low + i.high) / 2

def half (i : Interval) (upper : Bool) : Interval :=
  if upper then ⟨i.middle, i.high⟩ else ⟨i.low, i.middle⟩

end Interval

/-- The middles that halvings in turns meet, each with the half that is taken. -/
def met (value : Float) (span : Span) (otherValue : Float) (other : Span) : ℕ → List (Float × Bool)
  | 0 => []
  | n + 1 =>
    let upper := span.isUpper value
    (span.middle, upper) :: met otherValue other value (span.half upper) n

/-- The middles and halves of the same halvings in exact numbers. -/
def ideal (v : ℚ) (i : Interval) (w : ℚ) (j : Interval) : ℕ → List (ℚ × Bool)
  | 0 => []
  | n + 1 =>
    let upper := decide (i.middle ≤ v)
    (i.middle, upper) :: ideal w j v (i.half upper) n

/-- A halving in doubles is the one in exact numbers, at a middle of whole units. -/
structure Faithful (run : Float × Bool) (exact : ℚ × Bool) : Prop where
  middle : Holds run.1 exact.1
  taken : run.2 = exact.2
  units : ∃ m : ℤ, exact.1 = m * unit
  within : |exact.1| ≤ 180

theorem map_met (value : Float) (span : Span) (otherValue : Float) (other : Span) (n : ℕ) :
    (met value span otherValue other n).map Prod.snd = halvings value span otherValue other n := by
  induction n generalizing value span otherValue other with
  | zero => rfl
  | succ n ih => simp [met, halvings, ih]

theorem Interval.middle_units {a b : ℤ} (low : i.low = a * unit)
    (high : i.high = (a + b * 2 ^ (k + 1) : ℤ) * unit) :
    i.middle = (a + b * 2 ^ k : ℤ) * unit := by
  rw [Interval.middle, low, high]
  push_cast
  ring

namespace Degrees

theorem middle (h : Degrees span i (k + 1)) : Holds span.middle i.middle := by
  obtain ⟨low, w, spaced, -, lower, length⟩ := h.spaced
  have middle : (low + w * 2 ^ k : ℤ) * 2 ^ (-28 : ℤ) = i.middle := by
    rw [Interval.middle]
    calc ((low + w * 2 ^ k : ℤ) : ℚ) * 2 ^ (-28 : ℤ)
        = low * 2 ^ (-28 : ℤ) + w * 2 ^ (-28 : ℤ) * 2 ^ k := by push_cast; ring
      _ = i.low + (i.high - i.low) / 2 ^ (k + 1) * 2 ^ k := by rw [lower, length]
      _ = (i.low + i.high) / 2 := by rw [pow_succ]; field_simp; ring
  exact middle ▸ spaced.middle

theorem middle_between (h : Degrees span i k) : i.low < i.middle ∧ i.middle < i.high := by
  have ordered := h.ordered
  unfold Interval.middle
  constructor <;> linarith

theorem faithful (h : Degrees span i (k + 1)) (at_value : Holds value v) :
    Faithful (span.middle, span.isUpper value) (i.middle, decide (i.middle ≤ v)) := by
  obtain ⟨a, b, low, high⟩ := h.parts
  obtain ⟨above, below⟩ := h.middle_between
  refine ⟨h.middle, decide_eq_decide.mpr (h.middle.le_iff at_value),
    ⟨_, Interval.middle_units low high⟩, ?_⟩
  exact abs_le.mpr ⟨by linarith [h.west], by linarith [h.east]⟩

theorem half (h : Degrees span i (k + 1)) (upper : Bool) :
    Degrees (span.half upper) (i.half upper) k := by
  obtain ⟨a, b, low, high⟩ := h.parts
  obtain ⟨above, below⟩ := h.middle_between
  have middle := Interval.middle_units low high
  cases upper with
  | true =>
    refine ⟨h.middle, h.upper, ⟨a + b * 2 ^ k, b, middle, ?_⟩, below, ?_, h.east⟩
    · rw [Interval.half, if_pos rfl, high]
      push_cast
      ring
    · exact h.west.trans above.le
  | false =>
    exact ⟨h.lower, h.middle, ⟨a, b, low, middle⟩, above, h.west, below.le.trans h.east⟩

end Degrees

theorem met_faithful (first : Degrees span i ((n + 1) / 2)) (next : Degrees other j (n / 2))
    (at_value : Holds value v) (at_other : Holds otherValue w) :
    List.Forall₂ Faithful (met value span otherValue other n) (ideal v i w j n) := by
  induction n generalizing value span otherValue other v i w j with
  | zero => exact .nil
  | succ n ih =>
    have turns : (n + 1 + 1) / 2 = n / 2 + 1 := by omega
    rw [turns] at first
    have faithful := first.faithful at_value
    have rest := ih next (first.half (span.isUpper value)) at_other at_value
    have same : decide (i.middle ≤ v) = span.isUpper value := faithful.taken.symm
    refine .cons faithful ?_
    rwa [same]

/-- The halvings that lead to the cell of a place. -/
def path (place : Coordinate) (precision : ℕ) : List (Float × Bool) :=
  met place.lng ⟨-180.0, 180.0⟩ place.lat ⟨-90.0, 90.0⟩ (Morton.bitsPerUnit * precision)

/-- The halvings of its exact coordinates. -/
def idealPath (place : Coordinate) (precision : ℕ) : List (ℚ × Bool) :=
  ideal (toRat place.lng) ⟨-180, 180⟩ (toRat place.lat) ⟨-90, 90⟩
    (Morton.bitsPerUnit * precision)

/-- The cell of a code is the one that exact quotients of the coordinates give, held within the
grid. The halvings that lead there are those of the exact coordinates, at middles which doubles
hold. -/
theorem mortonCode_exact {place : Coordinate} {precision : ℕ} (lat : place.lat.isFinite = true)
    (lng : place.lng.isFinite = true) (low : precision ≤ maxPrecision) :
    (((Morton.cell precision (mortonCode place precision)).col : ℤ) =
        max 0 (min ⌊(toRat place.lng + 180) * Morton.columns precision / 360⌋
          (Morton.columns precision - 1)) ∧
      ((Morton.cell precision (mortonCode place precision)).row : ℤ) =
        max 0 (min ⌊(toRat place.lat + 90) * Morton.rows precision / 180⌋
          (Morton.rows precision - 1))) ∧
    (path place precision).map Prod.snd = cellBits place precision ∧
    List.Forall₂ Faithful (path place precision) (idealPath place precision) := by
  have lngHolds := Holds.of_finite lng
  have latHolds := Holds.of_finite lat
  have bits : Morton.bitsPerUnit * precision ≤ 60 := Nat.mul_le_mul_left Morton.bitsPerUnit low
  have columnBits : Morton.columnBits precision ≤ 30 := by
    unfold Morton.columnBits
    omega
  have rowBits : Morton.rowBits precision ≤ 30 := by
    unfold Morton.rowBits
    omega
  refine ⟨⟨?_, ?_⟩, map_met _ _ _ _ _, ?_⟩
  · rw [cell_mortonCode place low, part_longitude columnBits lngHolds, Morton.columns, Nat.pow_eq]
    push_cast
    rfl
  · rw [cell_mortonCode place low, part_latitude rowBits latHolds, Morton.rows, Nat.pow_eq]
    push_cast
    rfl
  · exact met_faithful (degrees_longitudes columnBits) (degrees_latitudes rowBits) lngHolds latHolds

/-- Where the equator meets the end of the longitudes: the first row of the upper half, in the last
column. -/
theorem mortonCode_exact_border :
    (Morton.cell 12 (mortonCode ⟨0.0, 180.0⟩ 12)).col = 2 ^ 30 - 1 ∧
    (Morton.cell 12 (mortonCode ⟨0.0, 180.0⟩ 12)).row = 2 ^ 29 := by
  obtain ⟨⟨col, row⟩, -⟩ := mortonCode_exact (by decide +kernel :
    (⟨0.0, 180.0⟩ : Coordinate).lat.isFinite = true) (by decide +kernel)
    (by decide : 12 ≤ maxPrecision)
  have equator : toRat (⟨0.0, 180.0⟩ : Coordinate).lat = 0 := amounts_zero.toRat_eq
  have lastLine : toRat (⟨0.0, 180.0⟩ : Coordinate).lng = 180 := amounts_half_turn.holds.toRat_eq
  have columns : Morton.columns 12 = 2 ^ 30 := rfl
  have rows : Morton.rows 12 = 2 ^ 30 := rfl
  rw [lastLine, columns] at col
  rw [equator, rows] at row
  generalize Morton.cell 12 (mortonCode ⟨0.0, 180.0⟩ 12) = cell at col row ⊢
  norm_num at col row
  exact ⟨by exact_mod_cast col, by exact_mod_cast row⟩

end Geohash

end Gazetteer
