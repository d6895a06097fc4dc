import Gazetteer.Proofs.Placement.CurveWords
import Gazetteer.Proofs.Placement.PlainScan

/-! Both placements in words. The scan around a cell is run here as the marking along the curve is:
with every number of it checked, steps of either sign among them, from the halvings that find the
cell to the remainder that is its page. -/
namespace Gazetteer

open Hilbert (sum? product? sum?_of_lt product?_of_lt)
open Words

namespace Geohash

variable {value otherValue : Float} {span other : Span} {code width n : Nat}

/-- The loop over the halvings, with the bits found so far as a number. None of them may be lost. -/
def codeLoop (code : Nat) (value : Float) (span : Span) (otherValue : Float) (other : Span) :
    Nat → Option Nat
  | 0 => some code
  | n + 1 => do
    let upper := span.isUpper value
    let code ← Morton.shifted? code upper.toNat
    codeLoop code otherValue other value (span.half upper) n

theorem codeLoop_eq (short : width + n ≤ 64) (below : code < 2 ^ width) :
    codeLoop code value span otherValue other n =
      some ((halvings value span otherValue other n).foldl
        (fun acc bit => (2 * acc + bit.toNat) % wordSize) code) := by
  induction n generalizing code width value span otherValue other with
  | zero => rfl
  | succ n ih =>
    have digit : (span.isUpper value).toNat < 2 := Bool.toNat_lt _
    have next : 2 * code + (span.isUpper value).toNat < 2 ^ (width + 1) := by
      rw [pow_succ]
      omega
    have word : 2 ^ (width + 1) ≤ wordSize :=
      Nat.pow_le_pow_right Nat.two_pos (by omega : width + 1 ≤ 64)
    rw [codeLoop, halvings, List.foldl_cons, Nat.mod_eq_of_lt (Nat.lt_of_lt_of_le next word)]
    simp only [Morton.shifted?_of_lt below digit (by omega), Option.bind_eq_bind, Option.bind_some]
    exact ih (by omega) next

end Geohash

namespace Morton

def dimensionsWords? (precision : Nat) : Option (Nat × Nat) := do
  let bits ← product? bitsPerUnit precision
  let more ← sum? bits 1
  let cols ← power? (more / 2)
  let rows ← power? (bits / 2)
  return (cols, rows)

theorem product?_bits {precision : Nat} (low : precision ≤ maxPrecision) :
    product? bitsPerUnit precision = some (bitsPerUnit * precision) :=
  product?_of_lt (Nat.lt_of_le_of_lt (bits_le low) (by decide))

theorem dimensionsWords?_eq {precision : Nat} (low : precision ≤ maxPrecision) :
    dimensionsWords? precision = some (columns precision, rows precision) := by
  have bits := bits_le low
  have more : sum? (bitsPerUnit * precision) 1 = some (bitsPerUnit * precision + 1) :=
    sum?_of_lt (Nat.lt_of_le_of_lt (Nat.succ_le_succ bits) (by decide))
  simp only [dimensionsWords?, product?_bits low, more,
    power?_of_lt (by omega : (bitsPerUnit * precision + 1) / 2 < 64),
    power?_of_lt (by omega : bitsPerUnit * precision / 2 < 64), Option.bind_eq_bind,
    Option.bind_some]
  rfl

theorem neighborWords?_of_cell {precision code row col : Nat} {rowStep colStep : Int}
    (low : precision ≤ maxPrecision) (there : (row : Int) = (cell precision code).row + rowStep)
    (here : (col : Int) = (cell precision code).col + colStep)
    (inRows : row < rows precision) (inCols : col < columns precision) :
    neighborWords? precision code rowStep colStep =
      some (some (Morton.code precision ⟨col, row⟩)) := by
  obtain ⟨inCols', inRows'⟩ := cell_lt precision code
  have cols := columns_le low
  have rows := rows_le low
  rw [neighborWords?_eq low code (by omega) (by omega), neighbor?]
  simp only [← there, ← here, Int.toNat_natCast]
  rw [if_pos (by omega)]

end Morton

namespace ZOrder

def codeWords? (z : ZOrder) (place : Coordinate) : Option Nat := do
  let bits ← product? Morton.bitsPerUnit z.precision
  Geohash.codeLoop 0 place.lng ⟨-180.0, 180.0⟩ place.lat ⟨-90.0, 90.0⟩ bits

def pageWords? (z : ZOrder) (place : Coordinate) : Option Nat := do
  let code ← z.codeWords? place
  remainder? code z.maxPages

/-- The steps along a row, from `colStep` on, until all pages are seen. -/
def scanRowWords? (z : ZOrder) (code : Nat) (rowStep colStep : Int) :
    Nat → FirstSeen → Option FirstSeen
  | 0, seen => some seen
  | more + 1, seen =>
    if seen.isFull z.maxPages then some seen
    else do
      match ← Morton.neighborWords? z.precision code rowStep colStep with
      | none => z.scanRowWords? code rowStep (colStep + 1) more seen
      | some next =>
        let page ← remainder? next z.maxPages
        z.scanRowWords? code rowStep (colStep + 1) more (seen.visit page)

/-- The steps from row to row, each with the same steps along it. -/
def scanRowsWords? (z : ZOrder) (code : Nat) (west : Int) (width : Nat) (rowStep : Int) :
    Nat → FirstSeen → Option FirstSeen
  | 0, seen => some seen
  | more + 1, seen =>
    if seen.isFull z.maxPages then some seen
    else do
      let seen ← z.scanRowWords? code rowStep west width seen
      z.scanRowsWords? code west width (rowStep + 1) more seen

def pagesAroundWords? (z : ZOrder) (code steps : Nat) : Option (List Nat) := do
  let bits ← product? Morton.bitsPerUnit z.precision
  let here ← Morton.splitLoop code bits bits 0 ⟨0, 0⟩
  let (cols, rows) ← Morton.dimensionsWords? z.precision
  let (south, north) ← reachWords? here.row rows steps
  let (west, east) ← reachWords? here.col cols steps
  let width := (east - west + 1).toNat
  let height := (north - south + 1).toNat
  let seen ← z.scanRowsWords? code west width south height {}
  return seen.toList

def pagesWords? (z : ZOrder) (place : Coordinate) (radiusKm : Float) :
    Option (Except Fault (List Nat)) :=
  match Radius.checked radiusKm with
  | .error fault => some (.error fault)
  | .ok radius => do
    let code ← z.codeWords? place
    let pages ← z.pagesAroundWords? code (z.steps radius)
    return .ok pages

variable (z : ZOrder) {code row col more : Nat} {rowStep colStep : Int}

theorem precision_le : z.precision ≤ maxPrecision :=
  ((GeohashSettings.fault?_eq_none_iff _).mp z.accepted).1.2

theorem codeWords?_eq (place : Coordinate) : z.codeWords? place = some (z.code place) := by
  have short : 0 + Morton.bitsPerUnit * z.precision ≤ 64 := by
    have bits := Morton.bits_le z.precision_le
    omega
  simp only [codeWords?, Morton.product?_bits z.precision_le, Option.bind_eq_bind,
    Option.bind_some, Geohash.codeLoop_eq short (Nat.two_pow_pos 0)]
  rw [code, Geohash.mortonCode_eq]
  rfl

theorem pageWords?_eq (place : Coordinate) : z.pageWords? place = some (z.page place) := by
  simp only [pageWords?, z.codeWords?_eq, Option.bind_eq_bind, Option.bind_some]
  exact remainder?_of_pos z.maxPages_pos

theorem scanRowWords?_eq (there : (row : Int) = (Morton.cell z.precision code).row + rowStep)
    (here : (col : Int) = (Morton.cell z.precision code).col + colStep)
    (inRows : row < Morton.rows z.precision) (inCols : col + more ≤ Morton.columns z.precision)
    (seen : FirstSeen) :
    z.scanRowWords? code rowStep colStep more seen = some (z.scanRow row col more seen) := by
  induction more generalizing col colStep seen with
  | zero => rfl
  | succ more ih =>
    rw [scanRowWords?, scanRow]
    split
    · rfl
    · have step := Morton.neighborWords?_of_cell z.precision_le there here inRows (by omega)
      simp only [step, remainder?_of_pos z.maxPages_pos, Option.bind_eq_bind, Option.bind_some]
      apply ih
      · omega
      · omega

theorem scanRowsWords?_eq {west : Int} {width : Nat}
    (there : (row : Int) = (Morton.cell z.precision code).row + rowStep)
    (here : (col : Int) = (Morton.cell z.precision code).col + west)
    (inRows : row + more ≤ Morton.rows z.precision)
    (inCols : col + width ≤ Morton.columns z.precision) (seen : FirstSeen) :
    z.scanRowsWords? code west width rowStep more seen =
      some (z.scanRows col width row more seen) := by
  induction more generalizing row rowStep seen with
  | zero => rfl
  | succ more ih =>
    rw [scanRowsWords?, scanRows]
    split
    · rfl
    · have first := z.scanRowWords?_eq there here (by omega) inCols seen
      simp only [first, Option.bind_eq_bind, Option.bind_some]
      apply ih
      · omega
      · omega

theorem pagesAroundWords?_eq (code steps : Nat) :
    z.pagesAroundWords? code steps = some (z.pagesAround code steps) := by
  have low := z.precision_le
  obtain ⟨col, row⟩ := Morton.cell_lt z.precision code
  obtain ⟨south, north, rows⟩ := exists_span row (Morton.rows_le low) steps
  obtain ⟨west, east, cols⟩ := exists_span col (Morton.columns_le low) steps
  have inRows := rows.onAxis
  have inCols := cols.onAxis
  have firstRow := rows.first
  have firstCol := cols.first
  have height := rows.count
  have width := cols.count
  unfold pagesAroundWords?
  simp only [Option.bind_eq_bind]
  rw [Morton.product?_bits low, Option.bind_some, Morton.splitLoop_cell low, Option.bind_some,
    Morton.dimensionsWords?_eq low, Option.bind_some, rows.words, Option.bind_some, cols.words,
    Option.bind_some, ← height, ← width, Int.toNat_natCast, Int.toNat_natCast,
    z.scanRowsWords?_eq firstRow firstCol (by omega) (by omega)]
  rfl

theorem pagesWords?_eq (place : Coordinate) (radiusKm : Float) :
    z.pagesWords? place radiusKm = some (z.pages place radiusKm) := by
  unfold pagesWords? pages
  cases Radius.checked radiusKm with
  | error fault => rfl
  | ok radius =>
    simp only [z.codeWords?_eq, z.pagesAroundWords?_eq, Option.bind_eq_bind, Option.bind_some]
    rfl

end ZOrder

namespace Placement

def pageWords? : Placement → Coordinate → Option Nat
  | .zOrder z, place => z.pageWords? place
  | .curve c, place => c.pageWords? place

def pagesWords? : Placement → Coordinate → Float → Option (Except Fault (List Nat))
  | .zOrder z, place, radiusKm => z.pagesWords? place radiusKm
  | .curve c, place, radiusKm => c.pagesWords? place radiusKm

/-- No number of a placement leaves its word, for any place and any radius: not when the settings are
judged, nor when a place is put on its page, nor in a search. Settings of geohashes are only
compared, so there is nothing to go wrong in them. -/
theorem stays_in_words :
    (∀ s : HilbertSettings, s.faultWords? = some s.fault?) ∧
    (∀ c : Curve, c.rangeWords? = some c.rangePerPage ∧ 1 ≤ c.rangePerPage ∧
      (∀ place, c.cellWords? place = some (c.cellOf place) ∧
        (c.cellOf place).col < c.gridSize ∧ (c.cellOf place).row < c.gridSize) ∧
      ∀ rect, ∃ runs, c.markWords? rect ⟨0, 0⟩ c.gridSize = some runs ∧
        ∀ run ∈ runs, run.1 ≤ run.2 ∧ run.2 < c.maxPages) ∧
    ∀ (placement : Placement) (place : Coordinate),
      placement.pageWords? place = some (placement.page place) ∧
      ∀ radiusKm, placement.pagesWords? place radiusKm = some (placement.pages place radiusKm) := by
  refine ⟨HilbertSettings.faultWords?_eq, ?_, ?_⟩
  · intro c
    refine ⟨c.rangeWords?_eq, c.rangePerPage_pos, ?_, ?_⟩
    · intro place
      have within := c.cellOf_within place
      exact ⟨c.cellWords?_eq place, within.col, within.row⟩
    · intro rect
      obtain ⟨runs, words, marks⟩ := Curve.exists_markWords c.cut_root rect
      exact ⟨runs, words, Curve.marks_inside marks⟩
  · intro placement place
    cases placement with
    | zOrder z => exact ⟨z.pageWords?_eq place, z.pagesWords?_eq place⟩
    | curve c => exact ⟨c.pageWords?_eq place, c.pagesWords?_eq place⟩

/-- The largest grid with the most pages, over a region without bounds, makes sense. -/
example :
    let infinite := Binary64.ofFloat (1.0 / 0.0)
    let unbounded := Binary64.ofFloat (-1.0 / 0.0)
    HilbertSettings.fault?
      { order := 31
        maxPages := 0x7fffffff
        region := ⟨unbounded, infinite, unbounded, infinite⟩
        kmPerGridLat := infinite } = none := by
  decide +kernel

end Placement

end Gazetteer
