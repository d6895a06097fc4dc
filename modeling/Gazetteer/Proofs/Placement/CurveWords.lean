import Gazetteer.Proofs.Hilbert.Words
import Gazetteer.Proofs.Placement.Contract

/-! The placement along the curve in words, as it runs: a sum or a product that is too large for a
word, a difference below zero, a division by zero, a shift over the whole word, a run of pages that
is none and a square without cells all fail. Settings that were accepted are enough for none of it
to happen, whatever the place and the radius, and the outcome is the one without words. The settings
themselves are judged without a failure whatever they are. -/
namespace Gazetteer

open Hilbert (sum? product? sum?_of_lt product?_of_lt index?)

namespace Words

variable {a b k : Nat}

def difference? (a b : Nat) : Option Nat := if b ≤ a then some (a - b) else none

def quotient? (a b : Nat) : Option Nat := if b = 0 then none else some (a / b)

def remainder? (a b : Nat) : Option Nat := if b = 0 then none else some (a % b)

def power? (k : Nat) : Option Nat := if k < 64 then some (2 ^ k) else none

def saturated (a b : Nat) : Nat := min (a + b) (wordSize - 1)

theorem difference?_of_le (h : b ≤ a) : difference? a b = some (a - b) := if_pos h

theorem quotient?_of_pos (h : 0 < b) : quotient? a b = some (a / b) := if_neg (Nat.ne_of_gt h)

theorem remainder?_of_pos (h : 0 < b) : remainder? a b = some (a % b) := if_neg (Nat.ne_of_gt h)

theorem power?_of_lt (h : k < 64) : power? k = some (2 ^ k) := if_pos h

end Words

open Words

/-- The settings judged in words: a grid is measured only when its order is one. -/
def HilbertSettings.faultWords? (s : HilbertSettings) : Option (Option SettingsFault) :=
  match s.orderFault?, pagesFault? s.maxPages.toNat with
  | some fault, _ => some (some fault)
  | none, some fault => some (some fault)
  | none, none => do
    let n ← power? s.order.toNat
    let values ← product? n n
    if values < s.maxPages.toNat then return some (.curveTooShort s.maxPages.toNat values)
    else if s.region.isEmpty then return some .emptyRegion
    else if s.kmPerGridLat.isPositive ∧ s.kmPerGridLng.isPositive then return none
    else return some .gridUnitNotPositive

/-- A value of the axis as a number of cells; only the greatest number of a cell is made in words. -/
def Hilbert.quantizeWords? (value low high : Float) (order : Nat) : Option Nat := do
  let n ← power? order
  let last ← difference? n 1
  let ratio := (value - low) / (high - low)
  let clamped := if ratio < 0.0 then 0.0 else if 1.0 < ratio then 1.0 else ratio
  return (clamped * last.toUInt64.toFloat).toUInt64.toNat

namespace CellRect

def aroundWords? (c : Cell) (cols rows n : Nat) : Option CellRect := do
  let last ← difference? n 1
  return { firstCol := c.col - cols, lastCol := min (saturated c.col cols) last,
           firstRow := c.row - rows, lastRow := min (saturated c.row rows) last }

def lastCell? (corner : Cell) (width : Nat) : Option Cell := do
  let cols ← sum? corner.col width
  let col ← difference? cols 1
  let rows ← sum? corner.row width
  let row ← difference? rows 1
  return ⟨col, row⟩

def meetsWords? (r : CellRect) (corner : Cell) (width : Nat) : Option Bool := do
  let last ← lastCell? corner width
  return corner.col ≤ r.lastCol ∧ r.firstCol ≤ last.col ∧
    corner.row ≤ r.lastRow ∧ r.firstRow ≤ last.row

def coversWords? (r : CellRect) (corner : Cell) (width : Nat) : Option Bool := do
  let last ← lastCell? corner width
  return r.firstCol ≤ corner.col ∧ last.col ≤ r.lastCol ∧
    r.firstRow ≤ corner.row ∧ last.row ≤ r.lastRow

variable {r : CellRect} {corner : Cell} {width : Nat}

theorem lastCell?_eq (positive : 0 < width) (cols : corner.col + width < wordSize)
    (rows : corner.row + width < wordSize) :
    lastCell? corner width = some ⟨corner.col + width - 1, corner.row + width - 1⟩ := by
  simp [lastCell?, sum?_of_lt cols, sum?_of_lt rows,
    difference?_of_le (by omega : 1 ≤ corner.col + width),
    difference?_of_le (by omega : 1 ≤ corner.row + width)]

theorem meetsWords?_eq (positive : 0 < width) (cols : corner.col + width < wordSize)
    (rows : corner.row + width < wordSize) :
    r.meetsWords? corner width = some (r.meets corner width) := by
  simp only [meetsWords?, lastCell?_eq positive cols rows, Option.bind_eq_bind, Option.bind_some,
    meets]
  apply congrArg some
  rw [decide_eq_decide]
  omega

theorem coversWords?_eq (positive : 0 < width) (cols : corner.col + width < wordSize)
    (rows : corner.row + width < wordSize) :
    r.coversWords? corner width = some (r.covers corner width) := by
  simp only [coversWords?, lastCell?_eq positive cols rows, Option.bind_eq_bind, Option.bind_some,
    covers]
  apply congrArg some
  rw [decide_eq_decide]
  omega

theorem aroundWords?_eq {n : Nat} (positive : 0 < n) (fits : n ≤ wordSize) (c : Cell)
    (cols rows : Nat) : aroundWords? c cols rows n = some (.around c cols rows n) := by
  have lastCol : min (saturated c.col cols) (n - 1) = min (c.col + cols) (n - 1) := by
    unfold saturated
    omega
  have lastRow : min (saturated c.row rows) (n - 1) = min (c.row + rows) (n - 1) := by
    unfold saturated
    omega
  simp [aroundWords?, difference?_of_le positive, lastCol, lastRow, around]

end CellRect

namespace Curve

def rangeWords? (c : Curve) : Option Nat := do
  let n ← power? c.order
  let values ← product? n n
  quotient? values c.maxPages

def pageOfValueWords? (c : Curve) (value : Nat) : Option Nat := do
  let range ← c.rangeWords?
  let page ← quotient? value range
  let last ← difference? c.maxPages 1
  return min page last

def cellWords? (c : Curve) (place : Coordinate) : Option Cell := do
  let region := c.settings.region
  let col ← Hilbert.quantizeWords? place.lng region.minLng.toFloat region.maxLng.toFloat c.order
  let row ← Hilbert.quantizeWords? place.lat region.minLat.toFloat region.maxLat.toFloat c.order
  return ⟨col, row⟩

def pageWords? (c : Curve) (place : Coordinate) : Option Nat := do
  let cell ← c.cellWords? place
  let n ← power? c.order
  let value ← index? n cell
  c.pageOfValueWords? value

/-- First and last page of a square, which have to be the ends of a run of pages. -/
def squareWords? (c : Curve) (corner : Cell) (width : Nat) : Option (Nat × Nat) := do
  let area ← product? width width
  let n ← power? c.order
  let value ← index? n corner
  let squares ← quotient? value area
  let first ← product? squares area
  let low ← c.pageOfValueWords? first
  let behind ← sum? first area
  let last ← difference? behind 1
  let high ← c.pageOfValueWords? last
  if low ≤ high ∧ high < c.maxPages then return (low, high) else none

/-- The runs that are marked for the cells that a rectangle shares with a square. -/
def markWords? (c : Curve) (rect : CellRect) (corner : Cell) (width : Nat) :
    Option (List (Nat × Nat)) :=
  if width = 0 then none
  else do
    let met ← rect.meetsWords? corner width
    let covered ← rect.coversWords? corner width
    if met = false then return []
    else if covered then
      let run ← c.squareWords? corner width
      return [run]
    else
      let half := width / 2
      let col ← sum? corner.col half
      let row ← sum? corner.row half
      let first ← c.markWords? rect corner half
      let second ← c.markWords? rect ⟨corner.col, row⟩ half
      let third ← c.markWords? rect ⟨col, corner.row⟩ half
      let fourth ← c.markWords? rect ⟨col, row⟩ half
      return first ++ second ++ third ++ fourth
termination_by width
decreasing_by all_goals omega

/-- The pages that some run has, as they stand in the table of all pages. -/
def marked (c : Curve) (runs : List (Nat × Nat)) : List Nat :=
  (List.range c.maxPages).filter fun page => runs.any fun run => run.1 ≤ page ∧ page ≤ run.2

def pagesWords? (c : Curve) (place : Coordinate) (radiusKm : Float) :
    Option (Except Fault (List Nat)) :=
  match Radius.checked radiusKm with
  | .error fault => some (.error fault)
  | .ok radius => do
    let n ← power? c.order
    let cell ← c.cellWords? place
    let rect ← CellRect.aroundWords? cell
      (Radius.cells radius c.settings.kmPerGridLng maxSteps)
      (Radius.cells radius c.settings.kmPerGridLat maxSteps) n
    let runs ← c.markWords? rect ⟨0, 0⟩ n
    return .ok (c.marked runs)

end Curve

theorem HilbertSettings.measured {s : HilbertSettings} (low : s.order.toNat ≤ maxOrder) :
    power? s.order.toNat = some s.gridSize ∧
      product? s.gridSize s.gridSize = some (s.gridSize * s.gridSize) := by
  have side : s.gridSize ≤ 2 ^ 31 := Nat.pow_le_pow_right (by decide) low
  have values : s.gridSize * s.gridSize < wordSize :=
    Nat.lt_of_le_of_lt (Nat.mul_le_mul side side) (by decide)
  exact ⟨power?_of_lt (Nat.lt_of_le_of_lt low (by decide)), product?_of_lt values⟩

theorem HilbertSettings.faultWords?_eq (s : HilbertSettings) : s.faultWords? = some s.fault? := by
  unfold faultWords? fault?
  cases order : s.orderFault? with
  | some fault => rfl
  | none =>
    cases pages : pagesFault? s.maxPages.toNat with
    | some fault => rfl
    | none =>
      have low : s.order.toNat ≤ maxOrder := by
        by_contra high
        simp [orderFault?, Nat.lt_of_not_le high] at order
      obtain ⟨side, values⟩ := measured low
      simp only [side, values, Option.bind_eq_bind, Option.bind_some, lengthFault?]
      split
      · rfl
      · split
        · rfl
        · split <;> rfl

theorem Hilbert.quantizeWords?_eq {order : Nat} (small : order ≤ 31) (value low high : Float) :
    quantizeWords? value low high order = some (quantize value low high order) := by
  simp only [quantizeWords?, power?_of_lt (by omega : order < 64),
    difference?_of_le (Nat.two_pow_pos order), Option.bind_eq_bind, Option.bind_some]
  rfl

namespace Curve

variable (c : Curve) {rect : CellRect} {corner : Cell} {k : Nat}

theorem gridSize_le : c.gridSize ≤ 2 ^ 31 := Nat.pow_le_pow_right (by decide) c.order_le

theorem power?_order : power? c.order = some c.gridSize :=
  (HilbertSettings.measured c.order_le).1

theorem rangeWords?_eq : c.rangeWords? = some c.rangePerPage := by
  have values : product? c.gridSize c.gridSize = _ := (HilbertSettings.measured c.order_le).2
  simp only [rangeWords?, c.power?_order, values, Option.bind_eq_bind, Option.bind_some]
  exact quotient?_of_pos c.maxPages_pos

theorem pageOfValueWords?_eq (value : Nat) :
    c.pageOfValueWords? value = some (c.pageOfValue value) := by
  simp only [pageOfValueWords?, c.rangeWords?_eq, quotient?_of_pos c.rangePerPage_pos,
    difference?_of_le c.maxPages_pos, Option.bind_eq_bind, Option.bind_some]
  rfl

theorem cellWords?_eq (place : Coordinate) : c.cellWords? place = some (c.cellOf place) := by
  simp only [cellWords?, Hilbert.quantizeWords?_eq c.order_le, Option.bind_eq_bind,
    Option.bind_some]
  rfl

theorem index?_eq (cell : Cell) :
    index? c.gridSize cell = some (Hilbert.index c.gridSize cell) := by
  have area : 0 + 4 ^ c.order ≤ wordSize := by
    rw [Nat.zero_add]
    exact Nat.pow_le_pow_right (by decide) (Nat.le_trans c.order_le (by decide : 31 ≤ 32))
  have loop := Hilbert.indexLoop_eq c.order_le cell area
  rwa [Nat.zero_add] at loop

theorem pageWords?_eq (place : Coordinate) : c.pageWords? place = some (c.page place) := by
  simp only [pageWords?, c.cellWords?_eq, c.power?_order, c.index?_eq, Option.bind_eq_bind,
    Option.bind_some]
  exact c.pageOfValueWords?_eq _

variable {c}

theorem Cut.bounds (h : c.Cut corner k) :
    corner.col + 2 ^ k ≤ 2 ^ 31 ∧ corner.row + 2 ^ k ≤ 2 ^ 31 :=
  ⟨(h.cornered.bounds h.level).1.trans c.gridSize_le, (h.cornered.bounds h.level).2.trans c.gridSize_le⟩

theorem squareWords?_eq (h : c.Cut corner k) :
    c.squareWords? corner (2 ^ k) = some (c.squareRun corner (2 ^ k)) := by
  have word : wordSize = 2 ^ 64 := rfl
  have width : 2 ^ k ≤ 2 ^ 31 := Nat.le_trans (Nat.le_add_left _ _) h.bounds.1
  have square : 2 ^ k * 2 ^ k ≤ 2 ^ 31 * 2 ^ 31 := Nat.mul_le_mul width width
  have positive : 0 < 2 ^ k * 2 ^ k := Nat.mul_pos (Nat.two_pow_pos k) (Nat.two_pow_pos k)
  have value : Hilbert.index c.gridSize corner < 4 ^ 31 :=
    Nat.lt_of_lt_of_le (Hilbert.index_lt c.order corner)
      (Nat.pow_le_pow_right (by decide) c.order_le)
  have first := Nat.div_mul_le_self (Hilbert.index c.gridSize corner) (2 ^ k * 2 ^ k)
  have run : (c.squareRun corner (2 ^ k)).1 ≤ (c.squareRun corner (2 ^ k)).2 ∧
      (c.squareRun corner (2 ^ k)).2 < c.maxPages :=
    ⟨c.squareRun_ascending corner (2 ^ k), c.pageOfValue_lt _⟩
  simp only [squareRun] at run ⊢
  unfold squareWords?
  simp only [c.power?_order, c.index?_eq, c.pageOfValueWords?_eq, Option.bind_eq_bind,
    product?_of_lt (by omega : 2 ^ k * 2 ^ k < wordSize), Option.bind_some]
  generalize 2 ^ k * 2 ^ k = area at square positive first run ⊢
  rw [quotient?_of_pos positive, Option.bind_some, product?_of_lt (by omega), Option.bind_some,
    sum?_of_lt (by omega), Option.bind_some, difference?_of_le (by omega), Option.bind_some,
    if_pos run]
  rfl

theorem Cut.meetsWords?_eq (h : c.Cut corner k) (rect : CellRect) :
    rect.meetsWords? corner (2 ^ k) = some (rect.meets corner (2 ^ k)) := by
  obtain ⟨col, row⟩ := h.bounds
  have word : wordSize = 2 ^ 64 := rfl
  exact CellRect.meetsWords?_eq (Nat.two_pow_pos k) (by omega) (by omega)

theorem Cut.coversWords?_eq (h : c.Cut corner k) (rect : CellRect) :
    rect.coversWords? corner (2 ^ k) = some (rect.covers corner (2 ^ k)) := by
  obtain ⟨col, row⟩ := h.bounds
  have word : wordSize = 2 ^ 64 := rfl
  exact CellRect.coversWords?_eq (Nat.two_pow_pos k) (by omega) (by omega)

theorem markWords?_of_apart (h : c.Cut corner k) (missed : rect.meets corner (2 ^ k) = false) :
    c.markWords? rect corner (2 ^ k) = some [] := by
  rw [markWords?, if_neg (Nat.ne_of_gt (Nat.two_pow_pos k)), h.meetsWords?_eq, h.coversWords?_eq]
  simp [missed]

theorem markWords?_of_covered (h : c.Cut corner k) (met : rect.meets corner (2 ^ k) = true)
    (covered : rect.covers corner (2 ^ k) = true) :
    c.markWords? rect corner (2 ^ k) = some [c.squareRun corner (2 ^ k)] := by
  rw [markWords?, if_neg (Nat.ne_of_gt (Nat.two_pow_pos k)), h.meetsWords?_eq, h.coversWords?_eq]
  simp [met, covered, squareWords?_eq h]

theorem markWords?_of_cut (h : c.Cut corner (k + 1))
    (met : rect.meets corner (2 ^ (k + 1)) = true)
    (partly : rect.covers corner (2 ^ (k + 1)) = false) :
    c.markWords? rect corner (2 ^ (k + 1)) = (do
      let first ← c.markWords? rect corner (2 ^ k)
      let second ← c.markWords? rect ⟨corner.col, corner.row + 2 ^ k⟩ (2 ^ k)
      let third ← c.markWords? rect ⟨corner.col + 2 ^ k, corner.row⟩ (2 ^ k)
      let fourth ← c.markWords? rect ⟨corner.col + 2 ^ k, corner.row + 2 ^ k⟩ (2 ^ k)
      return first ++ second ++ third ++ fourth) := by
  obtain ⟨col, row⟩ := h.bounds
  have word : wordSize = 2 ^ 64 := rfl
  have positive := Nat.two_pow_pos k
  have right : corner.col + 2 ^ k < wordSize := by omega
  have upper : corner.row + 2 ^ k < wordSize := by omega
  have half : 2 ^ (k + 1) / 2 = 2 ^ k := by omega
  rw [markWords?, if_neg (Nat.ne_of_gt (Nat.two_pow_pos _)), h.meetsWords?_eq, h.coversWords?_eq]
  simp [met, partly, half, sum?_of_lt right, sum?_of_lt upper]

theorem exists_markWords (h : c.Cut corner k) (rect : CellRect) :
    ∃ runs, c.markWords? rect corner (2 ^ k) = some runs ∧ c.Marks rect corner (2 ^ k) runs := by
  induction k generalizing corner with
  | zero =>
    cases met : rect.meets corner (2 ^ 0) with
    | false => exact ⟨_, markWords?_of_apart h met, .apart met⟩
    | true =>
      -- a single cell that is met is covered, so the width never comes to zero
      have covered := covers_of_meets met
      exact ⟨_, markWords?_of_covered h met covered, .whole met covered⟩
  | succ k ih =>
    cases met : rect.meets corner (2 ^ (k + 1)) with
    | false => exact ⟨_, markWords?_of_apart h met, .apart met⟩
    | true =>
      cases covered : rect.covers corner (2 ^ (k + 1)) with
      | true => exact ⟨_, markWords?_of_covered h met covered, .whole met covered⟩
      | false =>
        have half : 2 ^ (k + 1) / 2 = 2 ^ k := by omega
        obtain ⟨first, lowerLeft, marks₁⟩ := ih (h.quadrant (.inl rfl) (.inl rfl))
        obtain ⟨second, upperLeft, marks₂⟩ := ih (h.quadrant (.inl rfl) (.inr rfl))
        obtain ⟨third, lowerRight, marks₃⟩ := ih (h.quadrant (.inr rfl) (.inl rfl))
        obtain ⟨fourth, upperRight, marks₄⟩ := ih (h.quadrant (.inr rfl) (.inr rfl))
        simp only [Nat.add_zero] at lowerLeft upperLeft lowerRight marks₁ marks₂ marks₃
        rw [← half] at marks₁ marks₂ marks₃ marks₄
        refine ⟨_, ?_, .cut met covered marks₁ marks₂ marks₃ marks₄⟩
        rw [markWords?_of_cut h met covered, lowerLeft, upperLeft, lowerRight, upperRight]
        rfl

theorem Listed.lt {width page : Nat} {runs : List (Nat × Nat)}
    (marks : c.Marks rect corner width runs) (listed : Listed runs page) : page < c.maxPages := by
  obtain ⟨run, member, -, last⟩ := listed
  exact Nat.lt_of_le_of_lt last (marks_inside marks run member).2

theorem mem_marked_iff {width page : Nat} {runs : List (Nat × Nat)}
    (marks : c.Marks rect corner width runs) : page ∈ c.marked runs ↔ Listed runs page := by
  have listed : (runs.any fun run => run.1 ≤ page ∧ page ≤ run.2) = true ↔ Listed runs page := by
    simp [Listed]
  rw [marked, List.mem_filter, List.mem_range, listed]
  exact ⟨And.right, fun shown => ⟨shown.lt marks, shown⟩⟩

theorem marked_eq {centre : Cell} (inside : centre.Within c.gridSize) (cols rows : Nat)
    {runs : List (Nat × Nat)}
    (marks : c.Marks (.around centre cols rows c.gridSize) ⟨0, 0⟩ c.gridSize runs) :
    c.marked runs = c.pagesIn (.around centre cols rows c.gridSize) := by
  apply List.Pairwise.eq_of_mem_iff (r := (· < ·))
  · exact List.pairwise_lt_range.filter _
  · exact PageList.pairwise_union _
  · intro page
    calc page ∈ c.marked runs
      _ ↔ Listed runs page := mem_marked_iff marks
      _ ↔ c.Shows (.around centre cols rows c.gridSize) ⟨0, 0⟩ (2 ^ c.order) page :=
        listed_marks_iff marks rfl c.cut_root
      _ ↔ c.Walked centre cols rows page := c.shows_root_iff centre cols rows page
      _ ↔ page ∈ c.pagesIn (.around centre cols rows c.gridSize) :=
        (c.mem_pagesIn_iff inside cols rows page).symm

theorem pagesWords?_eq (c : Curve) (place : Coordinate) (radiusKm : Float) :
    c.pagesWords? place radiusKm = some (c.pages place radiusKm) := by
  unfold pagesWords? pages
  cases Radius.checked radiusKm with
  | error fault => rfl
  | ok radius =>
    have positive : 0 < c.gridSize := Nat.two_pow_pos _
    have fits : c.gridSize ≤ wordSize := c.gridSize_le.trans (by decide)
    have ⟨runs, words, marks⟩ := exists_markWords c.cut_root (c.rectAround place radius)
    change c.markWords? (c.rectAround place radius) ⟨0, 0⟩ c.gridSize = some runs at words
    have all : c.marked runs = c.pagesIn (c.rectAround place radius) :=
      marked_eq (c.cellOf_within place) _ _ marks
    rw [rectAround] at words all
    simp only [c.power?_order, c.cellWords?_eq, CellRect.aroundWords?_eq positive fits, words, all,
      Option.bind_eq_bind, Option.bind_some]
    rfl

end Curve

end Gazetteer
