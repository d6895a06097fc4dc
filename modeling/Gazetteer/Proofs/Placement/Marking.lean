import Gazetteer.Placement.Curve
import Gazetteer.Proofs.Hilbert.Stretches

/-! The pages of the cells of a rectangle, without a visit to each cell. The grid is cut into squares,
and of a square that the rectangle has as a whole the pages from the first to the last are taken.
That gives the pages of all cells and no others: the values of a square are one stretch of the curve,
and a stretch comes to every page between the pages of its ends. -/
namespace Gazetteer

namespace CellRect

structure Has (r : CellRect) (c : Cell) : Prop where
  fromCol : r.firstCol ≤ c.col
  toCol : c.col ≤ r.lastCol
  fromRow : r.firstRow ≤ c.row
  toRow : c.row ≤ r.lastRow

end CellRect

namespace Curve

/-- The squares that are marked for a rectangle, as the runs of their pages: none of a square that
misses the rectangle, all of one that lies in it, and of any other those of its four quadrants. -/
inductive Marks (c : Curve) (rect : CellRect) : Cell → Nat → List (Nat × Nat) → Prop where
  | apart {corner : Cell} {width : Nat} (missed : rect.meets corner width = false) :
      Marks c rect corner width []
  | whole {corner : Cell} {width : Nat} (met : rect.meets corner width = true)
      (covered : rect.covers corner width = true) :
      Marks c rect corner width [c.squareRun corner width]
  | cut {corner : Cell} {width : Nat} {first second third fourth : List (Nat × Nat)}
      (met : rect.meets corner width = true) (partly : rect.covers corner width = false)
      (lowerLeft : Marks c rect corner (width / 2) first)
      (upperLeft : Marks c rect ⟨corner.col, corner.row + width / 2⟩ (width / 2) second)
      (lowerRight : Marks c rect ⟨corner.col + width / 2, corner.row⟩ (width / 2) third)
      (upperRight :
        Marks c rect ⟨corner.col + width / 2, corner.row + width / 2⟩ (width / 2) fourth) :
      Marks c rect corner width (first ++ second ++ third ++ fourth)

def Listed (runs : List (Nat × Nat)) (page : Nat) : Prop := ∃ run ∈ runs, run.1 ≤ page ∧ page ≤ run.2

/-- A page of a cell that a rectangle shares with a square. -/
def Shows (c : Curve) (rect : CellRect) (corner : Cell) (width page : Nat) : Prop :=
  ∃ cell : Cell, rect.Has cell ∧ cell.InSquare corner width ∧
    c.pageOfValue (Hilbert.index c.gridSize cell) = page

/-- A page of a cell at most so many columns and rows from one. -/
def Walked (c : Curve) (centre : Cell) (cols rows page : Nat) : Prop :=
  ∃ col row : Nat, centre.col - cols ≤ col ∧ col ≤ min (centre.col + cols) (c.gridSize - 1) ∧
    centre.row - rows ≤ row ∧ row ≤ min (centre.row + rows) (c.gridSize - 1) ∧
    c.pageOfValue (Hilbert.index c.gridSize ⟨col, row⟩) = page

variable {c : Curve} {rect : CellRect} {corner : Cell} {page : Nat}

theorem rangePerPage_pos (c : Curve) : 0 < c.rangePerPage :=
  Nat.div_pos ((HilbertSettings.fault?_eq_none_iff _).mp c.accepted).2.2.1 c.maxPages_pos

theorem order_le (c : Curve) : c.order ≤ 31 :=
  ((HilbertSettings.fault?_eq_none_iff _).mp c.accepted).1.2

theorem pageOfValue_mono (c : Curve) {a b : Nat} (ascending : a ≤ b) :
    c.pageOfValue a ≤ c.pageOfValue b := by
  have quotients := Nat.div_le_div_right (c := c.rangePerPage) ascending
  unfold pageOfValue
  omega

theorem exists_value {first last : Nat} (above : c.pageOfValue first ≤ page)
    (below : page ≤ c.pageOfValue last) (ascending : first ≤ last) :
    ∃ value, first ≤ value ∧ value ≤ last ∧ c.pageOfValue value = page := by
  rcases Nat.eq_or_lt_of_le above with same | behind
  · exact ⟨first, Nat.le_refl first, ascending, same⟩
  · -- the page begins on the stretch
    have positive := c.rangePerPage_pos
    have pages := c.maxPages_pos
    refine ⟨page * c.rangePerPage, ?_, ?_, ?_⟩
    · have started : first / c.rangePerPage < page := by
        unfold pageOfValue at behind below
        omega
      exact Nat.le_of_lt ((Nat.div_lt_iff_lt_mul positive).mp started)
    · have reached : page ≤ last / c.rangePerPage := by
        unfold pageOfValue at below
        omega
      exact (Nat.le_div_iff_mul_le positive).mp reached
    · unfold pageOfValue at below ⊢
      rw [Nat.mul_div_cancel _ positive]
      omega

/-- A square that the grid is cut into, of width `2 ^ k`. -/
structure Cut (c : Curve) (corner : Cell) (k : Nat) : Prop where
  level : k ≤ c.order
  col : 2 ^ k ∣ corner.col
  row : 2 ^ k ∣ corner.row
  inside : corner.Within c.gridSize

theorem cut_root (c : Curve) : c.Cut ⟨0, 0⟩ c.order where
  level := Nat.le_refl _
  col := Nat.dvd_zero _
  row := Nat.dvd_zero _
  inside := ⟨Nat.two_pow_pos _, Nat.two_pow_pos _⟩

theorem Cut.cornered {k : Nat} (h : c.Cut corner k) : Hilbert.Corner c.order k corner :=
  ⟨h.inside, h.col, h.row⟩

theorem Cut.within {k : Nat} (h : c.Cut corner k) {cell : Cell}
    (inside : cell.InSquare corner (2 ^ k)) : cell.Within c.gridSize :=
  h.cornered.within_of_inSquare h.level inside

theorem Cut.place_iff {k : Nat} (h : c.Cut corner k) {cell : Cell}
    (within : cell.Within c.gridSize) :
    cell.InSquare corner (2 ^ k) ↔
      Hilbert.index c.gridSize cell / 4 ^ k = Hilbert.index c.gridSize corner / 4 ^ k :=
  h.cornered.inSquare_iff_div (Nat.le_trans c.order_le (by decide)) h.level within

theorem Cut.run_iff {k : Nat} (h : c.Cut corner k) :
    (c.squareRun corner (2 ^ k)).1 ≤ page ∧ page ≤ (c.squareRun corner (2 ^ k)).2 ↔
      ∃ cell : Cell, cell.InSquare corner (2 ^ k) ∧
        c.pageOfValue (Hilbert.index c.gridSize cell) = page := by
  have area : 2 ^ k * 2 ^ k = 4 ^ k := by rw [← Nat.mul_pow]
  have positive : 0 < 4 ^ k := Nat.pow_pos (by decide)
  have fits : c.order ≤ 64 := Nat.le_trans c.order_le (by decide)
  simp only [squareRun, area]
  constructor
  · rintro ⟨above, below⟩
    obtain ⟨value, from_first, to_last, here⟩ := exists_value above below (by omega)
    have stretch : value / 4 ^ k = Hilbert.index c.gridSize corner / 4 ^ k := by
      rw [Nat.div_eq_iff positive]
      omega
    have inside : value < 4 ^ c.order := Hilbert.lt_of_div_eq h.level stretch
    have within : (Hilbert.cell c.gridSize value).Within c.gridSize := Hilbert.cell_within fits value
    have place : Hilbert.index c.gridSize (Hilbert.cell c.gridSize value) = value :=
      Hilbert.index_cell fits inside
    -- the square has all cells of its stretch, so also that of the value that shows the page
    refine ⟨Hilbert.cell c.gridSize value, ?_, ?_⟩
    · rw [h.place_iff within, place]
      exact stretch
    · rw [place]
      exact here
  · rintro ⟨cell, inside, rfl⟩
    have stretch := (h.place_iff (h.within inside)).mp inside
    rw [Nat.div_eq_iff positive] at stretch
    exact ⟨c.pageOfValue_mono (by omega), c.pageOfValue_mono (by omega)⟩

theorem listed_nil_iff {width : Nat} (missed : rect.meets corner width = false) :
    Listed [] page ↔ c.Shows rect corner width page := by
  constructor
  · rintro ⟨run, none, -⟩
    cases none
  · rintro ⟨cell, ⟨left, right, lower, upper⟩, ⟨fromCol, toCol, fromRow, toRow⟩, -⟩
    exact (of_decide_eq_false missed ⟨by omega, by omega, by omega, by omega⟩).elim

theorem Cut.run_iff_of_covers {k : Nat} (h : c.Cut corner k)
    (covered : rect.covers corner (2 ^ k) = true) :
    (c.squareRun corner (2 ^ k)).1 ≤ page ∧ page ≤ (c.squareRun corner (2 ^ k)).2 ↔
      c.Shows rect corner (2 ^ k) page := by
  obtain ⟨left, right, lower, upper⟩ := of_decide_eq_true covered
  rw [h.run_iff]
  constructor
  · rintro ⟨cell, square, here⟩
    have ⟨fromCol, toCol, fromRow, toRow⟩ := square
    exact ⟨cell, ⟨by omega, by omega, by omega, by omega⟩, square, here⟩
  · rintro ⟨cell, -, inside, here⟩
    exact ⟨cell, inside, here⟩

theorem exists_common {width : Nat} (cols : rect.firstCol ≤ rect.lastCol)
    (rows : rect.firstRow ≤ rect.lastRow) (positive : 0 < width)
    (met : rect.meets corner width = true) :
    ∃ cell : Cell, rect.Has cell ∧ cell.InSquare corner width := by
  obtain ⟨right, left, upper, lower⟩ := of_decide_eq_true met
  refine ⟨⟨max rect.firstCol corner.col, max rect.firstRow corner.row⟩, ⟨?_, ?_, ?_, ?_⟩,
    ⟨?_, ?_, ?_, ?_⟩⟩ <;> simp only <;> omega

/-- If all cells of a square are on one page, then so are those that the rectangle has. -/
theorem Cut.run_iff_of_one_page {k : Nat} (h : c.Cut corner k)
    (cols : rect.firstCol ≤ rect.lastCol) (rows : rect.firstRow ≤ rect.lastRow)
    (met : rect.meets corner (2 ^ k) = true)
    (one : (c.squareRun corner (2 ^ k)).1 = (c.squareRun corner (2 ^ k)).2) :
    (c.squareRun corner (2 ^ k)).1 ≤ page ∧ page ≤ (c.squareRun corner (2 ^ k)).2 ↔
      c.Shows rect corner (2 ^ k) page := by
  constructor
  · rintro ⟨above, below⟩
    obtain ⟨cell, has, inside⟩ := exists_common cols rows (Nat.two_pow_pos k) met
    obtain ⟨from_first, to_last⟩ := h.run_iff.mpr ⟨cell, inside, rfl⟩
    exact ⟨cell, has, inside, by omega⟩
  · rintro ⟨cell, -, inside, here⟩
    exact h.run_iff.mpr ⟨cell, inside, here⟩

theorem shows_cut (k : Nat) :
    c.Shows rect corner (2 ^ (k + 1)) page ↔
      c.Shows rect corner (2 ^ k) page ∨
        c.Shows rect ⟨corner.col, corner.row + 2 ^ k⟩ (2 ^ k) page ∨
        c.Shows rect ⟨corner.col + 2 ^ k, corner.row⟩ (2 ^ k) page ∨
        c.Shows rect ⟨corner.col + 2 ^ k, corner.row + 2 ^ k⟩ (2 ^ k) page := by
  have twice : 2 ^ (k + 1) = 2 ^ k + 2 ^ k := by omega
  constructor
  · rintro ⟨cell, has, ⟨fromCol, toCol, fromRow, toRow⟩, here⟩
    rw [twice] at toCol toRow
    rcases Nat.lt_or_ge cell.col (corner.col + 2 ^ k) with left | right
    · rcases Nat.lt_or_ge cell.row (corner.row + 2 ^ k) with lower | upper
      · exact .inl ⟨cell, has, ⟨fromCol, left, fromRow, lower⟩, here⟩
      · exact .inr (.inl ⟨cell, has, ⟨fromCol, left, upper, by simp only; omega⟩, here⟩)
    · rcases Nat.lt_or_ge cell.row (corner.row + 2 ^ k) with lower | upper
      · exact .inr (.inr (.inl ⟨cell, has, ⟨right, by simp only; omega, fromRow, lower⟩, here⟩))
      · exact .inr (.inr (.inr ⟨cell, has,
          ⟨right, by simp only; omega, upper, by simp only; omega⟩, here⟩))
  · have wider : ∀ {inner : Cell}, corner.col ≤ inner.col → inner.col ≤ corner.col + 2 ^ k →
        corner.row ≤ inner.row → inner.row ≤ corner.row + 2 ^ k →
        c.Shows rect inner (2 ^ k) page → c.Shows rect corner (2 ^ (k + 1)) page := by
      rintro inner left right lower upper ⟨cell, has, ⟨fromCol, toCol, fromRow, toRow⟩, here⟩
      exact ⟨cell, has, ⟨by omega, by omega, by omega, by omega⟩, here⟩
    rintro (quadrant | quadrant | quadrant | quadrant)
    · exact wider (by simp) (by simp) (by simp) (by simp) quadrant
    · exact wider (by simp) (by simp) (by simp) (by simp) quadrant
    · exact wider (by simp) (by simp) (by simp) (by simp) quadrant
    · exact wider (by simp) (by simp) (by simp) (by simp) quadrant

theorem listed_append {first second : List (Nat × Nat)} :
    Listed (first ++ second) page ↔ Listed first page ∨ Listed second page := by
  simp only [Listed, List.mem_append, or_and_right, exists_or]

theorem listed_singleton {run : Nat × Nat} : Listed [run] page ↔ run.1 ≤ page ∧ page ≤ run.2 := by
  simp [Listed]

theorem Cut.quadrant {k : Nat} (h : c.Cut corner (k + 1)) {cols rows : Nat}
    (right : cols = 0 ∨ cols = 2 ^ k) (upper : rows = 0 ∨ rows = 2 ^ k) :
    c.Cut ⟨corner.col + cols, corner.row + rows⟩ k := by
  have half : 2 ^ k ∣ 2 ^ (k + 1) := pow_dvd_pow 2 (Nat.le_succ k)
  have twice : 2 ^ (k + 1) = 2 ^ k + 2 ^ k := by omega
  have positive := Nat.two_pow_pos k
  have size : c.gridSize = 2 ^ c.order := rfl
  obtain ⟨lastCol, lastRow⟩ := h.cornered.bounds h.level
  refine ⟨Nat.le_of_succ_le h.level, Nat.dvd_add (half.trans h.col) ?_,
    Nat.dvd_add (half.trans h.row) ?_, ⟨?_, ?_⟩⟩
  · rcases right with rfl | rfl
    · exact Nat.dvd_zero _
    · exact Nat.dvd_refl _
  · rcases upper with rfl | rfl
    · exact Nat.dvd_zero _
    · exact Nat.dvd_refl _
  · simp only
    omega
  · simp only
    omega

theorem covers_of_meets (met : rect.meets corner (2 ^ 0) = true) :
    rect.covers corner (2 ^ 0) = true := by
  obtain ⟨right, left, upper, lower⟩ := of_decide_eq_true met
  exact decide_eq_true ⟨by omega, by omega, by omega, by omega⟩

/-- Marking ends, since a single cell is not cut. -/
theorem exists_marks (c : Curve) (rect : CellRect) (k : Nat) (corner : Cell) :
    ∃ runs, c.Marks rect corner (2 ^ k) runs := by
  induction k generalizing corner with
  | zero =>
    cases met : rect.meets corner (2 ^ 0) with
    | false => exact ⟨_, .apart met⟩
    | true => exact ⟨_, .whole met (covers_of_meets met)⟩
  | succ k ih =>
    have half : 2 ^ (k + 1) / 2 = 2 ^ k := by omega
    cases met : rect.meets corner (2 ^ (k + 1)) with
    | false => exact ⟨_, .apart met⟩
    | true =>
      cases covered : rect.covers corner (2 ^ (k + 1)) with
      | true => exact ⟨_, .whole met covered⟩
      | false =>
        obtain ⟨first, lowerLeft⟩ := ih corner
        obtain ⟨second, upperLeft⟩ := ih ⟨corner.col, corner.row + 2 ^ k⟩
        obtain ⟨third, lowerRight⟩ := ih ⟨corner.col + 2 ^ k, corner.row⟩
        obtain ⟨fourth, upperRight⟩ := ih ⟨corner.col + 2 ^ k, corner.row + 2 ^ k⟩
        rw [← half] at lowerLeft upperLeft lowerRight upperRight
        exact ⟨_, .cut met covered lowerLeft upperLeft lowerRight upperRight⟩

theorem squareRun_ascending (c : Curve) (corner : Cell) (width : Nat) :
    (c.squareRun corner width).1 ≤ (c.squareRun corner width).2 := by
  simp only [squareRun]
  apply pageOfValue_mono
  cases width * width with
  | zero => simp
  | succ area => omega

theorem marks_inside {width : Nat} {runs : List (Nat × Nat)}
    (marks : c.Marks rect corner width runs) :
    ∀ run ∈ runs, run.1 ≤ run.2 ∧ run.2 < c.maxPages := by
  induction marks with
  | apart missed =>
    intro run none
    cases none
  | whole met covered =>
    intro run taken
    cases List.mem_singleton.mp taken
    exact ⟨c.squareRun_ascending _ _, c.pageOfValue_lt _⟩
  | cut met partly lowerLeft upperLeft lowerRight upperRight ih₁ ih₂ ih₃ ih₄ =>
    intro run taken
    simp only [List.mem_append] at taken
    rcases taken with ((first | second) | third) | fourth
    · exact ih₁ run first
    · exact ih₂ run second
    · exact ih₃ run third
    · exact ih₄ run fourth

theorem listed_marks_iff {width k : Nat} {runs : List (Nat × Nat)}
    (marks : c.Marks rect corner width runs) (size : width = 2 ^ k) (h : c.Cut corner k) :
    Listed runs page ↔ c.Shows rect corner width page := by
  induction marks generalizing k with
  | apart missed => exact listed_nil_iff missed
  | whole met covered =>
    subst size
    exact listed_singleton.trans (h.run_iff_of_covers covered)
  | cut met partly lowerLeft upperLeft lowerRight upperRight ih₁ ih₂ ih₃ ih₄ =>
    subst size
    cases k with
    | zero =>
      -- a single cell that is met is covered, so it is never cut
      rw [covers_of_meets met] at partly
      cases partly
    | succ k =>
      have half : 2 ^ (k + 1) / 2 = 2 ^ k := by omega
      rw [half] at ih₁ ih₂ ih₃ ih₄
      have first := ih₁ rfl (h.quadrant (.inl rfl) (.inl rfl))
      have second := ih₂ rfl (h.quadrant (.inl rfl) (.inr rfl))
      have third := ih₃ rfl (h.quadrant (.inr rfl) (.inl rfl))
      have fourth := ih₄ rfl (h.quadrant (.inr rfl) (.inr rfl))
      rw [listed_append, listed_append, listed_append, shows_cut, or_assoc, or_assoc]
      exact or_congr first (or_congr second (or_congr third fourth))

/-- The runs of a square, where a square with all its cells on one page is not cut either. -/
theorem listed_runs_iff {k : Nat} (cols : rect.firstCol ≤ rect.lastCol)
    (rows : rect.firstRow ≤ rect.lastRow) (h : c.Cut corner k) :
    Listed (c.runs rect k corner) page ↔ c.Shows rect corner (2 ^ k) page := by
  induction k generalizing corner with
  | zero =>
    rw [runs]
    split
    · next met => exact listed_singleton.trans (h.run_iff_of_covers (covers_of_meets met))
    · next apart => exact listed_nil_iff (by simpa using apart)
  | succ k ih =>
    rw [runs]
    split
    · next met =>
      simp only
      split
      · next taken =>
        rcases taken with one | covered
        · exact listed_singleton.trans (h.run_iff_of_one_page cols rows met one)
        · exact listed_singleton.trans (h.run_iff_of_covers covered)
      · have first := ih (h.quadrant (.inl rfl) (.inl rfl))
        have second := ih (h.quadrant (.inl rfl) (.inr rfl))
        have third := ih (h.quadrant (.inr rfl) (.inl rfl))
        have fourth := ih (h.quadrant (.inr rfl) (.inr rfl))
        rw [listed_append, listed_append, listed_append, shows_cut, or_assoc, or_assoc]
        exact or_congr first (or_congr second (or_congr third fourth))
    · next apart => exact listed_nil_iff (by simpa using apart)

theorem shows_root_iff (c : Curve) (centre : Cell) (cols rows page : Nat) :
    c.Shows (.around centre cols rows c.gridSize) ⟨0, 0⟩ (2 ^ c.order) page ↔
      c.Walked centre cols rows page := by
  constructor
  · rintro ⟨cell, ⟨left, right, lower, upper⟩, -, here⟩
    exact ⟨cell.col, cell.row, left, right, lower, upper, here⟩
  · rintro ⟨col, row, left, right, lower, upper, here⟩
    have size : c.gridSize = 2 ^ c.order := rfl
    have width := Nat.two_pow_pos c.order
    refine ⟨⟨col, row⟩, ⟨left, right, lower, upper⟩, ⟨Nat.zero_le _, ?_, Nat.zero_le _, ?_⟩, here⟩
    · simp only
      omega
    · simp only
      omega

theorem mem_pagesIn_iff (c : Curve) {centre : Cell} (inside : centre.Within c.gridSize)
    (cols rows page : Nat) :
    page ∈ c.pagesIn (.around centre cols rows c.gridSize) ↔ c.Walked centre cols rows page := by
  have col := inside.col
  have row := inside.row
  rw [pagesIn, PageList.mem_union, ← shows_root_iff]
  refine listed_runs_iff ?_ ?_ c.cut_root
  · simp only [CellRect.around]
    omega
  · simp only [CellRect.around]
    omega

/-- The pages that a search looks at are those of a walk over all cells of its rectangle, whether
squares are marked or their runs are put together, in ascending order. -/
theorem pages_eq_walk (c : Curve) (centre : Cell) (col : centre.col < c.gridSize)
    (row : centre.row < c.gridSize) (cols rows : Nat) :
    (∃ marked, c.Marks (.around centre cols rows c.gridSize) ⟨0, 0⟩ c.gridSize marked) ∧
    (∀ marked, c.Marks (.around centre cols rows c.gridSize) ⟨0, 0⟩ c.gridSize marked →
      (∀ run ∈ marked, run.1 ≤ run.2 ∧ run.2 < c.maxPages) ∧
        ∀ page, Listed marked page ↔ c.Walked centre cols rows page) ∧
    (c.pagesIn (.around centre cols rows c.gridSize)).Pairwise (· < ·) ∧
    (∀ page, page ∈ c.pagesIn (.around centre cols rows c.gridSize) ↔
      c.Walked centre cols rows page) ∧
    ∀ place radiusKm radius, c.cellOf place = centre → Radius.checked radiusKm = .ok radius →
      Radius.cells radius c.settings.kmPerGridLng maxSteps = cols →
      Radius.cells radius c.settings.kmPerGridLat maxSteps = rows →
      c.pages place radiusKm = .ok (c.pagesIn (.around centre cols rows c.gridSize)) := by
  refine ⟨exists_marks c _ c.order _, ?_, PageList.pairwise_union _, ?_, ?_⟩
  · intro marked marks
    exact ⟨marks_inside marks, fun page =>
      (listed_marks_iff marks rfl c.cut_root).trans (c.shows_root_iff centre cols rows page)⟩
  · exact c.mem_pagesIn_iff ⟨col, row⟩ cols rows
  · intro place radiusKm radius here checked right upper
    subst here right upper
    rw [pages, checked]
    rfl

/-- A grid of four by four cells on five pages: three cells beside one another, and a search. -/
theorem pages_eq_walk_small : ∃ c : Curve, c.gridSize = 4 ∧
    4 ∈ c.pagesIn (.around ⟨1, 1⟩ 1 0 c.gridSize) ∧
    c.pages ⟨37.5, 127.0⟩ 1.0 = .ok (c.pagesIn (c.rectAround ⟨37.5, 127.0⟩ 1.0)) := by
  let c : Curve := ⟨{ order := 2, maxPages := 5 }, by decide +kernel⟩
  have size : c.gridSize = 4 := rfl
  have page : c.pageOfValue (Hilbert.index c.gridSize ⟨2, 1⟩) = 4 := by decide +kernel
  have row := pages_eq_walk c ⟨1, 1⟩ (by decide +kernel) (by decide +kernel) 1 0
  have around := pages_eq_walk c (c.cellOf ⟨37.5, 127.0⟩) (by decide +kernel) (by decide +kernel)
    (Radius.cells 1.0 c.settings.kmPerGridLng maxSteps)
    (Radius.cells 1.0 c.settings.kmPerGridLat maxSteps)
  refine ⟨c, size, ?_, ?_⟩
  · exact (row.2.2.2.1 4).mpr ⟨2, 1, by decide, by decide, by decide, by decide, page⟩
  · exact around.2.2.2.2 ⟨37.5, 127.0⟩ 1.0 1.0 rfl (by decide +kernel) rfl rfl

end Curve

end Gazetteer
