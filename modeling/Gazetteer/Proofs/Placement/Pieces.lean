import Gazetteer.Proofs.Hilbert.Neighbours
import Gazetteer.Proofs.Placement.Marking

/-! The pieces that the curve is cut into, one a page. All pieces have the same length, and the last
page also has what is left over; so a walk along the curve, from each cell to a cell beside it, comes
through the pages in ascending order and skips none. -/
namespace Gazetteer.Curve

variable {c : Curve} {page : Nat}

theorem pages_fit (c : Curve) : c.maxPages * c.rangePerPage ≤ c.gridSize * c.gridSize :=
  Nat.mul_div_le _ _

theorem pageOfValue_eq_iff (more : page + 1 < c.maxPages) (value : Nat) :
    c.pageOfValue value = page ↔
      page * c.rangePerPage ≤ value ∧ value < (page + 1) * c.rangePerPage := by
  have quotient : c.pageOfValue value = page ↔ value / c.rangePerPage = page := by
    unfold pageOfValue
    omega
  rw [quotient, Nat.div_eq_iff c.rangePerPage_pos, Nat.add_mul, Nat.one_mul]
  have positive := c.rangePerPage_pos
  omega

theorem pageOfValue_eq_last_iff (c : Curve) (value : Nat) :
    c.pageOfValue value = c.maxPages - 1 ↔ (c.maxPages - 1) * c.rangePerPage ≤ value := by
  rw [← Nat.le_div_iff_mul_le c.rangePerPage_pos]
  unfold pageOfValue
  omega

theorem pageOfValue_succ (c : Curve) (value : Nat) :
    c.pageOfValue (value + 1) = c.pageOfValue value ∨
      c.pageOfValue (value + 1) = c.pageOfValue value + 1 := by
  have quotient : (value + 1) / c.rangePerPage = _ := Nat.succ_div
  unfold pageOfValue
  split at quotient
  · omega
  · omega

theorem piece_le {k : Nat} (more : k ≤ c.maxPages) :
    k * c.rangePerPage ≤ c.gridSize * c.gridSize :=
  Nat.le_trans (Nat.mul_le_mul_right _ more) c.pages_fit

theorem piece_lt (c : Curve) (k : Nat) : k * c.rangePerPage < (k + 1) * c.rangePerPage :=
  Nat.mul_lt_mul_of_pos_right (Nat.lt_succ_self k) c.rangePerPage_pos

/-- A step along the curve leads to a cell beside the one before, on its page or the next; and the
pages divide the curve into as many stretches, none of them empty. -/
theorem beside_and_pieces (c : Curve) :
    (∀ d, d + 1 < c.gridSize * c.gridSize →
      (Hilbert.cell c.gridSize d).Beside (Hilbert.cell c.gridSize (d + 1)) ∧
        (c.pageOfValue (d + 1) = c.pageOfValue d ∨
          c.pageOfValue (d + 1) = c.pageOfValue d + 1)) ∧
    (∀ page, page + 1 < c.maxPages →
      page * c.rangePerPage < (page + 1) * c.rangePerPage ∧
        (page + 1) * c.rangePerPage ≤ c.gridSize * c.gridSize ∧
        ∀ value < c.gridSize * c.gridSize, c.pageOfValue value = page ↔
          page * c.rangePerPage ≤ value ∧ value < (page + 1) * c.rangePerPage) ∧
    (c.maxPages - 1) * c.rangePerPage < c.gridSize * c.gridSize ∧
    ∀ value < c.gridSize * c.gridSize, c.pageOfValue value = c.maxPages - 1 ↔
      (c.maxPages - 1) * c.rangePerPage ≤ value := by
  have pages := c.maxPages_pos
  refine ⟨?_, ?_, ?_, fun value _ => c.pageOfValue_eq_last_iff value⟩
  · intro d more
    have area : c.gridSize * c.gridSize = 4 ^ c.order :=
      (Nat.mul_pow 2 2 c.order).symm
    rw [area] at more
    have fits : c.order ≤ 64 := Nat.le_trans c.order_le (by decide)
    exact ⟨Hilbert.cell_beside fits more, c.pageOfValue_succ d⟩
  · intro page more
    exact ⟨c.piece_lt page, piece_le (by omega), fun value _ => pageOfValue_eq_iff more value⟩
  · have last := c.piece_lt (c.maxPages - 1)
    rw [Nat.sub_add_cancel pages] at last
    exact Nat.lt_of_lt_of_le last c.pages_fit

/-- A grid of four by four cells on five pages: the curve passes on to the second quadrant, and the
last page has the place that is left over. -/
theorem beside_and_pieces_small : ∃ c : Curve, c.gridSize = 4 ∧
    (Hilbert.cell c.gridSize 3).Beside (Hilbert.cell c.gridSize 4) ∧
    c.pageOfValue 8 = 2 ∧ c.pageOfValue 15 = 4 := by
  let c : Curve := ⟨{ order := 2, maxPages := 5 }, by decide +kernel⟩
  have range : c.rangePerPage = 3 := by decide +kernel
  have pages : c.maxPages = 5 := by decide +kernel
  obtain ⟨steps, pieces, -, last⟩ := beside_and_pieces c
  refine ⟨c, rfl, (steps 3 (by decide +kernel)).1, ?_, ?_⟩
  · rw [(pieces 2 (by omega)).2.2 8 (by decide +kernel), range]
    decide
  · have left := (last 15 (by decide +kernel)).mpr
    rw [range, pages] at left
    exact left (by decide)

end Gazetteer.Curve
