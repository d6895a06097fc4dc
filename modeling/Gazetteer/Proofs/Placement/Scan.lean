import Gazetteer.Placement.ZOrder
import Gazetteer.Proofs.Grid.Weave
import Mathlib.Data.Finset.Card
import Mathlib.Data.List.Nodup

/-! The pages of the cells around one, row by row. The scan stops once all pages are seen, and what
is left out then could show no page that is new; so it comes to the same as a scan of all cells. -/
namespace Gazetteer

namespace FirstSeen

variable {s : FirstSeen} {limit : Nat}

/-- The list and the set have the same ids, all of them below `limit`. -/
structure Sound (limit : Nat) (s : FirstSeen) : Prop where
  nodup : s.newestFirst.Nodup
  mem : ∀ id, id ∈ s.members ↔ id ∈ s.newestFirst
  size : s.members.size = s.newestFirst.length
  low : ∀ id ∈ s.newestFirst, id < limit

def visitAll (s : FirstSeen) (ids : List Nat) : FirstSeen := ids.foldl visit s

theorem sound_empty (limit : Nat) : Sound limit {} where
  nodup := List.nodup_nil
  mem := by simp
  size := rfl
  low := by simp

theorem Sound.visit (h : s.Sound limit) {id : Nat} (below : id < limit) :
    (s.visit id).Sound limit := by
  unfold FirstSeen.visit
  split
  · exact h
  · next fresh =>
    have new : id ∉ s.newestFirst := fun old => fresh ((h.mem id).mpr old)
    refine ⟨List.nodup_cons.mpr ⟨new, h.nodup⟩, ?_, ?_, ?_⟩
    · intro other
      rw [Std.HashSet.mem_insert, beq_iff_eq, List.mem_cons, h.mem]
      exact or_congr_left eq_comm
    · rw [Std.HashSet.size_insert, if_neg fresh, h.size]
      rfl
    · intro other listed
      rcases List.mem_cons.mp listed with rfl | old
      · exact below
      · exact h.low other old

theorem Sound.visitAll (h : s.Sound limit) {ids : List Nat} (below : ∀ id ∈ ids, id < limit) :
    (s.visitAll ids).Sound limit := by
  induction ids generalizing s with
  | nil => exact h
  | cons id ids ih =>
    exact ih (h.visit (below id List.mem_cons_self)) fun other later =>
      below other (List.mem_cons_of_mem id later)

theorem mem_visitAll (s : FirstSeen) (ids : List Nat) (id : Nat) :
    id ∈ (s.visitAll ids).members ↔ id ∈ ids ∨ id ∈ s.members := by
  induction ids generalizing s with
  | nil => simp [visitAll]
  | cons first ids ih =>
    change id ∈ ((s.visit first).visitAll ids).members ↔ _
    rw [ih, mem_visit, List.mem_cons]
    tauto

/-- As many different ids as there are below a limit are all of them. -/
theorem Sound.mem_of_isFull (h : s.Sound limit) (full : s.isFull limit = true) {id : Nat}
    (below : id < limit) : id ∈ s.members := by
  have size : s.members.size = limit := of_decide_eq_true full
  have within : s.newestFirst.toFinset ⊆ Finset.range limit := by
    intro other listed
    exact Finset.mem_range.mpr (h.low other (List.mem_toFinset.mp listed))
  have many : (Finset.range limit).card ≤ s.newestFirst.toFinset.card := by
    rw [Finset.card_range, List.toFinset_card_of_nodup h.nodup, ← h.size, size]
  have all := Finset.eq_of_subset_of_card_le within many
  rw [h.mem, ← List.mem_toFinset, all]
  exact Finset.mem_range.mpr below

theorem Sound.visitAll_of_isFull (h : s.Sound limit) (full : s.isFull limit = true)
    {ids : List Nat} (below : ∀ id ∈ ids, id < limit) : s.visitAll ids = s := by
  induction ids with
  | nil => rfl
  | cons id ids ih =>
    have known := h.mem_of_isFull full (below id List.mem_cons_self)
    change (s.visit id).visitAll ids = s
    rw [FirstSeen.visit, if_pos known]
    exact ih fun other later => below other (List.mem_cons_of_mem id later)

theorem visitAll_append (s : FirstSeen) (first later : List Nat) :
    s.visitAll (first ++ later) = (s.visitAll first).visitAll later :=
  List.foldl_append

end FirstSeen

namespace ZOrder

variable (z : ZOrder) {seen : FirstSeen}

def rowPages (row col width : Nat) : List Nat :=
  (List.range' col width).map fun col => z.pageOfCode (Morton.code z.precision ⟨col, row⟩)

def blockPages (col width row height : Nat) : List Nat :=
  (List.range' row height).flatMap fun row => z.rowPages row col width

theorem rowPages_lt (row col width : Nat) : ∀ page ∈ z.rowPages row col width, page < z.maxPages := by
  intro page listed
  obtain ⟨col, -, rfl⟩ := List.mem_map.mp listed
  exact z.pageOfCode_lt _

theorem blockPages_lt (col width row height : Nat) :
    ∀ page ∈ z.blockPages col width row height, page < z.maxPages := by
  intro page listed
  obtain ⟨row, -, there⟩ := List.mem_flatMap.mp listed
  exact z.rowPages_lt row col width page there

theorem rowPages_succ (row col more : Nat) :
    z.rowPages row col (more + 1) =
      z.pageOfCode (Morton.code z.precision ⟨col, row⟩) :: z.rowPages row (col + 1) more := rfl

theorem blockPages_succ (col width row more : Nat) :
    z.blockPages col width row (more + 1) =
      z.rowPages row col width ++ z.blockPages col width (row + 1) more := rfl

theorem scanRow_eq (row col width : Nat) (sound : seen.Sound z.maxPages) :
    z.scanRow row col width seen = seen.visitAll (z.rowPages row col width) := by
  induction width generalizing col seen with
  | zero => rfl
  | succ more ih =>
    rw [scanRow]
    split
    · next full => exact (sound.visitAll_of_isFull full (z.rowPages_lt row col (more + 1))).symm
    · rw [rowPages_succ]
      exact ih (col + 1) (sound.visit (z.pageOfCode_lt _))

theorem scanRows_eq (col width row height : Nat) (sound : seen.Sound z.maxPages) :
    z.scanRows col width row height seen = seen.visitAll (z.blockPages col width row height) := by
  induction height generalizing row seen with
  | zero => rfl
  | succ more ih =>
    rw [scanRows]
    split
    · next full =>
      exact (sound.visitAll_of_isFull full (z.blockPages_lt col width row (more + 1))).symm
    · rw [blockPages_succ, FirstSeen.visitAll_append, z.scanRow_eq row col width sound]
      exact ih (row + 1) (sound.visitAll (z.rowPages_lt row col width))

/-- A page of a cell at most so many columns and rows from one. -/
def Walked (centre : Cell) (steps page : Nat) : Prop :=
  ∃ col row : Nat, centre.col - steps ≤ col ∧
    col ≤ min (centre.col + steps) (Morton.columns z.precision - 1) ∧
    centre.row - steps ≤ row ∧ row ≤ min (centre.row + steps) (Morton.rows z.precision - 1) ∧
    z.pageOfCode (Morton.code z.precision ⟨col, row⟩) = page

theorem mem_reach_iff {place length : Nat} (inside : place < length) (steps other : Nat) :
    other ∈ List.range' (reach place length steps).1 (reach place length steps).2 ↔
      place - steps ≤ other ∧ other ≤ min (place + steps) (length - 1) := by
  rw [List.mem_range'_1]
  simp only [reach]
  omega

theorem sound_scan (col width row height : Nat) :
    (z.scanRows col width row height {}).Sound z.maxPages := by
  have empty := FirstSeen.sound_empty z.maxPages
  rw [z.scanRows_eq col width row height empty]
  exact empty.visitAll (z.blockPages_lt col width row height)

theorem mem_pagesAround_iff (code steps page : Nat) :
    page ∈ z.pagesAround code steps ↔ z.Walked (Morton.cell z.precision code) steps page := by
  obtain ⟨col, row⟩ := Morton.cell_lt z.precision code
  have empty := FirstSeen.sound_empty z.maxPages
  unfold pagesAround
  simp only
  rw [FirstSeen.toList, List.mem_reverse, ← (z.sound_scan _ _ _ _).mem, z.scanRows_eq _ _ _ _ empty,
    FirstSeen.mem_visitAll]
  constructor
  · rintro (listed | none)
    · obtain ⟨row', inRows, there⟩ := List.mem_flatMap.mp listed
      obtain ⟨col', inCols, here⟩ := List.mem_map.mp there
      obtain ⟨lower, upper⟩ := (mem_reach_iff row steps row').mp inRows
      obtain ⟨left, right⟩ := (mem_reach_iff col steps col').mp inCols
      exact ⟨col', row', left, right, lower, upper, here⟩
    · simp at none
  · rintro ⟨col', row', left, right, lower, upper, here⟩
    refine .inl (List.mem_flatMap.mpr ⟨row', (mem_reach_iff row steps row').mpr ⟨lower, upper⟩, ?_⟩)
    exact List.mem_map.mpr ⟨col', (mem_reach_iff col steps col').mpr ⟨left, right⟩, here⟩

theorem nodup_pagesAround (code steps : Nat) : (z.pagesAround code steps).Nodup :=
  List.nodup_reverse.mpr (z.sound_scan _ _ _ _).nodup

end ZOrder

end Gazetteer
