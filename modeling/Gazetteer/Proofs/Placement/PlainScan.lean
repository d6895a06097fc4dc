import Gazetteer.Proofs.Grid.Words
import Gazetteer.Proofs.Placement.Scan
import Mathlib.Data.List.Sort

/-! The scan around a cell and a plain one, which takes all steps of either sign and passes over
those that lead off the grid. The scan clips its steps first and stops early, and lists the same
pages in the same order. The steps it takes all stay on the grid, and its arithmetic within the
words. -/
namespace Gazetteer

theorem FirstSeen.toList_visit (s : FirstSeen) (id : Nat) :
    (s.visit id).toList = if id ∈ s.members then s.toList else s.toList ++ [id] := by
  unfold visit
  split
  · rfl
  · exact List.reverse_cons

theorem FirstSeen.toList_visitAll (ids : List Nat) :
    (({} : FirstSeen).visitAll ids).toList = ids.eraseDups := by
  induction ids using List.reverseRecOn with
  | nil => rfl
  | append_singleton ids id ih =>
    have known : id ∈ (({} : FirstSeen).visitAll ids).members ↔ id ∈ ids := by
      simp [mem_visitAll]
    rw [visitAll_append, List.eraseDups_append, ← ih]
    change ((({} : FirstSeen).visitAll ids).visit id).toList = _
    rw [toList_visit]
    by_cases seen : id ∈ ids
    · simp [known, seen, List.removeAll]
    · simp [known, seen, List.removeAll, List.eraseDups_cons]

namespace ZOrder

variable {place length : Nat}

def offsets (steps : Nat) : List Int :=
  (List.range (2 * steps + 1)).map fun i : Nat => (i : Int) - steps

def along? (place length : Nat) (step : Int) : Option Nat :=
  if 0 ≤ place + step ∧ place + step < length then some (place + step).toNat else none

/-- The pages of the cells around one, each where it first turns up, without regard to the number of
steps. -/
def plainPages (z : ZOrder) (code steps : Nat) : List Nat :=
  ((offsets steps).flatMap fun rowStep => (offsets steps).filterMap fun colStep =>
    (Morton.neighbor? z.precision code rowStep colStep).map z.pageOfCode).eraseDups

theorem mem_offsets (steps : Nat) (step : Int) :
    step ∈ offsets steps ↔ -steps ≤ step ∧ step ≤ steps := by
  simp only [offsets, List.mem_map, List.mem_range]
  constructor
  · rintro ⟨i, below, rfl⟩
    omega
  · rintro ⟨low, high⟩
    exact ⟨(step + steps).toNat, by omega, by omega⟩

theorem pairwise_offsets (steps : Nat) : (offsets steps).Pairwise (· < ·) := by
  unfold offsets
  apply List.Pairwise.map _ _ List.pairwise_lt_range
  omega

theorem along?_eq_some_iff {step : Int} {other : Nat} :
    along? place length step = some other ↔ (other : Int) = place + step ∧ other < length := by
  unfold along?
  split
  · rw [Option.some_inj]
    omega
  · constructor
    · rintro ⟨⟩
    · omega

theorem filterMap_along (inside : place < length) (steps : Nat) :
    (offsets steps).filterMap (along? place length) =
      List.range' (reach place length steps).1 (reach place length steps).2 := by
  -- both lists ascend, so it is enough that they have the same places
  apply List.Pairwise.eq_of_mem_iff (r := (· < ·))
  · apply List.Pairwise.filterMap _ _ (pairwise_offsets steps)
    intro step next before a first b second
    rw [along?_eq_some_iff] at first second
    omega
  · exact List.pairwise_lt_range'
  · intro other
    simp only [mem_reach_iff inside, List.mem_filterMap, mem_offsets, along?_eq_some_iff]
    constructor
    · rintro ⟨step, bounds, there, below⟩
      omega
    · rintro ⟨low, high⟩
      exact ⟨other - place, by omega, by omega, by omega⟩

theorem neighbor?_eq (precision code : Nat) (rowStep colStep : Int) :
    Morton.neighbor? precision code rowStep colStep =
      (along? (Morton.cell precision code).row (Morton.rows precision) rowStep).bind fun row =>
        (along? (Morton.cell precision code).col (Morton.columns precision) colStep).map fun col =>
          Morton.code precision ⟨col, row⟩ := by
  unfold Morton.neighbor? along?
  simp only
  split
  · next inside =>
    rw [if_pos (by omega), if_pos (by omega)]
    rfl
  · next outside =>
    split
    · rw [if_neg (by omega)]
      rfl
    · rfl

variable (z : ZOrder)

theorem filterMap_neighbor (code steps : Nat) (rowStep : Int) :
    ((offsets steps).filterMap fun colStep =>
      (Morton.neighbor? z.precision code rowStep colStep).map z.pageOfCode) =
    (along? (Morton.cell z.precision code).row (Morton.rows z.precision) rowStep).toList.flatMap
      fun row => z.rowPages row
        (reach (Morton.cell z.precision code).col (Morton.columns z.precision) steps).1
        (reach (Morton.cell z.precision code).col (Morton.columns z.precision) steps).2 := by
  obtain ⟨col, -⟩ := Morton.cell_lt z.precision code
  simp only [neighbor?_eq]
  cases along? (Morton.cell z.precision code).row (Morton.rows z.precision) rowStep with
  | none => simp
  | some row =>
    simp only [Option.toList_some, List.flatMap_singleton, Option.bind_some, Option.map_map]
    rw [rowPages, ← filterMap_along col, List.map_filterMap]
    rfl

theorem pagesAround_eq (code steps : Nat) : z.pagesAround code steps = z.plainPages code steps := by
  obtain ⟨-, row⟩ := Morton.cell_lt z.precision code
  unfold plainPages pagesAround
  -- a row that is off the grid shows nothing, and every other one what the scan sees of it
  simp only [filterMap_neighbor]
  rw [z.scanRows_eq _ _ _ _ (FirstSeen.sound_empty _), FirstSeen.toList_visitAll, blockPages,
    ← filterMap_along row, List.filterMap_eq_flatMap_toList, List.flatMap_assoc]

/-- The least and the greatest step of a scan along an axis, in words. -/
def reachWords? (place length : Nat) (steps : Int) : Option (Int × Int) := do
  let before ← Morton.signed? place
  let last ← Morton.word? (length - 1)
  let behind ← Morton.word? (last - place)
  let after ← Morton.signed? behind
  let low ← Morton.signed? (-min before steps)
  return (low, min after steps)

/-- The steps from `low` to `high` are those of the scan, as words have them. -/
structure Span (place length steps : Nat) (low high : Int) : Prop where
  words : reachWords? place length steps = some (low, high)
  first : (reach place length steps).1 = place + low
  count : (reach place length steps).2 = high - low + 1
  onAxis : 0 ≤ place + low ∧ place + high < length
  small : -2 ^ 62 ≤ low ∧ high ≤ 2 ^ 62

theorem exists_span (inside : place < length) (short : length ≤ 2 ^ 30) (steps : Nat) :
    ∃ low high, Span place length steps low high := by
  have last : Morton.word? ((length : Int) - 1) = some (length - 1) :=
    Morton.word?_of_eq (by omega) (by unfold wordSize; omega)
  have behind : Morton.word? (((length - 1 : Nat) : Int) - place) = some (length - 1 - place) :=
    Morton.word?_of_eq (by omega) (by unfold wordSize; omega)
  refine ⟨-min (place : Int) steps, min ((length - 1 - place : Nat) : Int) steps, ?_⟩
  constructor
  · unfold reachWords?
    simp only [Option.bind_eq_bind]
    rw [Morton.signed?_of_bounds (by omega) (by omega), Option.bind_some, last, Option.bind_some,
      behind, Option.bind_some, Morton.signed?_of_bounds (by omega) (by omega), Option.bind_some,
      Morton.signed?_of_bounds (by omega) (by omega), Option.bind_some]
    rfl
  · simp only [reach]
    omega
  · simp only [reach]
    omega
  · omega
  · omega

/-- The scan lists the pages of the plain one in its order. Each of its steps leads to a cell, and
neither the bounds of the steps nor the cells leave the words on the way. -/
theorem pagesAround_eq_plain (code steps : Nat) :
    z.pagesAround code steps = z.plainPages code steps ∧
    ∃ south north west east,
      Span (Morton.cell z.precision code).row (Morton.rows z.precision) steps south north ∧
      Span (Morton.cell z.precision code).col (Morton.columns z.precision) steps west east ∧
      ∀ rowStep colStep, south ≤ rowStep → rowStep ≤ north → west ≤ colStep → colStep ≤ east →
        ∃ next, Morton.neighbor? z.precision code rowStep colStep = some next ∧
          Morton.neighborWords? z.precision code rowStep colStep = some (some next) := by
  have low : z.precision ≤ maxPrecision :=
    ((GeohashSettings.fault?_eq_none_iff _).mp z.accepted).1.2
  obtain ⟨col, row⟩ := Morton.cell_lt z.precision code
  obtain ⟨south, north, rows⟩ := exists_span row (Morton.rows_le low) steps
  obtain ⟨west, east, cols⟩ := exists_span col (Morton.columns_le low) steps
  refine ⟨z.pagesAround_eq code steps, south, north, west, east, rows, cols, ?_⟩
  intro rowStep colStep fromSouth toNorth fromWest toEast
  have inRows := rows.onAxis
  have inCols := cols.onAxis
  have byRow := rows.small
  have byCol := cols.small
  obtain ⟨next, found⟩ : ∃ next, Morton.neighbor? z.precision code rowStep colStep = some next :=
    ⟨_, if_pos (by omega)⟩
  refine ⟨next, found, ?_⟩
  rw [Morton.neighborWords?_eq low code (by omega) (by omega), found]

/-- At a corner of the grid, nine of twenty-five cells are left. -/
theorem pagesAround_corner : ∃ z : ZOrder, z.pagesAround 0 2 = [0, 2, 8, 1, 3, 9, 4, 6, 12] := by
  let z : ZOrder := ⟨{}, by decide +kernel⟩
  have plain : z.plainPages 0 2 = [0, 2, 8, 1, 3, 9, 4, 6, 12] := by decide +kernel
  exact ⟨z, (z.pagesAround_eq_plain 0 2).1.trans plain⟩

end ZOrder

end Gazetteer
