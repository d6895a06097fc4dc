import Gazetteer.Proofs.Grid.Words
import Mathlib.Data.List.Nodup
import Mathlib.Data.Set.Function

/-! Steps between the cells of a grid. A code stands for one cell and a cell for one code, so a step
is told by the two numbers that it adds, and steps add up as these do. -/
namespace Gazetteer.Morton

variable {precision m next : Nat} {rowStep colStep : Int}

theorem code_lt (precision : Nat) (c : Cell) :
    code precision c < 2 ^ (bitsPerUnit * precision) := by
  unfold code
  simp only
  split <;> apply weave_lt

theorem eq_of_cell (inside : m < 2 ^ (bitsPerUnit * precision))
    (also : next < 2 ^ (bitsPerUnit * precision))
    (col : (cell precision m).col = (cell precision next).col)
    (row : (cell precision m).row = (cell precision next).row) : m = next := by
  rw [← code_cell inside, ← code_cell also]
  change code precision ⟨(cell precision m).col, (cell precision m).row⟩ = _
  rw [col, row]

theorem cell_bijOn (precision : Nat) :
    Set.BijOn (cell precision) {m | m < 2 ^ (bitsPerUnit * precision)}
      {c | c.col < columns precision ∧ c.row < rows precision} := by
  refine ⟨fun m _ => cell_lt precision m, ?_, ?_⟩
  · intro m inside other also same
    exact eq_of_cell inside also (congrArg Cell.col same) (congrArg Cell.row same)
  · rintro ⟨col, row⟩ ⟨inCols, inRows⟩
    exact ⟨code precision ⟨col, row⟩, code_lt _ _, cell_code inCols inRows⟩

/-- `next` is the code of the cell so many rows and columns from that of `m`. -/
structure Away (precision m next : Nat) (rowStep colStep : Int) : Prop where
  inside : next < 2 ^ (bitsPerUnit * precision)
  col : ((cell precision next).col : Int) = (cell precision m).col + colStep
  row : ((cell precision next).row : Int) = (cell precision m).row + rowStep

theorem neighbor?_eq_some_iff :
    neighbor? precision m rowStep colStep = some next ↔ Away precision m next rowStep colStep := by
  unfold neighbor?
  simp only
  constructor
  · intro found
    split at found
    · next inside =>
      cases found
      obtain ⟨west, east, south, north⟩ := inside
      have there : cell precision (code precision ⟨((cell precision m).col + colStep).toNat,
          ((cell precision m).row + rowStep).toNat⟩) = _ :=
        cell_code ((Int.toNat_lt west).mpr east) ((Int.toNat_lt south).mpr north)
      refine ⟨code_lt _ _, ?_, ?_⟩
      · rw [there]
        exact Int.toNat_of_nonneg west
      · rw [there]
        exact Int.toNat_of_nonneg south
    · cases found
  · rintro ⟨inside, col, row⟩
    obtain ⟨inCols, inRows⟩ := cell_lt precision next
    rw [if_pos (by omega), ← col, ← row]
    exact congrArg some (code_cell inside)

theorem isSome_neighbor?_iff :
    (neighbor? precision m rowStep colStep).isSome = true ↔
      (0 ≤ (cell precision m).col + colStep ∧
        (cell precision m).col + colStep < columns precision) ∧
      0 ≤ (cell precision m).row + rowStep ∧
        (cell precision m).row + rowStep < rows precision := by
  unfold neighbor?
  simp only
  split
  · next inside => simpa [and_assoc] using inside
  · next outside => simpa [and_assoc] using outside

theorem neighbor?_zero (inside : m < 2 ^ (bitsPerUnit * precision)) :
    neighbor? precision m 0 0 = some m :=
  neighbor?_eq_some_iff.mpr ⟨inside, by simp, by simp⟩

theorem neighbor?_add (first : neighbor? precision m rowStep colStep = some next)
    (moreRows moreCols : Int) :
    neighbor? precision next moreRows moreCols =
      neighbor? precision m (rowStep + moreRows) (colStep + moreCols) := by
  obtain ⟨-, col, row⟩ := neighbor?_eq_some_iff.mp first
  apply Option.ext
  intro last
  rw [neighbor?_eq_some_iff, neighbor?_eq_some_iff]
  constructor
  · rintro ⟨inside, col', row'⟩
    exact ⟨inside, by omega, by omega⟩
  · rintro ⟨inside, col', row'⟩
    exact ⟨inside, by omega, by omega⟩

theorem neighbor?_neg (inside : m < 2 ^ (bitsPerUnit * precision))
    (step : neighbor? precision m rowStep colStep = some next) :
    neighbor? precision next (-rowStep) (-colStep) = some m := by
  rw [neighbor?_add step, Int.add_right_neg, Int.add_right_neg, neighbor?_zero inside]

theorem mem_directions_iff (step : Int × Int) :
    step ∈ directions ↔ step ≠ (0, 0) ∧ step.1.natAbs ≤ 1 ∧ step.2.natAbs ≤ 1 := by
  obtain ⟨a, b⟩ := step
  simp only [directions, List.mem_cons, List.not_mem_nil, or_false, ne_eq, Prod.mk.injEq]
  omega

theorem mem_neighbors_iff (inside : m < 2 ^ (bitsPerUnit * precision)) :
    next ∈ neighbors precision m ↔ next < 2 ^ (bitsPerUnit * precision) ∧
      ((cell precision next).col - (cell precision m).col : Int).natAbs ≤ 1 ∧
      ((cell precision next).row - (cell precision m).row : Int).natAbs ≤ 1 := by
  simp only [neighbors, List.mem_cons, List.mem_filterMap, mem_directions_iff,
    neighbor?_eq_some_iff]
  constructor
  · rintro (rfl | ⟨⟨a, b⟩, ⟨-, byRow, byCol⟩, there, col, row⟩)
    · simpa using inside
    · simp only at byRow byCol col row
      exact ⟨there, by omega, by omega⟩
  · rintro ⟨there, col, row⟩
    by_cases same : next = m
    · exact .inl same
    · right
      refine ⟨((cell precision next).row - (cell precision m).row,
        (cell precision next).col - (cell precision m).col), ⟨?_, row, col⟩, there, ?_, ?_⟩
      · -- another code has another cell
        intro still
        obtain ⟨rows, cols⟩ := Prod.mk.inj still
        exact same (eq_of_cell there inside (by omega) (by omega))
      · simp only
        omega
      · simp only
        omega

theorem nodup_neighbors (precision m : Nat) : (neighbors precision m).Nodup := by
  have apart : m ∉ directions.filterMap fun step => neighbor? precision m step.1 step.2 := by
    rw [List.mem_filterMap]
    rintro ⟨⟨a, b⟩, direction, still⟩
    obtain ⟨some, -⟩ := (mem_directions_iff (a, b)).mp direction
    obtain ⟨-, col, row⟩ := neighbor?_eq_some_iff.mp still
    simp only at col row
    exact some (Prod.ext (by simp only; omega) (by simp only; omega))
  refine List.nodup_cons.mpr ⟨apart, List.Nodup.filterMap ?_ (by decide)⟩
  rintro ⟨a, b⟩ ⟨c, d⟩ next first second
  obtain ⟨-, col, row⟩ := neighbor?_eq_some_iff.mp first
  obtain ⟨-, col', row'⟩ := neighbor?_eq_some_iff.mp second
  simp only at col row col' row'
  exact Prod.ext (by simp only; omega) (by simp only; omega)

/-- The codes of a grid are its cells, and a step in words goes to the cell so many rows and columns
away, if there is one. So steps add up and are taken back by their opposites, and the codes around
one are those of the cells that touch its own. -/
theorem cells_translate (low : precision ≤ maxPrecision) :
    (Set.BijOn (cell precision) {m | m < 2 ^ (bitsPerUnit * precision)}
      {c | c.col < columns precision ∧ c.row < rows precision} ∧
      ∀ m, splitLoop m (bitsPerUnit * precision) (bitsPerUnit * precision) 0 ⟨0, 0⟩ =
        some (cell precision m)) ∧
    ∀ m < 2 ^ (bitsPerUnit * precision),
      (∀ rowStep colStep : Int,
        (rowStep.natAbs ≤ 2 ^ 62 → colStep.natAbs ≤ 2 ^ 62 →
          neighborWords? precision m rowStep colStep =
            some (neighbor? precision m rowStep colStep)) ∧
        ((neighbor? precision m rowStep colStep).isSome = true ↔
          (0 ≤ (cell precision m).col + colStep ∧
            (cell precision m).col + colStep < columns precision) ∧
          0 ≤ (cell precision m).row + rowStep ∧
            (cell precision m).row + rowStep < rows precision) ∧
        ∀ next, neighbor? precision m rowStep colStep = some next ↔
          Away precision m next rowStep colStep) ∧
      neighbor? precision m 0 0 = some m ∧
      (∀ rowStep colStep next, neighbor? precision m rowStep colStep = some next →
        (∀ moreRows moreCols, neighbor? precision next moreRows moreCols =
          neighbor? precision m (rowStep + moreRows) (colStep + moreCols)) ∧
        neighbor? precision next (-rowStep) (-colStep) = some m) ∧
      ((neighbors precision m).Nodup ∧ (neighbors precision m).head? = some m) ∧
      ∀ next, next ∈ neighbors precision m ↔ next < 2 ^ (bitsPerUnit * precision) ∧
        ((cell precision next).col - (cell precision m).col : Int).natAbs ≤ 1 ∧
        ((cell precision next).row - (cell precision m).row : Int).natAbs ≤ 1 := by
  refine ⟨⟨cell_bijOn precision, splitLoop_cell low⟩, fun m inside => ⟨?_, neighbor?_zero inside,
    ?_, ⟨nodup_neighbors precision m, rfl⟩, fun next => mem_neighbors_iff inside⟩⟩
  · intro rowStep colStep
    exact ⟨neighborWords?_eq low m, isSome_neighbor?_iff, fun next => neighbor?_eq_some_iff⟩
  · intro rowStep colStep next step
    exact ⟨neighbor?_add step, neighbor?_neg inside step⟩

/-- The last cell of the largest grid: one row down and up again, and no row further. -/
theorem cells_translate_largest : ∃ below,
    neighbor? 12 (2 ^ 60 - 1) (-1) 0 = some below ∧ below = 2 ^ 60 - 2 ∧
    neighbor? 12 below 1 0 = some (2 ^ 60 - 1) ∧
    neighborWords? 12 (2 ^ 60 - 1) 1 0 = some none := by
  obtain ⟨-, steps⟩ := cells_translate (by decide : 12 ≤ maxPrecision)
  obtain ⟨words, -, back, -⟩ := steps (2 ^ 60 - 1) (by decide)
  have down : neighbor? 12 (2 ^ 60 - 1) (-1) 0 = some (2 ^ 60 - 2) := by decide +kernel
  have beyond : neighbor? 12 (2 ^ 60 - 1) 1 0 = none := by decide +kernel
  have inWords := (words 1 0).1 (by decide) (by decide)
  rw [beyond] at inWords
  exact ⟨_, down, rfl, (back _ _ _ down).2, inWords⟩

end Gazetteer.Morton
