import Gazetteer.Grid.Cell

/-! Morton codes. A grid of `precision` has five bits for each unit of precision, taken in turns by
the column and the row, the column first; read as one number they are the code of a cell. When
the number of bits is odd the column has one more. Main statements: a cell is found again from
its code, and every code within the bits is the code of its cell. -/
namespace Gazetteer.Morton

def bitsPerUnit : Nat := 5

def columnBits (precision : Nat) : Nat := (bitsPerUnit * precision + 1) / 2

def rowBits (precision : Nat) : Nat := bitsPerUnit * precision / 2

def columns (precision : Nat) : Nat := Nat.pow 2 (columnBits precision)

def rows (precision : Nat) : Nat := Nat.pow 2 (rowBits precision)

/-- `bits` bits in turns, upwards from the lowest, which is that of `a`. -/
def weave : Nat → Nat → Nat → Nat
  | 0, _, _ => 0
  | bits + 1, a, b => 2 * weave bits b (a / 2) + a % 2

def unweave : Nat → Nat → Nat × Nat
  | 0, _ => (0, 0)
  | bits + 1, code =>
    let (b, a) := unweave bits (code / 2)
    (2 * a + code % 2, b)

/-- The lowest bit is the column's when the number of bits is odd. -/
def code (precision : Nat) (cell : Cell) : Nat :=
  let bits := bitsPerUnit * precision
  if bits % 2 = 1 then weave bits cell.col cell.row else weave bits cell.row cell.col

/-- The cell of a code. Bits above those of the grid say nothing. -/
def cell (precision code : Nat) : Cell :=
  let bits := bitsPerUnit * precision
  if bits % 2 = 1 then ⟨(unweave bits code).1, (unweave bits code).2⟩
  else ⟨(unweave bits code).2, (unweave bits code).1⟩

def neighbor? (precision code : Nat) (rowStep colStep : Int) : Option Nat :=
  let here := cell precision code
  let col := here.col + colStep
  let row := here.row + rowStep
  if 0 ≤ col ∧ col < columns precision ∧ 0 ≤ row ∧ row < rows precision then
    some (Morton.code precision ⟨col.toNat, row.toNat⟩)
  else none

/-- Row and column steps to the cells around one: along the axes first. -/
def directions : List (Int × Int) :=
  [(1, 0), (-1, 0), (0, 1), (0, -1), (1, 1), (1, -1), (-1, 1), (-1, -1)]

def neighbors (precision code : Nat) : List Nat :=
  code :: directions.filterMap fun step => neighbor? precision code step.1 step.2

theorem unweave_weave (bits a b : Nat) :
    unweave bits (weave bits a b) = (a % Nat.pow 2 ((bits + 1) / 2), b % Nat.pow 2 (bits / 2)) := by
  induction bits generalizing a b with
  | zero => simp [unweave, Nat.mod_one]
  | succ n ih =>
    have half : (2 * weave n b (a / 2) + a % 2) / 2 = weave n b (a / 2) := by omega
    have low : (2 * weave n b (a / 2) + a % 2) % 2 = a % 2 := by omega
    have turns : (n + 1 + 1) / 2 = n / 2 + 1 := by omega
    have rest : 2 * (a / 2 % Nat.pow 2 (n / 2)) + a % 2 = a % Nat.pow 2 (n / 2 + 1) := by
      have wider : Nat.pow 2 (n / 2 + 1) = 2 * Nat.pow 2 (n / 2) := Nat.mul_comm _ _
      rw [wider, Nat.mod_mul]
      omega
    simp only [unweave, weave, half, low, ih, turns, rest]

theorem weave_unweave (bits code : Nat) :
    weave bits (unweave bits code).1 (unweave bits code).2 = code % Nat.pow 2 bits := by
  induction bits generalizing code with
  | zero => simp [weave, Nat.mod_one]
  | succ n ih =>
    have half : (2 * (unweave n (code / 2)).2 + code % 2) / 2 = (unweave n (code / 2)).2 := by
      omega
    have low : (2 * (unweave n (code / 2)).2 + code % 2) % 2 = code % 2 := by omega
    have wider : Nat.pow 2 (n + 1) = 2 * Nat.pow 2 n := Nat.mul_comm _ _
    simp only [unweave, weave, half, low, ih]
    rw [wider, Nat.mod_mul]
    omega

end Gazetteer.Morton
