import Gazetteer.Number.Binary64

/-! The fewest decimal digits that read back as a given double. A double stands for an interval
of reals, those that round to it, and the decimals of a given number of digits form a grid. The
first grid with a point in the interval gives the digits; of two points the nearer is taken, and
of two equally near ones the greater. -/
namespace Gazetteer.Number

structure Decimal where
  digits : Nat
  exponent : Int
  deriving DecidableEq, Repr

/-- The reals that round to one positive number, over a common denominator: they lie between
`low / unit` and `high / unit`, and `closed` says whether the two ends belong to them. -/
structure Rounding where
  low : Nat
  value : Nat
  high : Nat
  unit : Nat
  closed : Bool

/-- The ends are halfway to the neighbours of `m * 2 ^ q`, and round to it when `m` is even. -/
def Rounding.around (m : Nat) (q : Int) (narrowBelow : Bool) : Rounding where
  low := (4 * m - if narrowBelow then 1 else 2) * Nat.pow 2 q.toNat
  value := 4 * m * Nat.pow 2 q.toNat
  high := (4 * m + 2) * Nat.pow 2 q.toNat
  unit := 4 * Nat.pow 2 (-q).toNat
  closed := m % 2 = 0

def Rounding.holds (r : Rounding) (d : Decimal) : Bool :=
  let point := d.digits * Nat.pow 10 d.exponent.toNat * r.unit
  let scale := Nat.pow 10 (-d.exponent).toNat
  if r.closed then r.low * scale ≤ point ∧ point ≤ r.high * scale
  else r.low * scale < point ∧ point < r.high * scale

/-- The number of digits before the point; a number below a tenth counts its leading zeros
after the point as a negative number of digits. No positive double lies below `10 ^ (-324)`. -/
def Rounding.leading (r : Rounding) : Int :=
  ((toString (r.value * Nat.pow 10 324 / r.unit)).length : Int) - 324

/-- The best point of the grid `10 ^ exponent`, if one of the value's two neighbours on it reads
back. -/
def Rounding.onGrid (r : Rounding) (exponent : Int) : Option Decimal :=
  let numerator := r.value * Nat.pow 10 (-exponent).toNat
  let denominator := r.unit * Nat.pow 10 exponent.toNat
  let below : Decimal := ⟨numerator / denominator, exponent⟩
  let above : Decimal := ⟨numerator / denominator + 1, exponent⟩
  match r.holds below, r.holds above with
  | true, true =>
    some (if 2 * numerator < (2 * below.digits + 1) * denominator then below else above)
  | true, false => some below
  | false, true => some above
  | false, false => none

def exactDecimal (m : Nat) : Int → Decimal
  | .ofNat k => ⟨m * Nat.pow 2 k, 0⟩
  | .negSucc k => ⟨m * Nat.pow 5 (k + 1), .negSucc k⟩

/-- The shortest decimal that reads back as `m * 2 ^ q`, for positive `m`. -/
def shortest (m : Nat) (q : Int) (narrowBelow : Bool) : Decimal :=
  let r := Rounding.around m q narrowBelow
  let top := r.leading
  ((List.range 17).findSome? fun (n : Nat) => r.onGrid (top - (n + 1))).getD (exactDecimal m q)

end Gazetteer.Number
