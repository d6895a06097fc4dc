/-! Double-precision numbers as they are stored: sixty-four bits, every one of them kept.
Arithmetic is done by `Float`; this module reads the exact value off the bits, and rounds it
up to a whole number. Nothing is claimed about the arithmetic itself. -/
namespace Gazetteer

/-- A stored double. Two of them are equal when their bits are, so a NaN keeps its payload. -/
structure Binary64 where
  bits : UInt64
  deriving DecidableEq, Repr

namespace Binary64

def toFloat (x : Binary64) : Float := Float.ofBits x.bits

def ofFloat (f : Float) : Binary64 := ⟨f.toBits⟩

/-- The sign bit is set, also on a zero or a NaN. -/
def isNegative (x : Binary64) : Bool := Nat.pow 2 63 ≤ x.bits.toNat

def exponentField (x : Binary64) : Nat := x.bits.toNat / Nat.pow 2 52 % Nat.pow 2 11

def fractionField (x : Binary64) : Nat := x.bits.toNat % Nat.pow 2 52

/-- What the bits below the sign mean: `finite m q` is the number `m * 2 ^ q`. -/
inductive Magnitude where
  | notANumber
  | infinite
  | finite (m : Nat) (q : Int)
  deriving DecidableEq, Repr

/-- The greatest exponent field is kept for the infinities and NaN, the least for numbers
without a leading one. -/
def magnitude (x : Binary64) : Magnitude :=
  if x.exponentField = 2047 then
    if x.fractionField = 0 then .infinite else .notANumber
  else if x.exponentField = 0 then .finite x.fractionField (-1074)
  else .finite (Nat.pow 2 52 + x.fractionField) ((x.exponentField : Int) - 1075)

/-- The number below is half as far away as the number above: so it is at a power of two, the
least of full precision excepted. -/
def isNarrowBelow (x : Binary64) : Bool := x.fractionField = 0 ∧ 1 < x.exponentField

def ceilScaled (m : Nat) : Int → Nat
  | .ofNat k => m * Nat.pow 2 k
  | .negSucc k => (m + (Nat.pow 2 (k + 1) - 1)) / Nat.pow 2 (k + 1)

/-- The least natural number that is at least `x`, held within `0` and `limit`; NaN gives 0. -/
def ceilWithin (x : Binary64) (limit : Nat) : Nat :=
  match x.magnitude with
  | .notANumber => 0
  | .infinite => if x.isNegative then 0 else limit
  | .finite m q => if x.isNegative then 0 else min (ceilScaled m q) limit

theorem ceilScaled_negSucc_le_iff (m k bound : Nat) :
    ceilScaled m (.negSucc k) ≤ bound ↔ m ≤ bound * Nat.pow 2 (k + 1) := by
  have pos : 0 < Nat.pow 2 (k + 1) := Nat.two_pow_pos _
  rw [ceilScaled, ← Nat.lt_succ_iff, Nat.div_lt_iff_lt_mul pos, Nat.succ_mul]
  omega

end Binary64

end Gazetteer
