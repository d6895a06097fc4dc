import Gazetteer.Number.Shortest

/-! Numbers as text: the shortest digits, written out by position, never with an exponent and
without a point when there is no fraction. -/
namespace Gazetteer.Number

def padded (width n : Nat) : String :=
  let text := toString n
  String.ofList (List.replicate (width - text.length) '0') ++ text

def fractionDigits (width n : Nat) : List Char :=
  ((padded width n).toList.reverse.dropWhile (· == '0')).reverse

def Decimal.positional (d : Decimal) : String :=
  let scale := Nat.pow 10 (-d.exponent).toNat
  let whole := toString (d.digits * Nat.pow 10 d.exponent.toNat / scale)
  match fractionDigits (-d.exponent).toNat (d.digits % scale) with
  | [] => whole
  | fraction => whole ++ "." ++ String.ofList fraction

end Gazetteer.Number

namespace Gazetteer.Binary64

/-- The text of a double: a sign also before a negative zero, and none before NaN. -/
def toText (x : Binary64) : String :=
  let sign := if x.isNegative then "-" else ""
  match x.magnitude with
  | .notANumber => "NaN"
  | .infinite => sign ++ "inf"
  | .finite 0 _ => sign ++ "0"
  | .finite m q => sign ++ (Number.shortest m q x.isNarrowBelow).positional

end Gazetteer.Binary64
