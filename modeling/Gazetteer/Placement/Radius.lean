import Gazetteer.Fault

/-! A search radius in kilometres, and how many cells it reaches over. -/
namespace Gazetteer.Radius

/-- A radius to search with. Below zero it stands for zero; what is not finite is refused. -/
def checked (radiusKm : Float) : Except Fault Float :=
  if radiusKm.isFinite then .ok (if 0.0 < radiusKm then radiusKm else 0.0)
  else .error (.invalidRadius (.ofFloat radiusKm))

def cells (radiusKm : Float) (cellKm : Binary64) (limit : Nat) : Nat :=
  (Binary64.ofFloat (radiusKm / cellKm.toFloat)).ceilWithin limit

end Gazetteer.Radius
