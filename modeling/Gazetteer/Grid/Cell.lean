/-! Coordinates, and the cells of a grid laid over them. -/
namespace Gazetteer

/-- A place on the ground, in degrees. Nothing keeps it from being no number. -/
structure Coordinate where
  lat : Float
  lng : Float

/-- A cell of a grid: columns count along the longitude and rows along the latitude. -/
structure Cell where
  col : Nat
  row : Nat
  deriving DecidableEq, Repr

def wordSize : Nat := 0x10000000000000000

end Gazetteer
