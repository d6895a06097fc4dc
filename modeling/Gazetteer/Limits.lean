/-! The fixed sizes of the store. -/
namespace Gazetteer

def pageSize : Nat := 4096

/-- A page is linked to the next of its chain by a signed field of 32 bits, so every page that
can be linked lies below this number. -/
def linkLimit : Nat := 0x80000000

def maxPrecision : Nat := 12

def maxOrder : Nat := 31

end Gazetteer
