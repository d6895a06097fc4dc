import Gazetteer.Chain
import Gazetteer.PageList
import Gazetteer.Placement

/-! Records at coordinates. A record goes to the chain of the page of its place, and a search reads
the chains of all pages that the circle may touch. What it returns is more than the circle: every
record on those pages, for the caller to measure. -/
namespace Gazetteer.Spatial

/-- The result of a search and what it cost: the pages proposed, the pages read, each once, and
the jumps between the proposed pages when they are read in ascending order. -/
structure Answer where
  records : List (List UInt8)
  candidates : Nat
  pagesRead : Nat
  seekCount : Nat

def put (placement : Placement) (place : Coordinate) (value : List UInt8) : PoolM RecordId :=
  Chain.append (placement.page place) value placement.maxPages

def search (placement : Placement) (place : Coordinate) (radiusKm : Float) : PoolM Answer := do
  let candidates ← placement.pages place radiusKm
  let (pagesRead, records) ← Chain.collectAll ∅ candidates
  modify (·.note (.searched placement.name pagesRead candidates.length records.length))
  return {
    records
    candidates := candidates.length
    pagesRead
    seekCount := PageList.seekCount candidates.mergeSort }

end Gazetteer.Spatial
