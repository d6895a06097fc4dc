import Gazetteer.Chain.PageSet
import Gazetteer.Pool
import Gazetteer.RecordId

/-! Chains of pages. A page that is full is linked to another, which may be linked in turn. The
pages of all chains are taken from the same ids: a chain grows by the least page that was never
formatted.

The links are read from the pages and may say anything, also lead back. Every walk ends, because
it remembers where it was and a link can only name a page below `linkLimit`. -/
namespace Gazetteer.Chain

def firstFreeFrom (maxPages id : Nat) : Nat → PoolM Nat
  | 0 => throw (.pageSpaceExhausted maxPages)
  | more + 1 => do
    let page ← Pool.fetch id
    if page.block.isFormatted then firstFreeFrom maxPages (id + 1) more else return id

def firstFree (maxPages : Nat) : PoolM Nat := firstFreeFrom maxPages 0 maxPages

def link (id next : Nat) : PoolM Unit := do
  let page ← Pool.fetch id
  let linked ← page.setLink (some next)
  modify fun p => (p.keep id linked).note (.linked id next)

/-- The first page from `id` on that accepts a record of this length. Behind the last page the chain
grows by one that does. A chain of full pages that leads back to a page in `seen` has no last
page. -/
def roomFrom (maxPages length : Nat) (seen : PageSet) (id : Nat) : PoolM Nat := do
  if _ : id ∈ seen then throw (.cyclicChain id)
  else
    let page ← Pool.fetch id
    if page.block.accepts length then return id
    else
      match _ : page.block.link? with
      | some next => roomFrom maxPages length (seen.insert id) next
      | none =>
        let next ← firstFree maxPages
        link id next
        return next
termination_by seen.stepsLeft id
decreasing_by exact PageSet.stepsLeft_insert_lt (by assumption) (Block.link?_lt (by assumption))

def formatted (id : Nat) : PoolM Page := do
  let page ← Pool.fetch id
  if page.block.isFormatted then return page
  else
    Pool.format id
    Pool.fetch id

def appendTo (id : Nat) (value : List UInt8) : PoolM RecordId := do
  let page ← formatted id
  modify (·.keep id (page.push value))
  return ⟨id, page.block.count⟩

def append (home : Nat) (value : List UInt8) (maxPages : Nat) : PoolM RecordId :=
  if Block.maxRecord < value.length then
    throw (.recordTooLarge value.length Block.maxRecord)
  else do
    let id ← roomFrom maxPages value.length ∅ home
    appendTo id value

def pageIdsFrom (seen : PageSet) (id : Nat) : PoolM (List Nat) := do
  let page ← Pool.fetch id
  if page.block.isFormatted then
    if _ : id ∈ seen then return []
    else
      match _ : page.block.link? with
      | none => return [id]
      | some next =>
        let rest ← pageIdsFrom (seen.insert id) next
        return id :: rest
  else return []
termination_by seen.stepsLeft id
decreasing_by exact PageSet.stepsLeft_insert_lt (by assumption) (Block.link?_lt (by assumption))

def pageIds (home : Nat) : PoolM (List Nat) := pageIdsFrom ∅ home

/-- What a walk that collects records brings back. It never fails as a whole: `fetched` is the
number of pages it fetched, or the fault that stopped it. -/
structure Harvest where
  visited : PageSet
  records : List (List UInt8) := []
  fetched : Except Fault Nat

def Harvest.behind (records : List (List UInt8)) (rest : Harvest) : Harvest where
  visited := rest.visited
  records := records ++ rest.records
  fetched := rest.fetched.map (· + 1)

/-- All records of a chain, as far as its pages were not visited before. A page counts as visited
once the walk turns to it, even if it cannot be fetched. -/
def collect (visited : PageSet) (id : Nat) : StateM Pool Harvest := do
  if _ : id ∈ visited then return { visited, fetched := .ok 0 }
  else
    match ← (Pool.fetch id).run with
    | .error fault => return { visited := visited.insert id, fetched := .error fault }
    | .ok page =>
      if page.block.isFormatted then
        match _ : page.block.link? with
        | none =>
          return { visited := visited.insert id, records := page.block.records, fetched := .ok 1 }
        | some next =>
          let rest ← collect (visited.insert id) next
          return rest.behind page.block.records
      else return { visited := visited.insert id, fetched := .ok 1 }
termination_by visited.stepsLeft id
decreasing_by exact PageSet.stepsLeft_insert_lt (by assumption) (Block.link?_lt (by assumption))

/-- The chains of several pages collected one after the other, no page twice. The first fault ends
the work. -/
def collectAll (visited : PageSet) : List Nat → PoolM (Nat × List (List UInt8))
  | [] => return (0, [])
  | id :: ids => do
    let first ← (collect visited id : StateM Pool Harvest)
    let fetched ← first.fetched
    let (more, records) ← collectAll first.visited ids
    return (fetched + more, first.records ++ records)

end Gazetteer.Chain
