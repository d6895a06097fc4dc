import Gazetteer.Chain
import Gazetteer.Digest.Xxh64
import Gazetteer.Keyed.Index
import Gazetteer.Settings

/-! Records under keys. A record goes to the chain of the page that the hash of its key names, and
the index remembers where it went, so that finding it is one fetch. The index is not kept on the
pages; a snapshot carries it from one store to the next. -/
namespace Gazetteer

structure Keyed where
  settings : KeyedSettings
  accepted : settings.fault? = none
  index : KeyIndex := ∅

namespace Keyed

def ofSettings (settings : KeyedSettings) : Except Fault Keyed :=
  match h : settings.fault? with
  | none => .ok { settings, accepted := h }
  | some fault => .error (.invalidSettings fault)

def maxPages (k : Keyed) : Nat := k.settings.maxPages.toNat

def home (k : Keyed) (key : List UInt8) : Nat := (Xxh64.hash key).toNat % k.maxPages

/-- A value stored under a key. An older value of the key stays on its page but is not found
any more. -/
def put (k : Keyed) (key value : List UInt8) : PoolM (RecordId × Keyed) := do
  let place ← Chain.append (k.home key) value k.maxPages
  return (place, { k with index := k.index.insert key place })

def locate (k : Keyed) (key : List UInt8) : Option RecordId := k.index[key]?

def recordAt (place : RecordId) : PoolM (Option (List UInt8)) := do
  let page ← Pool.fetch place.page
  return page.block.record? place.slot

def get (k : Keyed) (key : List UInt8) : PoolM (Option (List UInt8)) :=
  match k.locate key with
  | none => return none
  | some place => recordAt place

def recordsAt : List RecordId → PoolM (List (List UInt8))
  | [] => return []
  | place :: places => do
    let found ← recordAt place
    let rest ← recordsAt places
    return found.toList ++ rest

def values (k : Keyed) : PoolM (List (List UInt8)) := recordsAt (k.index.toList.map Prod.snd)

def size (k : Keyed) : Nat := k.index.size

def snapshot (k : Keyed) : List UInt8 := KeyIndex.layout.write k.index

/-- The index of a snapshot in place of the one there was, which stays if the snapshot cannot be
read. -/
def restore (k : Keyed) (bytes : List UInt8) : PoolM Keyed :=
  match KeyIndex.layout.decode bytes with
  | .error fault => throw (.unreadable fault)
  | .ok index => do
    modify (·.note (.imported index.size))
    return { k with index }

theorem home_lt (k : Keyed) (key : List UInt8) : k.home key < k.maxPages :=
  Nat.mod_lt _ ((pagesFault?_eq_none_iff _).mp k.accepted).1

end Keyed

end Gazetteer
