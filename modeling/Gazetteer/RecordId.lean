import Gazetteer.Bytes.Layout

/-! Where a record is: a page, and a slot of that page. -/
namespace Gazetteer

structure RecordId where
  page : Nat
  slot : Nat
  deriving DecidableEq, Repr

namespace RecordId

def order (a b : RecordId) : Ordering := (compare a.page b.page).then (compare a.slot b.slot)

def toText (r : RecordId) : String :=
  s!"RecordId\x7bpage_id={r.page}, slot_id={r.slot}\x7d"

def describe (r : RecordId) : String :=
  s!"RecordId \x7b page_id: {r.page}, slot_id: {r.slot} \x7d"

def layout : Bytes.Layout RecordId :=
  ((Bytes.Layout.nat 8).both (.nat 8)).convert (fun (page, slot) => ⟨page, slot⟩)
    (fun r => (r.page, r.slot))

end RecordId

end Gazetteer
