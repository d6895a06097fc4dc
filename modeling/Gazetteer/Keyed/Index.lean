import Std.Data.ExtTreeMap
import Gazetteer.RecordId

/-! Which record belongs to which key, and the index as stored bytes: the entries by ascending
key, behind their number. Reading accepts the entries in any order, and of two with one key the
later. -/
namespace Gazetteer

abbrev KeyIndex := Std.ExtTreeMap (List UInt8) RecordId

namespace KeyIndex

/-- Entries in the order given: each the key behind its length, then the place. -/
def entries : Bytes.Layout (List (List UInt8 × RecordId)) :=
  .list (Bytes.Layout.blob.both RecordId.layout)

def layout : Bytes.Layout KeyIndex :=
  entries.convert (Std.ExtTreeMap.ofList · compare) Std.ExtTreeMap.toList

end KeyIndex

end Gazetteer
