import Gazetteer.Bytes.Layout
import Gazetteer.Settings

/-! Settings as stored bytes: the fields in the order in which the settings list them. -/
namespace Gazetteer

open Bytes (Layout)

def BufferSettings.layout : Layout BufferSettings :=
  (Layout.option .word64).convert BufferSettings.mk BufferSettings.capacityHint

def KeyedSettings.layout : Layout KeyedSettings :=
  Layout.word64.convert KeyedSettings.mk KeyedSettings.maxPages

def GeohashSettings.layout : Layout GeohashSettings :=
  (Layout.word64.both (Layout.word64.both .double)).convert
    (fun (precision, maxPages, cellSizeKm) => ⟨precision, maxPages, cellSizeKm⟩)
    (fun s => (s.precision, s.maxPages, s.cellSizeKm))

def Region.layout : Layout Region :=
  (Layout.double.both (Layout.double.both (Layout.double.both .double))).convert
    (fun (minLat, maxLat, minLng, maxLng) => ⟨minLat, maxLat, minLng, maxLng⟩)
    (fun r => (r.minLat, r.maxLat, r.minLng, r.maxLng))

def HilbertSettings.layout : Layout HilbertSettings :=
  (Layout.word32.both (Layout.word64.both (Region.layout.both
    (Layout.double.both .double)))).convert
    (fun (order, maxPages, region, kmLat, kmLng) => ⟨order, maxPages, region, kmLat, kmLng⟩)
    (fun s => (s.order, s.maxPages, s.region, s.kmPerGridLat, s.kmPerGridLng))

def PlacementSettings.layout : Layout PlacementSettings :=
  (GeohashSettings.layout.either HilbertSettings.layout).convert
    (fun
      | .inl s => .geohash s
      | .inr s => .hilbert s)
    (fun
      | .geohash s => .inl s
      | .hilbert s => .inr s)

end Gazetteer
