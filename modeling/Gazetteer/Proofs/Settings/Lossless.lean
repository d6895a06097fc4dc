import Gazetteer.Proofs.Bytes.Canonical
import Gazetteer.Settings.Stored

/-! Settings that come back from their stored form bit for bit, whether or not they make sense. The
form of settings is found in front of any other bytes, it cannot be cut short, and no bytes are
taken for settings that do not begin with a form. -/
namespace Gazetteer

open Bytes (littleEndian words)
open Bytes.Layout (exact_double exact_word32 exact_word64)

theorem BufferSettings.exact_layout : BufferSettings.layout.Exact :=
  exact_word64.option.convert (fun _ => rfl) fun _ => rfl

theorem KeyedSettings.exact_layout : KeyedSettings.layout.Exact :=
  exact_word64.convert (fun _ => rfl) fun _ => rfl

theorem GeohashSettings.exact_layout : GeohashSettings.layout.Exact :=
  (exact_word64.both (exact_word64.both exact_double)).convert (fun _ => rfl) fun _ => rfl

theorem Region.exact_layout : Region.layout.Exact :=
  (exact_double.both (exact_double.both (exact_double.both exact_double))).convert
    (fun _ => rfl) fun _ => rfl

theorem HilbertSettings.exact_layout : HilbertSettings.layout.Exact :=
  (exact_word32.both (exact_word64.both (Region.exact_layout.both
    (exact_double.both exact_double)))).convert (fun _ => rfl) fun _ => rfl

theorem PlacementSettings.exact_layout : PlacementSettings.layout.Exact := by
  apply (GeohashSettings.exact_layout.either HilbertSettings.exact_layout).convert
  · intro s
    cases s <;> rfl
  · intro s
    cases s <;> rfl

/-- Every kind of settings, valid or not, is stored without loss, and as the words of its fields in
their order. Only the order of a Hilbert grid and the number of a placement have four bytes. -/
theorem settings_stored_exactly :
    BufferSettings.layout.Lossless ∧ KeyedSettings.layout.Lossless ∧
    GeohashSettings.layout.Lossless ∧ HilbertSettings.layout.Lossless ∧
    PlacementSettings.layout.Lossless ∧
    BufferSettings.layout.write ⟨none⟩ = [0] ∧
    (∀ hint, BufferSettings.layout.write ⟨some hint⟩ = 1 :: words [hint]) ∧
    (∀ s, KeyedSettings.layout.write s = words [s.maxPages]) ∧
    (∀ s, GeohashSettings.layout.write s = words [s.precision, s.maxPages, s.cellSizeKm.bits]) ∧
    (∀ s, HilbertSettings.layout.write s = littleEndian 4 s.order.toNat ++
      words [s.maxPages, s.region.minLat.bits, s.region.maxLat.bits, s.region.minLng.bits,
        s.region.maxLng.bits, s.kmPerGridLat.bits, s.kmPerGridLng.bits]) ∧
    (∀ s, PlacementSettings.layout.write (.geohash s) =
      littleEndian 4 0 ++ GeohashSettings.layout.write s) ∧
    ∀ s, PlacementSettings.layout.write (.hilbert s) =
      littleEndian 4 1 ++ HilbertSettings.layout.write s := by
  exact ⟨BufferSettings.exact_layout.lossless, KeyedSettings.exact_layout.lossless,
    GeohashSettings.exact_layout.lossless, HilbertSettings.exact_layout.lossless,
    PlacementSettings.exact_layout.lossless, rfl, fun _ => rfl, fun _ => rfl, fun _ => rfl,
    fun _ => rfl, fun _ => rfl, fun _ => rfl⟩

/-- Settings that make no sense, with a NaN of their own: in front of a byte, and without their last
byte. -/
theorem settings_stored_nan : ∃ s : HilbertSettings,
    s.kmPerGridLat.bits = 0x7FF8000000000001 ∧ s.fault? ≠ none ∧
    PlacementSettings.layout.decode (PlacementSettings.layout.write (.hilbert s) ++ [255]) =
      .ok (.hilbert s) ∧
    PlacementSettings.layout.decode (PlacementSettings.layout.write (.hilbert s)).dropLast =
      .error .unexpectedEnd := by
  obtain ⟨-, -, -, -, lossless, -⟩ := settings_stored_exactly
  let s : HilbertSettings := { order := 0, kmPerGridLat := ⟨0x7FF8000000000001⟩ }
  refine ⟨s, rfl, by decide, lossless.read_back _ _, ?_⟩
  apply lossless.cut_off _ _ (List.dropLast_prefix _)
  decide

end Gazetteer
