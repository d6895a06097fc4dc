import Gazetteer.Proofs.Bytes.Truncated
import Gazetteer.Keyed

/-! A snapshot brings back the index that it was taken of, or nothing at all. The order of its
entries and what follows them make no difference; a snapshot that was cut off is refused, and
whatever is refused leaves the index, the pages and the disk as they were. -/
namespace Gazetteer

namespace KeyIndex

open Bytes (Cut littleEndian)
open Bytes.Layout (Countable)

variable {index : KeyIndex} {listed : List (List UInt8 × RecordId)}

theorem write_entries (listed : List (List UInt8 × RecordId)) :
    entries.write listed = littleEndian 8 listed.length ++ listed.flatMap fun e =>
      littleEndian 8 e.1.length ++ e.1 ++ (littleEndian 8 e.2.page ++ littleEndian 8 e.2.slot) :=
  rfl

theorem demanding_entries : entries.Demanding fun listed =>
    Countable listed.length ∧ ∀ e ∈ listed, Countable e.1.length ∧ e.2.Countable := by
  have place : RecordId.layout.Demanding RecordId.Countable :=
    (((Bytes.Layout.demanding_nat 8).mono fun _ _ => trivial).both (Bytes.Layout.faithful_nat 8)
      ((Bytes.Layout.demanding_nat 8).mono fun _ _ => trivial)).convert
  have entry := Bytes.Layout.demanding_blob.both Bytes.Layout.faithful_blob place
  exact entry.list (Bytes.Layout.faithful_blob.both RecordId.faithful_layout)

theorem decode_entries (storable : index.Storable) (perm : listed.Perm index.toList)
    (rest : List UInt8) : layout.decode (entries.write listed ++ rest) = .ok index := by
  have read := faithful_entries listed (storable.listed perm) rest
  change ((entries.read >>= fun listed => pure (Std.ExtTreeMap.ofList listed compare))
    (entries.write listed ++ rest)).map Prod.fst = _
  rw [Bytes.Reader.bind_of_ok read, ofList_of_perm perm]
  rfl

theorem decode_cut (storable : index.Storable) (perm : listed.Perm index.toList)
    {front : List UInt8} (cut : Cut front (entries.write listed)) :
    layout.decode front = .error .unexpectedEnd := by
  have read := demanding_entries listed (storable.listed perm) front cut
  change ((entries.read >>= fun listed => pure (Std.ExtTreeMap.ofList listed compare))
    front).map Prod.fst = _
  rw [Bytes.Reader.bind_of_error read]
  rfl

end KeyIndex

namespace Keyed

/-- The index of some bytes taken into a store in use: the answer, and what is left of the store and
the pool. -/
def importing (k : Keyed) (bytes : List UInt8) (p : Pool) : Except Fault Unit × Keyed × Pool :=
  match k.restore bytes p with
  | (.ok restored, q) => (.ok (), restored, q)
  | (.error fault, q) => (.error fault, k, q)

theorem importing_of_ok {k : Keyed} {bytes : List UInt8} {index : KeyIndex}
    (decoded : KeyIndex.layout.decode bytes = .ok index) (p : Pool) :
    k.importing bytes p = (.ok (), { k with index }, p.note (.imported index.size)) := by
  rw [importing, restore, decoded]
  rfl

theorem importing_of_error {k : Keyed} {bytes : List UInt8} {fault : DecodeFault}
    (refused : KeyIndex.layout.decode bytes = .error fault) (p : Pool) :
    k.importing bytes p = (.error (.unreadable fault), k, p) := by
  rw [importing, restore, refused]
  rfl

/-- The entries of an index, written in any order and with anything behind them, bring back that
index. If bytes are missing at the end they are refused, and nothing is changed by any bytes that
are refused. -/
theorem importing_all_or_nothing {k : Keyed} (storable : k.index.Storable) (other : Keyed)
    (p : Pool) :
    k.snapshot = KeyIndex.entries.write k.index.toList ∧
    (∀ listed : List (List UInt8 × RecordId), listed.Perm k.index.toList →
      KeyIndex.entries.write listed = Bytes.littleEndian 8 listed.length ++
        (listed.flatMap fun e => Bytes.littleEndian 8 e.1.length ++ e.1 ++
          (Bytes.littleEndian 8 e.2.page ++ Bytes.littleEndian 8 e.2.slot)) ∧
      (∀ rest, other.importing (KeyIndex.entries.write listed ++ rest) p =
        (.ok (), { other with index := k.index }, p.note (.imported k.index.size))) ∧
      ∀ front, front <+: KeyIndex.entries.write listed → front ≠ KeyIndex.entries.write listed →
        other.importing front p = (.error (.unreadable .unexpectedEnd), other, p)) ∧
    ∀ bytes fault, (other.importing bytes p).1 = .error fault →
      ∃ cause, other.importing bytes p = (.error (.unreadable cause), other, p) := by
  refine ⟨rfl, ?_, ?_⟩
  · intro listed perm
    refine ⟨KeyIndex.write_entries listed, fun rest => ?_, fun front short missing => ?_⟩
    · exact importing_of_ok (KeyIndex.decode_entries storable perm rest) p
    · have cut := Bytes.cut_iff.mpr ⟨short, missing⟩
      exact importing_of_error (KeyIndex.decode_cut storable perm cut) p
  · intro bytes fault refused
    cases decoded : KeyIndex.layout.decode bytes with
    | error cause => exact ⟨cause, importing_of_error decoded p⟩
    | ok index =>
      rw [importing_of_ok decoded] at refused
      cases refused

/-- Two entries in descending order with a byte behind them, and a snapshot without its last
byte. -/
theorem importing_behind_restart : ∃ (k other : Keyed) (p : Pool), k.index.Storable ∧
    k.locate [1] = some ⟨3, 0⟩ ∧ k.locate [] = some ⟨0, 7⟩ ∧ other.index = ∅ ∧
    other.importing (KeyIndex.entries.write [([1], ⟨3, 0⟩), ([], ⟨0, 7⟩)] ++ [255]) p =
      (.ok (), { other with index := k.index }, p.note (.imported 2)) ∧
    other.importing k.snapshot.dropLast p = (.error (.unreadable .unexpectedEnd), other, p) := by
  let index : KeyIndex := Std.ExtTreeMap.insert (Std.ExtTreeMap.insert ∅ [] ⟨0, 7⟩) [1] ⟨3, 0⟩
  let other : Keyed := { settings := {}, accepted := by decide }
  let p : Pool := .over .inMemory {}
  have storable : index.Storable := by
    refine ⟨by decide +kernel, fun key place found => ?_⟩
    simp only [index, Std.ExtTreeMap.getElem?_insert, Std.ExtTreeMap.getElem?_empty,
      Std.LawfulEqCmp.compare_eq_iff_eq] at found
    split at found
    · next same =>
      cases same
      cases found
      decide
    · split at found
      · next same =>
        cases same
        cases found
        decide
      · cases found
  have listed : index.toList = [([], ⟨0, 7⟩), ([1], ⟨3, 0⟩)] := by decide +kernel
  obtain ⟨written, reads, -⟩ :=
    importing_all_or_nothing (k := { other with index }) storable other p
  have turned : [([1], ⟨3, 0⟩), ([], ⟨0, 7⟩)].Perm index.toList := by
    rw [listed]
    exact .swap _ _ _
  obtain ⟨-, taken, -⟩ := reads _ turned
  obtain ⟨-, -, cut⟩ := reads _ (.refl _)
  have size : index.size = 2 := by decide +kernel
  refine ⟨{ other with index }, other, p, storable, by decide +kernel, by decide +kernel, rfl, ?_,
    ?_⟩
  · have read := taken [255]
    rwa [size] at read
  · apply cut
    · exact List.dropLast_prefix _
    · rw [written, listed]
      decide

end Keyed

end Gazetteer
