import Gazetteer.Keyed.Index

/-! Stored forms that lose nothing. What a layout wrote is read back from the front of the bytes,
and what follows is handed on; so the parts of a form can be taken one by one. A length or a number
is stored in a word, and one that is too long for it is not read back. -/
namespace Gazetteer.Bytes

variable {α β : Type} {fits : α → Prop} {others : β → Prop}

theorem Reader.bind_of_ok {x : Reader α} {f : α → Reader β} {a : α} {bytes rest : List UInt8}
    (h : x bytes = .ok (a, rest)) : (x >>= f) bytes = f a rest := by
  change (x bytes >>= fun found => f found.1 found.2) = f a rest
  rw [h]
  rfl

namespace Layout

/-- The values that `fits` allows are read back, whatever follows them. -/
def Faithful (layout : Layout α) (fits : α → Prop) : Prop :=
  ∀ a, fits a → ∀ rest, layout.read (layout.write a ++ rest) = .ok (a, rest)

theorem Faithful.mono {layout : Layout α} {fewer : α → Prop} (h : layout.Faithful fits)
    (all : ∀ a, fewer a → fits a) : layout.Faithful fewer :=
  fun a few => h a (all a few)

theorem Faithful.decode {layout : Layout α} (h : layout.Faithful fits) {a : α} (fit : fits a) :
    layout.decode (layout.write a) = .ok a := by
  have read := h a fit []
  rw [List.append_nil] at read
  change (layout.read (layout.write a)).map Prod.fst = _
  rw [read]
  rfl

theorem faithful_nat (width : Nat) : (nat width).Faithful (· < Nat.pow 256 width) := by
  intro n fit rest
  have front := Reader.take_append (littleEndian width n) rest
  rw [littleEndian_length] at front
  refine (Reader.bind_of_ok front).trans ?_
  rw [ofLittleEndian_littleEndian, Nat.mod_eq_of_lt fit]
  rfl

theorem Faithful.both {first : Layout α} {second : Layout β} (h : first.Faithful fits)
    (k : second.Faithful others) :
    (first.both second).Faithful fun x => fits x.1 ∧ others x.2 := by
  rintro ⟨a, b⟩ ⟨here, there⟩ rest
  change (first.read >>= fun a => second.read >>= fun b => pure (a, b))
    ((first.write a ++ second.write b) ++ rest) = _
  rw [List.append_assoc, Reader.bind_of_ok (h a here _), Reader.bind_of_ok (k b there rest)]
  rfl

theorem Faithful.convert {layout : Layout α} (h : layout.Faithful fits) {into : α → β}
    {back : β → α} :
    (layout.convert into back).Faithful fun b => fits (back b) ∧ into (back b) = b := by
  rintro b ⟨fit, same⟩ rest
  refine (Reader.bind_of_ok (h (back b) fit rest)).trans ?_
  rw [same]
  rfl

/-- A length is stored in eight bytes. -/
def Countable (length : Nat) : Prop := length < Nat.pow 256 8

instance (length : Nat) : Decidable (Countable length) := inferInstanceAs (Decidable (_ < _))

theorem faithful_blob : blob.Faithful fun bytes => Countable bytes.length := by
  intro bytes fit rest
  change ((nat 8).read >>= Reader.take) (((nat 8).write bytes.length ++ bytes) ++ rest) = _
  rw [List.append_assoc, Reader.bind_of_ok (faithful_nat 8 _ fit (bytes ++ rest))]
  exact Reader.take_append bytes rest

theorem Faithful.count {item : Layout α} (h : item.Faithful fits) (xs : List α)
    (all : ∀ x ∈ xs, fits x) (rest : List UInt8) :
    item.read.count xs.length (xs.flatMap item.write ++ rest) = .ok (xs, rest) := by
  induction xs with
  | nil => rfl
  | cons x xs ih =>
    have here := all x List.mem_cons_self
    have there := ih fun y member => all y (List.mem_cons_of_mem x member)
    rw [List.flatMap_cons, List.append_assoc, List.length_cons, Reader.count,
      Reader.bind_of_ok (h x here _), Reader.bind_of_ok there]
    rfl

theorem Faithful.list {item : Layout α} (h : item.Faithful fits) :
    (list item).Faithful fun xs => Countable xs.length ∧ ∀ x ∈ xs, fits x := by
  rintro xs ⟨fit, all⟩ rest
  change ((nat 8).read >>= item.read.count)
    (((nat 8).write xs.length ++ xs.flatMap item.write) ++ rest) = _
  rw [List.append_assoc, Reader.bind_of_ok (faithful_nat 8 _ fit _)]
  exact h.count xs all rest

end Layout

end Bytes

open Bytes.Layout (Countable Faithful)

def RecordId.Countable (place : RecordId) : Prop :=
  Bytes.Layout.Countable place.page ∧ Bytes.Layout.Countable place.slot

instance (place : RecordId) : Decidable place.Countable := inferInstanceAs (Decidable (_ ∧ _))

theorem RecordId.faithful_layout : RecordId.layout.Faithful RecordId.Countable :=
  ((Bytes.Layout.faithful_nat 8).both (Bytes.Layout.faithful_nat 8)).convert.mono
    fun _ fit => ⟨fit, rfl⟩

namespace KeyIndex

/-- The number of the entries, the lengths of their keys and their places have room in a word. -/
structure Storable (index : KeyIndex) : Prop where
  size : Countable index.size
  entry : ∀ (key : List UInt8) (place : RecordId), index[key]? = some place →
    Countable key.length ∧ place.Countable

theorem ofList_of_perm {index : KeyIndex} {listed : List (List UInt8 × RecordId)}
    (perm : listed.Perm index.toList) : Std.ExtTreeMap.ofList listed compare = index := by
  have distinct : listed.Pairwise fun a b => ¬ compare a.1 b.1 = .eq := by
    refine perm.symm.pairwise Std.ExtTreeMap.distinct_keys_toList fun apart same => apart ?_
    exact Std.OrientedCmp.eq_symm same
  apply Std.ExtTreeMap.ext_getElem?
  intro key
  cases found : index[key]? with
  | some place =>
    have member := perm.mem_iff.mpr (Std.ExtTreeMap.mem_toList_iff_getElem?_eq_some.mpr found)
    exact Std.ExtTreeMap.getElem?_ofList_of_mem Std.ReflCmp.compare_self distinct member
  | none =>
    apply Std.ExtTreeMap.getElem?_ofList_of_contains_eq_false
    apply Bool.eq_false_iff.mpr
    intro present
    obtain ⟨⟨same, place⟩, member, rfl⟩ := List.mem_map.mp (List.contains_iff_mem.mp present)
    rw [Std.ExtTreeMap.mem_toList_iff_getElem?_eq_some.mp (perm.mem_iff.mp member)] at found
    cases found

theorem Storable.listed {index : KeyIndex} (h : index.Storable)
    {listed : List (List UInt8 × RecordId)} (perm : listed.Perm index.toList) :
    Countable listed.length ∧ ∀ e ∈ listed, Countable e.1.length ∧ e.2.Countable := by
  constructor
  · rw [perm.length_eq, Std.ExtTreeMap.length_toList]
    exact h.size
  · rintro ⟨key, place⟩ member
    exact h.entry key place
      (Std.ExtTreeMap.mem_toList_iff_getElem?_eq_some.mp (perm.mem_iff.mp member))

theorem faithful_entries : entries.Faithful fun listed =>
    Countable listed.length ∧ ∀ e ∈ listed, Countable e.1.length ∧ e.2.Countable :=
  (Bytes.Layout.faithful_blob.both RecordId.faithful_layout).list

theorem faithful_layout : layout.Faithful Storable :=
  faithful_entries.convert.mono fun _ fit => ⟨fit.listed (.refl _), ofList_of_perm (.refl _)⟩

end KeyIndex

end Gazetteer
