import Gazetteer.Proofs.Bytes.Faithful
import Gazetteer.Proofs.Keyed.Map

/-! A snapshot brings back the index that it was taken of. The index is small enough for that, since
its keys lie at places of their own, and places are few; and the places still hold what they held,
since no put takes a slot that was given out. -/
namespace Gazetteer

theorem Block.slot_lt {b : Block} {slot : Nat} {value : List UInt8}
    (h : b.record? slot = some value) : slot < 0x100000000 := by
  by_contra beyond
  have past : b.count ≤ slot := Nat.le_of_lt_succ (Nat.lt_of_lt_of_le (b.word_lt 0) (by omega))
  rw [record?_of_count_le past] at h
  cases h

namespace Chain

variable {view : Nat → Block} {before after : Nat → Block}

theorem Passes.last_lt {length id last : Nat} (h : Passes view length id last)
    (low : id < linkLimit) : last < linkLimit := by
  induction h with
  | here id => exact low
  | full refused linked rest ih => exact ih (Block.link?_lt linked)

theorem Room.place_lt {maxPages length home place : Nat} {growth : Pool.Changes}
    (h : Room view maxPages length home place growth) (low : home < linkLimit) :
    place < linkLimit := by
  cases h with
  | found passed accepted => exact passed.last_lt low
  | grown passed refused unlinked blank least inside linkable => exact linkable

end Chain

namespace Keyed

open Bytes.Layout (Countable)

/-- The places of the index can be stored and hold a record, and no two keys share one. -/
structure Placed (view : Nat → Block) (k : Keyed) : Prop where
  short : ∀ (key : List UInt8) (place : RecordId), k.locate key = some place → Countable key.length
  low : ∀ (key : List UInt8) (place : RecordId), k.locate key = some place → place.page < linkLimit
  held : ∀ (key : List UInt8) (place : RecordId), k.locate key = some place →
    ∃ value, (view place.page).record? place.slot = some value
  apart : ∀ (key other : List UInt8) (place : RecordId), k.locate key = some place →
    k.locate other = some place → key = other

def Kept (before after : Nat → Block) : Prop :=
  ∀ (id slot : Nat) (value : List UInt8), (before id).record? slot = some value →
    (after id).record? slot = some value

variable {before after view : Nat → Block} {k : Keyed} {p q : Pool}

theorem Placed.of_kept (h : k.Placed before) (kept : Kept before after) : k.Placed after where
  short := h.short
  low := h.low
  held := by
    intro key place located
    obtain ⟨value, there⟩ := h.held key place located
    exact ⟨value, kept _ _ _ there⟩
  apart := h.apart

theorem Placed.insert (h : k.Placed before) (kept : Kept before after) {key value : List UInt8}
    {place : RecordId} (short : Countable key.length) (low : place.page < linkLimit)
    (free : (before place.page).record? place.slot = none)
    (there : (after place.page).record? place.slot = some value) :
    Placed after { k with index := k.index.insert key place } := by
  -- the places that the index had were taken, and the new one was not
  have new : ∀ other, k.locate other ≠ some place := by
    intro other located
    obtain ⟨old, held⟩ := h.held other place located
    rw [free] at held
    cases held
  have entries : ∀ other spot : _,
      locate { k with index := k.index.insert key place } other = some spot →
        key = other ∧ spot = place ∨ k.locate other = some spot := by
    intro other spot located
    rw [locate_insert] at located
    split at located
    · next same =>
      cases located
      exact Or.inl ⟨same, rfl⟩
    · exact Or.inr located
  constructor
  · intro other spot located
    rcases entries other spot located with ⟨rfl, -⟩ | old
    · exact short
    · exact h.short other spot old
  · intro other spot located
    rcases entries other spot located with ⟨-, rfl⟩ | old
    · exact low
    · exact h.low other spot old
  · intro other spot located
    rcases entries other spot located with ⟨-, rfl⟩ | old
    · exact ⟨value, there⟩
    · exact (h.of_kept kept).held other spot old
  · intro first second spot left right
    rcases entries first spot left with ⟨rfl, rfl⟩ | old
    · rcases entries second _ right with ⟨rfl, -⟩ | old
      · rfl
      · exact (new second old).elim
    · rcases entries second spot right with ⟨rfl, rfl⟩ | older
      · exact (new first old).elim
      · exact h.apart first second spot old older

theorem length_le_of_nodup {codes : List Nat} {bound : Nat} (nodup : codes.Nodup)
    (below : ∀ code ∈ codes, code < bound) : codes.length ≤ bound := by
  have inside : codes ⊆ List.range bound :=
    fun code member => List.mem_range.mpr (below code member)
  have shorter := (List.subperm_of_subset nodup inside).length_le
  rwa [List.length_range] at shorter

theorem Placed.storable (h : k.Placed view) : KeyIndex.Storable k.index := by
  have located : ∀ entry ∈ k.index.toList, k.locate entry.1 = some entry.2 :=
    fun entry member => Std.ExtTreeMap.mem_toList_iff_getElem?_eq_some.mp member
  have slot : ∀ (key : List UInt8) (place : RecordId), k.locate key = some place →
      place.slot < 0x100000000 := by
    intro key place found
    obtain ⟨value, held⟩ := h.held key place found
    exact Block.slot_lt held
  constructor
  · -- a place is one of 2 ^ 31 pages and one of 2 ^ 32 slots
    have entries : k.index.toList.Nodup :=
      Std.ExtTreeMap.distinct_keys_toList.imp fun apart same => apart (by simp [same])
    have codes : (k.index.toList.map fun e => e.2.page * 0x100000000 + e.2.slot).Nodup := by
      apply List.Nodup.map_on _ entries
      rintro ⟨key, place⟩ member ⟨other, place'⟩ member' same
      have first := located _ member
      have second := located _ member'
      have slots := slot _ _ first
      have slots' := slot _ _ second
      obtain ⟨page, number⟩ := place
      obtain ⟨page', number'⟩ := place'
      obtain rfl : page = page' := by
        simp only at same slots slots'
        omega
      obtain rfl : number = number' := Nat.add_left_cancel same
      cases h.apart key other _ first second
      rfl
    have below : ∀ code ∈ k.index.toList.map fun e => e.2.page * 0x100000000 + e.2.slot,
        code < linkLimit * 0x100000000 := by
      intro code member
      obtain ⟨entry, listed, rfl⟩ := List.mem_map.mp member
      have page := h.low _ _ (located entry listed)
      have number := slot _ _ (located entry listed)
      simp only [linkLimit] at page ⊢
      omega
    have few := length_le_of_nodup codes below
    rw [List.length_map, Std.ExtTreeMap.length_toList] at few
    exact Nat.lt_of_le_of_lt few (by decide)
  · intro key place found
    refine ⟨h.short key place found, ?_, ?_⟩
    · exact Nat.lt_trans (h.low key place found) (by decide)
    · exact Nat.lt_trans (slot key place found) (by decide)

theorem restore_snapshot (storable : KeyIndex.Storable k.index) (other : Keyed) (p : Pool) :
    other.restore k.snapshot p =
      (.ok { other with index := k.index }, p.note (.imported k.index.size)) := by
  have decoded : KeyIndex.layout.decode k.snapshot = .ok k.index :=
    KeyIndex.faithful_layout.decode storable
  rw [restore, decoded]
  rfl

theorem Placed.get_same (h : k.Placed before) {later : Keyed} (index : later.index = k.index)
    (past : p.view = before) (kept : Kept before q.view) (readable : p.Readable)
    (readable' : q.Readable) (key : List UInt8) :
    ∃ answer, (k.get key p).1 = .ok answer ∧ (later.get key q).1 = .ok answer := by
  obtain ⟨r, first⟩ := get_answers readable k key
  obtain ⟨s, second⟩ := get_answers readable' later key
  have same : later.locate key = k.locate key := by simp only [locate, index]
  rw [first, second, same]
  refine ⟨_, rfl, ?_⟩
  cases located : k.locate key with
  | none => simp only [Option.bind_none]
  | some place =>
    obtain ⟨value, held⟩ := h.held key place located
    simp only [Option.bind_some, past, held, kept _ _ _ held]

end Keyed

end Gazetteer
