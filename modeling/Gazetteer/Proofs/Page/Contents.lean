import Gazetteer.Page.Slotted
import Mathlib.Algebra.Ring.Nat
import Mathlib.Data.List.Basic

/-! What a formatted block holds, as a list of values: the count, the directory and the heap agree
on it, so a record is read by its position in the list. The predicate is not a check that the store
makes; it is kept by every append and every link, and a format establishes it. -/
namespace Gazetteer.Block

/-- Bytes of the heap that some records take, each with its length. -/
def used (values : List (List UInt8)) : Nat := (values.map fun v => lengthSize + v.length).sum

/-- The heap is filled from the end of the block downwards, without gaps. -/
structure Holds (b : Block) (values : List (List UInt8)) : Prop where
  formatted : b.isFormatted = true
  count : b.count = values.length
  free : b.freeStart + used values = pageSize
  room : directoryEnd values.length ≤ b.freeStart
  offset : ∀ i < values.length, b.word (directoryEnd i) + used (values.take (i + 1)) = pageSize
  body : ∀ i value, values[i]? = some value →
    b.slice (b.word (directoryEnd i)) (lengthSize + value.length) =
      Bytes.bigEndian 4 value.length ++ value

theorem used_append (values : List (List UInt8)) (value : List UInt8) :
    used (values ++ [value]) = used values + (lengthSize + value.length) := by
  simp [used]

theorem used_take_succ {values : List (List UInt8)} {i : Nat} {value : List UInt8}
    (h : values[i]? = some value) :
    used (values.take (i + 1)) = used (values.take i) + (lengthSize + value.length) := by
  rw [List.take_add_one, h, Option.toList_some, used_append]

theorem used_take_le (values : List (List UInt8)) (n : Nat) :
    used (values.take n) ≤ used values := by
  have split : used (values.take n) + used (values.drop n) = used values := by
    simp only [used]
    rw [← List.sum_append, ← List.map_append, List.take_append_drop]
  omega

theorem slice_append (b : Block) (offset first second : Nat) :
    b.slice offset (first + second) = b.slice offset first ++ b.slice (offset + first) second := by
  simp only [slice, ← List.map_append]
  rw [List.range'_append_1]

theorem record?_of_slice {b : Block} {slot offset : Nat} {value : List UInt8}
    (formatted : b.isFormatted = true) (given : slot < b.count)
    (directory : directoryEnd (slot + 1) ≤ pageSize)
    (pointer : b.word (directoryEnd slot) = offset)
    (inside : offset + lengthSize + value.length ≤ pageSize)
    (body : b.slice offset (lengthSize + value.length) =
      Bytes.bigEndian 4 value.length ++ value) : b.record? slot = some value := by
  rw [lengthSize, slice_append] at body
  obtain ⟨size, text⟩ := List.append_inj body (by simp)
  have bits : Nat.pow 256 4 = 0x100000000 := by decide
  have length : b.word offset = value.length := by
    rw [word_eq, size, Bytes.ofBigEndian_bigEndian, bits]
    refine Nat.mod_eq_of_lt ?_
    simp only [pageSize] at inside
    omega
  have first : b.word? (directoryEnd slot) = some offset := by
    rw [word?, pointer, if_pos]
    simp only [directoryEnd, slotSize] at directory ⊢
    omega
  have second : b.word? offset = some value.length := by
    rw [word?, length, if_pos]
    simp only [lengthSize] at inside
    omega
  have whole : b.slice? (offset + lengthSize) value.length = some value := by
    rw [slice?, if_pos inside, lengthSize, text]
  rw [record?, if_pos ⟨formatted, given⟩]
  simp only [first, second, whole, Option.bind_eq_bind, Option.bind_some]

theorem hasRoom_iff {b : Block} {length : Nat} :
    b.hasRoom length = true ↔
      b.freeStart ≤ pageSize ∧ directoryEnd (b.count + 1) + lengthSize + length ≤ b.freeStart := by
  simp [hasRoom]

section Push

variable {b : Block} {value : List UInt8}

/-- An append is not seen between the mark and the new slot, nor between that slot and the new
record, nor behind the free space. -/
theorem slice_push_frame {start length : Nat} (room : b.hasRoom value.length = true)
    (header : 8 ≤ start)
    (apart : start + length ≤ directoryEnd b.count ∨
      directoryEnd (b.count + 1) ≤ start ∧
        start + length ≤ b.freeStart - (lengthSize + value.length) ∨
      b.freeStart ≤ start) :
    (b.push value).slice start length = b.slice start length := by
  have fits := hasRoom_iff.mp room
  simp only [directoryEnd, headerSize, slotSize, lengthSize] at fits apart
  simp only [push, setWord]
  rw [slice_overwrite_frame (by simp; omega), slice_overwrite_frame (by simp; omega),
    slice_overwrite_frame, slice_overwrite_frame]
  · simp only [List.length_append, Bytes.bigEndian_length, lengthSize]
    omega
  · simp only [List.length_append, Bytes.bigEndian_length, directoryEnd, headerSize, slotSize]
    omega

theorem word_push_frame {place : Nat} (room : b.hasRoom value.length = true)
    (header : 8 ≤ place) (apart : place + 4 ≤ directoryEnd b.count) :
    (b.push value).word place = b.word place := by
  rw [word_eq, word_eq, slice_push_frame room header (Or.inl apart)]

theorem count_push (room : b.hasRoom value.length = true) :
    (b.push value).count = b.count + 1 := by
  have fits := hasRoom_iff.mp room
  simp only [directoryEnd, headerSize, slotSize, lengthSize, pageSize] at fits
  rw [count, push, word_setWord_frame (by decide), word_setWord (by decide)]
  exact Nat.mod_eq_of_lt (by omega)

theorem freeStart_push (room : b.hasRoom value.length = true) :
    (b.push value).freeStart = b.freeStart - (lengthSize + value.length) := by
  have fits := hasRoom_iff.mp room
  simp only [pageSize] at fits
  rw [freeStart, push, word_setWord (by decide)]
  exact Nat.mod_eq_of_lt (by omega)

theorem isFormatted_push (room : b.hasRoom value.length = true) :
    (b.push value).isFormatted = b.isFormatted := by
  rw [isFormatted, isFormatted, word_push_frame room (by decide)]
  simp only [directoryEnd, headerSize]
  omega

theorem link?_push (room : b.hasRoom value.length = true) : (b.push value).link? = b.link? := by
  rw [link?, link?, word_push_frame room (by decide)]
  simp only [directoryEnd, headerSize]
  omega

theorem word_push_slot (room : b.hasRoom value.length = true) :
    (b.push value).word (directoryEnd b.count) = b.freeStart - (lengthSize + value.length) := by
  have fits := hasRoom_iff.mp room
  simp only [directoryEnd, headerSize, slotSize, lengthSize, pageSize] at fits
  have slot := @slice_overwrite
    (b.overwrite (b.freeStart - (lengthSize + value.length))
      (Bytes.bigEndian 4 value.length ++ value)) (directoryEnd b.count)
    (Bytes.bigEndian 4 (b.freeStart - (lengthSize + value.length)) ++
      Bytes.bigEndian 4 (lengthSize + value.length))
    (by simp only [List.length_append, Bytes.bigEndian_length, directoryEnd, headerSize, slotSize,
          pageSize]
        omega)
  simp only [List.length_append, Bytes.bigEndian_length] at slot
  rw [slice_append] at slot
  have first := (List.append_inj slot (by simp)).1
  have bits : Nat.pow 256 4 = 0x100000000 := by decide
  rw [word_eq, push, setWord, setWord,
    slice_overwrite_frame (by simp [directoryEnd, headerSize]; omega),
    slice_overwrite_frame (by simp [directoryEnd, headerSize]; omega), first,
    Bytes.ofBigEndian_bigEndian, bits]
  exact Nat.mod_eq_of_lt (by omega)

theorem slice_push_body (room : b.hasRoom value.length = true) :
    (b.push value).slice (b.freeStart - (lengthSize + value.length))
        (lengthSize + value.length) = Bytes.bigEndian 4 value.length ++ value := by
  have fits := hasRoom_iff.mp room
  simp only [directoryEnd, headerSize, slotSize, lengthSize] at fits
  have written := @slice_overwrite b (b.freeStart - (lengthSize + value.length))
    (Bytes.bigEndian 4 value.length ++ value)
    (by simp only [List.length_append, Bytes.bigEndian_length, lengthSize]; omega)
  rw [List.length_append, Bytes.bigEndian_length] at written
  simp only [push, setWord]
  rw [slice_overwrite_frame (by simp [lengthSize]; omega),
    slice_overwrite_frame (by simp [lengthSize]; omega), slice_overwrite_frame]
  · exact written
  · simp only [List.length_append, Bytes.bigEndian_length, directoryEnd, headerSize, slotSize,
      lengthSize]
    omega

theorem record?_push (formatted : b.isFormatted = true) (room : b.hasRoom value.length = true) :
    (b.push value).record? b.count = some value := by
  have fits := hasRoom_iff.mp room
  refine record?_of_slice ?_ ?_ ?_ (word_push_slot room) ?_ (slice_push_body room)
  · rw [isFormatted_push room]
    exact formatted
  · rw [count_push room]
    exact Nat.lt_succ_self _
  · omega
  · omega

end Push

theorem isFormatted_linkTo (b : Block) (page : Nat) :
    (b.linkTo page).isFormatted = b.isFormatted := by
  rw [isFormatted, isFormatted, Block.linkTo, word_setWord_frame (by decide)]

theorem holds_format (b : Block) : Holds b.format [] where
  formatted := isFormatted_format b
  count := count_format b
  free := by rw [freeStart_format]; rfl
  room := by rw [freeStart_format]; decide
  offset := by intro i inside; cases inside
  body := by intro i value found; cases found

namespace Holds

variable {b : Block} {values : List (List UInt8)}

theorem hasRoom_iff (h : Holds b values) (length : Nat) :
    b.hasRoom length = true ↔
      (slotSize + lengthSize) * (values.length + 1) + (values.map List.length).sum + length ≤
        pageSize - headerSize := by
  have total : used values = lengthSize * values.length + (values.map List.length).sum := by
    clear h
    induction values with
    | nil => rfl
    | cons v vs ih =>
      simp only [used, List.map_cons, List.sum_cons, List.length_cons] at ih ⊢
      rw [ih, Nat.mul_succ]
      omega
  have free := h.free
  rw [Block.hasRoom_iff, h.count]
  simp only [directoryEnd, headerSize, slotSize, lengthSize, pageSize] at *
  omega

theorem slot_bounds (h : Holds b values) {i : Nat} {value : List UInt8}
    (found : values[i]? = some value) :
    b.freeStart ≤ b.word (directoryEnd i) ∧
      b.word (directoryEnd i) + lengthSize + value.length ≤ pageSize ∧
      directoryEnd (i + 1) ≤ b.freeStart := by
  have inside : i < values.length := (List.getElem?_eq_some_iff.mp found).1
  have here := h.offset i inside
  have free := h.free
  have room := h.room
  have older := used_take_le values (i + 1)
  rw [used_take_succ found] at here older
  simp only [directoryEnd, headerSize, slotSize] at *
  omega

theorem record?_eq (h : Holds b values) (i : Nat) : b.record? i = values[i]? := by
  cases found : values[i]? with
  | none =>
    apply record?_of_count_le
    rw [h.count]
    exact List.getElem?_eq_none_iff.mp found
  | some value =>
    have inside : i < values.length := (List.getElem?_eq_some_iff.mp found).1
    obtain ⟨-, body, directory⟩ := h.slot_bounds found
    have low : b.freeStart ≤ pageSize := Nat.le.intro h.free
    exact record?_of_slice h.formatted (by rw [h.count]; exact inside)
      (Nat.le_trans directory low) rfl body (h.body i value found)

theorem recordsFrom_eq (h : Holds b values) (slot more : Nat) (all : slot + more = values.length) :
    b.recordsFrom slot more = values.drop slot := by
  induction more generalizing slot with
  | zero =>
    rw [List.drop_of_length_le (by omega)]
    rfl
  | succ n ih =>
    have inside : slot < values.length := by omega
    rw [recordsFrom, h.record?_eq, List.getElem?_eq_getElem inside, ih (slot + 1) (by omega),
      List.drop_eq_getElem_cons inside]

theorem records_eq (h : Holds b values) : b.records = values := by
  rw [records, h.recordsFrom_eq 0 _ (by rw [h.count, Nat.zero_add]), List.drop_zero]

theorem linkTo (h : Holds b values) (page : Nat) : Holds (b.linkTo page) values := by
  have keep : ∀ place, 16 ≤ place ∨ place ≤ 8 → (b.linkTo page).word place = b.word place := by
    intro place apart
    exact word_setWord_frame (by omega)
  have slots : ∀ i, (b.linkTo page).word (directoryEnd i) = b.word (directoryEnd i) := by
    intro i
    apply keep
    simp only [directoryEnd, headerSize]
    omega
  refine ⟨?_, ?_, ?_, ?_, ?_, ?_⟩
  · rw [isFormatted_linkTo]
    exact h.formatted
  · rw [Block.count, keep 0 (by omega)]
    exact h.count
  · rw [freeStart, keep 4 (by omega)]
    exact h.free
  · rw [freeStart, keep 4 (by omega)]
    exact h.room
  · intro i inside
    rw [slots]
    exact h.offset i inside
  · intro i value found
    have bounds := h.slot_bounds found
    rw [slots, Block.linkTo, setWord, slice_overwrite_frame]
    · exact h.body i value found
    · simp only [Bytes.bigEndian_length, directoryEnd, headerSize, slotSize] at *
      omega

theorem push (h : Holds b values) {value : List UInt8} (room : b.hasRoom value.length = true) :
    Holds (b.push value) (values ++ [value]) := by
  have fits := Block.hasRoom_iff.mp room
  have free := h.free
  rw [h.count] at fits
  have older : ∀ i < values.length,
      (b.push value).word (directoryEnd i) = b.word (directoryEnd i) := by
    intro i inside
    apply word_push_frame room
    · simp only [directoryEnd, headerSize]
      omega
    · rw [h.count]
      simp only [directoryEnd, slotSize]
      omega
  have newest : (b.push value).word (directoryEnd values.length) =
      b.freeStart - (lengthSize + value.length) := by
    rw [← h.count]
    exact word_push_slot room
  refine ⟨?_, ?_, ?_, ?_, ?_, ?_⟩
  · rw [isFormatted_push room]
    exact h.formatted
  · rw [count_push room, h.count, List.length_append, List.length_singleton]
  · rw [freeStart_push room, used_append]
    omega
  · rw [freeStart_push room, List.length_append, List.length_singleton]
    omega
  · intro i inside
    rw [List.length_append, List.length_singleton] at inside
    rcases Nat.lt_succ_iff_lt_or_eq.mp inside with old | rfl
    · rw [older i old, List.take_append_of_le_length old]
      exact h.offset i old
    · rw [newest, List.take_of_length_le (by simp), used_append]
      omega
  · intro i text found
    by_cases old : i < values.length
    · rw [List.getElem?_append_left old] at found
      have bounds := h.slot_bounds found
      rw [older i old, slice_push_frame room _ (Or.inr (Or.inr bounds.1))]
      · exact h.body i text found
      · simp only [directoryEnd, headerSize] at fits
        omega
    · have last : i = values.length := by
        have inside := (List.getElem?_eq_some_iff.mp found).1
        rw [List.length_append, List.length_singleton] at inside
        omega
      subst last
      rw [List.getElem?_concat_length] at found
      cases found
      rw [newest]
      exact slice_push_body room

end Holds

/-- The block is not formatted, or is a list of values. -/
def Sound (b : Block) : Prop := b.isFormatted = true → Holds b b.records

theorem Holds.sound {b : Block} {values : List (List UInt8)} (h : Holds b values) : b.Sound := by
  intro _
  rw [h.records_eq]
  exact h

theorem isFormatted_zero : zero.isFormatted = false := by
  simp [isFormatted, word, mark]

theorem record?_of_blank {b : Block} (blank : b.isFormatted = false) (slot : Nat) :
    b.record? slot = none := by
  simp [record?, blank]

theorem records_of_blank {b : Block} (blank : b.isFormatted = false) : b.records = [] := by
  rw [records]
  cases b.count with
  | zero => rfl
  | succ n => rw [recordsFrom, record?_of_blank blank]

namespace Sound

variable {b : Block}

theorem of_blank (blank : b.isFormatted = false) : b.Sound := by
  intro formatted
  rw [blank] at formatted
  cases formatted

theorem record?_eq (h : b.Sound) (slot : Nat) : b.record? slot = b.records[slot]? := by
  cases formatted : b.isFormatted with
  | true => exact (h formatted).record?_eq slot
  | false => rw [record?_of_blank formatted, records_of_blank formatted, List.getElem?_nil]

end Sound

end Gazetteer.Block
