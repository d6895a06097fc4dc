import Gazetteer.Page
import Gazetteer.Proofs.Hilbert.Words
import Gazetteer.Proofs.Page.Contents

/-! Blocks that may hold anything. The count, the free start, the offsets of the slots and the
lengths of the records are words that were read somewhere, so the operations of a page are stated
here as they run, in place and in words: each fails where it would touch a byte outside the block,
or where a number does not fit its word. None ever fails, whatever the block holds. -/
namespace Gazetteer

open Hilbert (sum? product? sum?_of_lt product?_of_lt)

namespace Block

variable {b : Block} {value : List UInt8} {slot : Nat}

theorem overwrite_append (b : Block) (offset : Nat) (first second : List UInt8) :
    b.overwrite offset (first ++ second) =
      (b.overwrite offset first).overwrite (offset + first.length) second := by
  induction first generalizing b offset with
  | nil => rfl
  | cons x xs ih => simp [overwrite, ih, Nat.add_assoc, Nat.add_comm 1]

/-- The record at an offset. A record that does not lie on the page is none; only the sum that leads
from its length to its bytes is not looked at. -/
def recordAtWords? (b : Block) (offset : Nat) : Option (Option (List UInt8)) :=
  match b.word? offset with
  | none => some none
  | some length => do
    let body ← sum? offset lengthSize
    return (sum? body length).bind fun _ => b.slice? body length

def recordWords? (b : Block) (slot : Nat) : Option (Option (List UInt8)) := do
  let first ← b.word? 8
  let count ← b.word? 0
  if first ≠ mark ∨ count ≤ slot then return none
  else
    match ((product? slot slotSize).bind (sum? headerSize)).bind b.word? with
    | none => return none
    | some offset => b.recordAtWords? offset

def recordsFromWords? (b : Block) (slot : Nat) : Nat → Option (List (List UInt8))
  | 0 => some []
  | more + 1 => do
    match ← b.recordWords? slot with
    | none => return []
    | some value =>
      let next ← sum? slot 1
      let rest ← b.recordsFromWords? next more
      return value :: rest

def recordsWords? (b : Block) : Option (List (List UInt8)) := do
  let first ← b.word? 8
  if first ≠ mark then return []
  else
    let count ← b.word? 0
    b.recordsFromWords? 0 count

def freeSpaceWords? (b : Block) : Option Nat := do
  let first ← b.word? 8
  if first ≠ mark then return maxRecord
  else
    let count ← b.word? 0
    let slots ← sum? count 1
    let size ← product? slots slotSize
    let directory ← sum? headerSize size
    let free ← b.word? 4
    return free - directory - lengthSize

def linkWords? (b : Block) : Option (Option Nat) := do
  let link ← b.word? 12
  return if link < linkLimit then some link else none

@[simp] theorem word?_count (b : Block) : b.word? 0 = some b.count := if_pos (by decide)

@[simp] theorem word?_freeStart (b : Block) : b.word? 4 = some b.freeStart := if_pos (by decide)

@[simp] theorem word?_mark (b : Block) : b.word? 8 = some (b.word 8) := if_pos (by decide)

@[simp] theorem word?_link (b : Block) : b.word? 12 = some (b.word 12) := if_pos (by decide)

theorem count_lt (b : Block) : b.count < 2 ^ 32 := b.word_lt 0

theorem word_formatted : b.isFormatted = true ↔ b.word 8 = mark := by simp [isFormatted]

theorem place_of_slot (few : slot ≤ 2 ^ 32) :
    (product? slot slotSize).bind (sum? headerSize) = some (directoryEnd slot) := by
  have size : slot * slotSize ≤ 2 ^ 32 * 8 := Nat.mul_le_mul_right 8 few
  have header : headerSize = 16 := rfl
  have word : wordSize = 2 ^ 64 := rfl
  rw [product?_of_lt (by omega), Option.bind_some, sum?_of_lt (by omega)]
  rfl

theorem word?_lt {offset length : Nat} (read : b.word? offset = some length) :
    offset + 4 ≤ pageSize ∧ length < 2 ^ 32 := by
  unfold word? at read
  split at read
  · next inside =>
    cases read
    exact ⟨inside, b.word_lt offset⟩
  · cases read

theorem recordAtWords?_eq (b : Block) (offset : Nat) :
    b.recordAtWords? offset =
      some ((b.word? offset).bind fun length => b.slice? (offset + lengthSize) length) := by
  unfold recordAtWords?
  cases read : b.word? offset with
  | none => rfl
  | some length =>
    obtain ⟨inside, short⟩ := word?_lt read
    have four : lengthSize = 4 := rfl
    have page : pageSize = 4096 := rfl
    have word : wordSize = 2 ^ 64 := rfl
    simp [sum?_of_lt (by omega : offset + lengthSize < wordSize),
      sum?_of_lt (by omega : offset + lengthSize + length < wordSize)]

theorem recordWords?_eq (b : Block) (slot : Nat) : b.recordWords? slot = some (b.record? slot) := by
  have few := b.count_lt
  unfold recordWords? record?
  simp only [word?_mark, word?_count, Option.bind_eq_bind, Option.bind_some, word_formatted]
  by_cases given : b.word 8 = mark ∧ slot < b.count
  · rw [if_pos given, if_neg (by simp [given]), place_of_slot (by omega), Option.bind_some]
    cases b.word? (directoryEnd slot) with
    | none => rfl
    | some offset => exact b.recordAtWords?_eq offset
  · have refused : b.word 8 ≠ mark ∨ b.count ≤ slot := by
      by_contra asked
      exact given (by simpa using asked)
    rw [if_neg given, if_pos refused]
    rfl

theorem recordsFromWords?_eq (b : Block) {slot more : Nat} (few : slot + more ≤ 2 ^ 32) :
    b.recordsFromWords? slot more = some (b.recordsFrom slot more) := by
  induction more generalizing slot with
  | zero => rfl
  | succ more ih =>
    rw [recordsFromWords?, recordWords?_eq, recordsFrom]
    cases b.record? slot with
    | none => rfl
    | some value =>
      have word : wordSize = 2 ^ 64 := rfl
      simp [sum?_of_lt (by omega : slot + 1 < wordSize), ih (by omega : slot + 1 + more ≤ 2 ^ 32)]

theorem recordsWords?_eq (b : Block) : b.recordsWords? = some b.records := by
  have few := b.count_lt
  unfold recordsWords?
  by_cases formatted : b.word 8 = mark
  · have all : b.recordsFromWords? 0 b.count = some (b.recordsFrom 0 b.count) :=
      b.recordsFromWords?_eq (by omega)
    simpa [formatted, records] using all
  · have blank : b.isFormatted = false := by simp [isFormatted, formatted]
    simp [formatted, records_of_blank blank]

theorem freeSpaceWords?_eq (b : Block) : b.freeSpaceWords? = some b.freeSpace := by
  have few := b.count_lt
  have word : wordSize = 2 ^ 64 := rfl
  have next : b.count + 1 < wordSize := by omega
  obtain ⟨size, product, sum⟩ := Option.bind_eq_some_iff.mp (place_of_slot (Nat.succ_le_of_lt few))
  unfold freeSpaceWords? freeSpace
  by_cases formatted : b.word 8 = mark
  · simp [word_formatted, formatted, sum?_of_lt next, product, sum]
  · simp [word_formatted, formatted]

theorem linkWords?_eq (b : Block) : b.linkWords? = some b.link? := by
  simp [linkWords?, link?]

/-- A slot that can be read lies in the directory of a block with nothing but slots. -/
theorem slot_lt_of_record? (read : b.record? slot = some value) : slot < 510 := by
  unfold record? at read
  split at read
  · obtain ⟨offset, first, -⟩ := Option.bind_eq_some_iff.mp read
    have inside := (word?_lt first).1
    simp only [directoryEnd, headerSize, slotSize, pageSize] at inside
    omega
  · cases read

theorem exists_run (b : Block) (slot more : Nat) :
    ∃ n ≤ more, (n < more → b.record? (slot + n) = none) ∧
      (List.range' slot n).map b.record? = (b.recordsFrom slot more).map some := by
  induction more generalizing slot with
  | zero => exact ⟨0, Nat.le_refl 0, by simp, rfl⟩
  | succ more ih =>
    cases read : b.record? slot with
    | none => exact ⟨0, Nat.zero_le _, fun _ => read, by simp [recordsFrom, read]⟩
    | some value =>
      obtain ⟨n, few, stop, run⟩ := ih (slot + 1)
      refine ⟨n + 1, Nat.succ_le_succ few, ?_, by simp [recordsFrom, read, List.range'_succ, run]⟩
      intro before
      rw [Nat.add_comm n, ← Nat.add_assoc]
      exact stop (Nat.lt_of_succ_lt_succ before)

theorem exists_readable (b : Block) :
    ∃ n, n ≤ b.count ∧ n ≤ 510 ∧ (n < b.count → b.record? n = none) ∧
      (List.range n).map b.record? = b.records.map some := by
  obtain ⟨n, below, stop, run⟩ := b.exists_run 0 b.count
  rw [← List.range_eq_range'] at run
  refine ⟨n, below, ?_, by simpa using stop, run⟩
  cases n with
  | zero => exact Nat.zero_le _
  | succ n =>
    have last : b.record? n ∈ (List.range (n + 1)).map b.record? :=
      List.mem_map_of_mem List.self_mem_range_succ
    rw [run] at last
    obtain ⟨value, -, read⟩ := List.mem_map.mp last
    exact slot_lt_of_record? read.symm

end Block

namespace Page

variable {p : Page} {value : List UInt8} {offset : Nat}

/-- Bytes put in place, all of which have to lie on the page. -/
def store? (p : Page) (offset : Nat) (bytes : List UInt8) : Option Page := do
  let last ← sum? offset bytes.length
  if last ≤ pageSize then return { p with block := p.block.overwrite offset bytes }
  else none

/-- A word of 32 bits put in place, which has to be one. -/
def setWord? (p : Page) (offset value : Nat) : Option Page :=
  if value < 2 ^ 32 then p.store? offset (Bytes.bigEndian 4 value) else none

/-- An append as it changes the page, step by step: the length, the bytes, the slot, the count and
the free start. The slot is given with the page, and no slot with the page as it is left. -/
def appendWords? (p : Page) (value : List UInt8) : Option (Option Nat × Page) := do
  let count ← p.block.word? 0
  let free ← p.block.word? 4
  let size ← sum? Block.lengthSize value.length
  let slots ← sum? count 1
  let directory ← (product? slots Block.slotSize).bind (sum? Block.headerSize)
  if pageSize < free ∨ free < size ∨ free - size < directory then return (none, p)
  else
    let offset := free - size
    let p ← p.setWord? offset value.length
    let body ← sum? offset Block.lengthSize
    let p ← p.store? body value
    let slot ← (product? count Block.slotSize).bind (sum? Block.headerSize)
    let p ← p.setWord? slot offset
    let second ← sum? slot 4
    let p ← p.setWord? second size
    let p ← p.setWord? 0 slots
    let p ← p.setWord? 4 offset
    return (some count, p.markDirty)

theorem store?_of_le {bytes : List UInt8} (inside : offset + bytes.length ≤ pageSize) :
    p.store? offset bytes = some { p with block := p.block.overwrite offset bytes } := by
  have word : offset + bytes.length < wordSize := Nat.lt_of_le_of_lt inside (by decide)
  simp [store?, sum?_of_lt word, inside]

theorem setWord?_of_le {n : Nat} (inside : offset + 4 ≤ pageSize) (short : n < 2 ^ 32) :
    p.setWord? offset n = some { p with block := p.block.setWord offset n } := by
  rw [setWord?, if_pos short, store?_of_le (by simpa using inside)]
  rfl

theorem appendWords?_of_room (room : p.block.hasRoom value.length = true) :
    p.appendWords? value = some (some p.block.count, p.push value) := by
  obtain ⟨free, fits⟩ := Block.hasRoom_iff.mp room
  have few := p.block.count_lt
  have older := Block.place_of_slot (Nat.le_of_lt few)
  have newer := Block.place_of_slot (Nat.succ_le_of_lt few)
  have first : Block.directoryEnd p.block.count = 16 + p.block.count * 8 := rfl
  have second : Block.directoryEnd (p.block.count + 1) = 16 + (p.block.count + 1) * 8 := rfl
  have four : Block.lengthSize = 4 := rfl
  have page : pageSize = 4096 := rfl
  have word : wordSize = 2 ^ 64 := rfl
  obtain ⟨offset, start⟩ : ∃ n, p.block.freeStart - (Block.lengthSize + value.length) = n :=
    ⟨_, rfl⟩
  have taken : ¬ (pageSize < p.block.freeStart ∨
      p.block.freeStart < Block.lengthSize + value.length ∨
      offset < Block.directoryEnd (p.block.count + 1)) := by omega
  unfold appendWords?
  -- the directory ends before the record and the record before the free start, so each of the six
  -- writes lies on the page
  simp only [Block.word?_count, Block.word?_freeStart, Option.bind_eq_bind, Option.bind_some,
    sum?_of_lt (by omega : Block.lengthSize + value.length < wordSize),
    sum?_of_lt (by omega : p.block.count + 1 < wordSize), newer, older, start, if_neg taken]
  rw [setWord?_of_le (by omega) (by omega), Option.bind_some, sum?_of_lt (by omega),
    Option.bind_some, store?_of_le (by omega), Option.bind_some,
    setWord?_of_le (by omega) (by omega), Option.bind_some, sum?_of_lt (by omega),
    Option.bind_some, setWord?_of_le (by omega) (by omega), Option.bind_some,
    setWord?_of_le (by decide) (by omega), Option.bind_some,
    setWord?_of_le (by decide) (by omega), Option.bind_some]
  subst start
  simp [Page.push, Block.push, Block.setWord, Block.overwrite_append, four, markDirty, pure]

theorem appendWords?_of_full (fits : value.length < 2 ^ 63)
    (full : ¬ p.block.hasRoom value.length = true) : p.appendWords? value = some (none, p) := by
  have few := p.block.count_lt
  have newer := Block.place_of_slot (Nat.succ_le_of_lt few)
  have four : Block.lengthSize = 4 := rfl
  have word : wordSize = 2 ^ 64 := rfl
  have refused : pageSize < p.block.freeStart ∨
      p.block.freeStart < Block.lengthSize + value.length ∨
      p.block.freeStart - (Block.lengthSize + value.length) <
        Block.directoryEnd (p.block.count + 1) := by
    rw [Block.hasRoom_iff] at full
    omega
  unfold appendWords?
  simp only [Block.word?_count, Block.word?_freeStart, Option.bind_eq_bind, Option.bind_some,
    sum?_of_lt (by omega : Block.lengthSize + value.length < wordSize),
    sum?_of_lt (by omega : p.block.count + 1 < wordSize), newer, if_pos refused]
  rfl

theorem append?_of_room (room : p.block.hasRoom value.length = true) :
    p.append? value = some (p.block.count, p.push value) := by
  simp [append?, Block.append?, room, push]

theorem append?_of_full (full : ¬ p.block.hasRoom value.length = true) :
    p.append? value = none := by
  simp [append?, Block.append?, full]

/-- Whatever a block holds, no operation leaves it or its words. The records are those of the first
slots that can be read. An append is refused and changes nothing, or takes the next slot, leaves the
mark, the link and the older slots alone, and on a formatted block is read back. -/
theorem operations_stay_inside (p : Page) :
    ((∀ slot, p.block.recordWords? slot = some (p.block.record? slot)) ∧
      p.block.recordsWords? = some p.block.records ∧
      p.block.freeSpaceWords? = some p.block.freeSpace ∧
      p.block.linkWords? = some p.block.link?) ∧
    (∃ n, n ≤ p.block.count ∧ n ≤ 510 ∧ (n < p.block.count → p.block.record? n = none) ∧
      (List.range n).map p.block.record? = p.block.records.map some) ∧
    ∀ value : List UInt8, value.length < 2 ^ 63 →
      (p.append? value = none ∧ p.appendWords? value = some (none, p)) ∨
      ∃ after, p.append? value = some (p.block.count, after) ∧
        p.appendWords? value = some (some p.block.count, after) ∧
        (after.id = p.id ∧ after.dirty = true ∧ after.block.count = p.block.count + 1) ∧
        (after.block.word 8 = p.block.word 8 ∧ after.block.word 12 = p.block.word 12) ∧
        (∀ slot < p.block.count, after.block.slice (Block.directoryEnd slot) Block.slotSize =
          p.block.slice (Block.directoryEnd slot) Block.slotSize) ∧
        (p.block.isFormatted = true → after.block.record? p.block.count = some value) := by
  refine ⟨⟨p.block.recordWords?_eq, p.block.recordsWords?_eq, p.block.freeSpaceWords?_eq,
    p.block.linkWords?_eq⟩, p.block.exists_readable, ?_⟩
  intro value fits
  have directory : Block.directoryEnd p.block.count = 16 + p.block.count * 8 := rfl
  by_cases room : p.block.hasRoom value.length = true
  · refine .inr ⟨p.push value, append?_of_room room, appendWords?_of_room room,
      ⟨rfl, rfl, Block.count_push room⟩, ⟨?_, ?_⟩, ?_, ?_⟩
    · exact Block.word_push_frame room (by decide) (by omega)
    · exact Block.word_push_frame room (by decide) (by omega)
    · intro slot older
      have start : Block.directoryEnd slot = 16 + slot * 8 := rfl
      have size : Block.slotSize = 8 := rfl
      exact Block.slice_push_frame room (by omega) (.inl (by omega))
    · exact fun formatted => Block.record?_push formatted room
  · exact .inl ⟨append?_of_full room, appendWords?_of_full fits room⟩

/-- A formatted block whose count was made a seven, though no record was ever put on it. -/
theorem operations_stay_inside_lying : ∃ p after : Page,
    p.block.count = 7 ∧ p.appendWords? [1, 2, 3] = some (some 7, after) ∧
      after.block.record? 7 = some [1, 2, 3] := by
  let p : Page := ⟨0, false, Block.zero.format.setWord 0 7⟩
  have count : p.block.count = 7 := Block.word_setWord (by decide)
  have free : p.block.freeStart = pageSize :=
    (Block.word_setWord_frame (.inr (by decide))).trans (Block.freeStart_format _)
  have formatted : p.block.isFormatted = true := by
    have mark : p.block.word 8 = Block.zero.format.word 8 :=
      Block.word_setWord_frame (.inr (by decide))
    simpa [Block.isFormatted, mark] using Block.isFormatted_format Block.zero
  have room : p.block.hasRoom 3 = true := by
    rw [Block.hasRoom_iff, count, free]
    decide
  obtain ⟨refused, -⟩ | ⟨after, -, words, -, -, -, back⟩ :=
    (operations_stay_inside p).2.2 [1, 2, 3] (by decide)
  · have taken : p.append? [1, 2, 3] = some _ := append?_of_room room
    simp [taken] at refused
  · rw [count] at words back
    exact ⟨p, after, count, words, back formatted⟩

end Page

end Gazetteer
