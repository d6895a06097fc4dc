import Gazetteer.Page.Block

/-! The slotted layout of a formatted block.

    | count | free start | mark | link |        header of four words
    | slot 0 | slot 1 | ...                     each the offset and the size of a record
    |            free space            |
    | ... | record 1 | record 0 |               each its length in a word, then its bytes

Slots are added behind the header and records from the end of the block downwards; neither is
ever moved or used again, so the order of the slots is the order of the appends. The header may
hold anything, and nothing is read or written outside the block because of it. -/
namespace Gazetteer.Block

def headerSize : Nat := 16
def slotSize : Nat := 8
def lengthSize : Nat := 4

def mark : Nat := 0xCAFEBABE

def noLink : Nat := 0xFFFFFFFF

/-- Bytes of the longest record that a block with no other record can hold. -/
def maxRecord : Nat := pageSize - headerSize - slotSize - lengthSize

def count (b : Block) : Nat := b.word 0

/-- Where the youngest record begins. -/
def freeStart (b : Block) : Nat := b.word 4

def isFormatted (b : Block) : Bool := b.word 8 = mark

/-- The next page of the chain. The link is a signed word, and a negative one is no link. -/
def link? (b : Block) : Option Nat :=
  if b.word 12 < linkLimit then some (b.word 12) else none

def directoryEnd (slots : Nat) : Nat := headerSize + slots * slotSize

/-- An empty page in place of whatever the block held. Only the header is written. -/
def format (b : Block) : Block :=
  (((b.setWord 0 0).setWord 4 pageSize).setWord 12 noLink).setWord 8 mark

def hasRoom (b : Block) (length : Nat) : Bool :=
  b.freeStart ≤ pageSize ∧ directoryEnd (b.count + 1) + lengthSize + length ≤ b.freeStart

/-- A record of this length, at most `maxRecord`, can be appended, if need be after a format. -/
def accepts (b : Block) (length : Nat) : Bool := ¬ b.isFormatted ∨ b.hasRoom length

def push (b : Block) (value : List UInt8) : Block :=
  let size := lengthSize + value.length
  let offset := b.freeStart - size
  let recorded := b.overwrite offset (Bytes.bigEndian 4 value.length ++ value)
  let listed := recorded.overwrite (directoryEnd b.count)
    (Bytes.bigEndian 4 offset ++ Bytes.bigEndian 4 size)
  (listed.setWord 0 (b.count + 1)).setWord 4 offset

def append? (b : Block) (value : List UInt8) : Option (Nat × Block) :=
  if b.hasRoom value.length then some (b.count, b.push value) else none

/-- The record of a slot, unless the slot was never given out or points outside the block. -/
def record? (b : Block) (slot : Nat) : Option (List UInt8) :=
  if b.isFormatted ∧ slot < b.count then do
    let offset ← b.word? (directoryEnd slot)
    let length ← b.word? offset
    b.slice? (offset + lengthSize) length
  else none

def recordsFrom (b : Block) (slot : Nat) : Nat → List (List UInt8)
  | 0 => []
  | more + 1 =>
    match b.record? slot with
    | none => []
    | some value => value :: b.recordsFrom (slot + 1) more

/-- All records, oldest first, up to the first slot that cannot be read. -/
def records (b : Block) : List (List UInt8) := b.recordsFrom 0 b.count

/-- Bytes left for the next record. A block that is not formatted would be formatted first. -/
def freeSpace (b : Block) : Nat :=
  if b.isFormatted then b.freeStart - directoryEnd (b.count + 1) - lengthSize else maxRecord

def linkTo (b : Block) (page : Nat) : Block := b.setWord 12 page

def unlink (b : Block) : Block := b.setWord 12 noLink

theorem link?_lt {b : Block} {page : Nat} (h : b.link? = some page) : page < linkLimit := by
  unfold link? at h
  split at h
  · cases h; assumption
  · cases h

@[simp] theorem isFormatted_format (b : Block) : b.format.isFormatted = true := by
  rw [isFormatted, format, word_setWord (by decide)]
  decide

@[simp] theorem count_format (b : Block) : b.format.count = 0 := by
  rw [count, format, word_setWord_frame (by decide), word_setWord_frame (by decide),
    word_setWord_frame (by decide), word_setWord (by decide), Nat.zero_mod]

@[simp] theorem freeStart_format (b : Block) : b.format.freeStart = pageSize := by
  rw [freeStart, format, word_setWord_frame (by decide), word_setWord_frame (by decide),
    word_setWord (by decide)]
  decide

@[simp] theorem link?_format (b : Block) : b.format.link? = none := by
  rw [link?, format, word_setWord_frame (by decide), word_setWord (by decide)]
  decide

theorem link?_linkTo {b : Block} {page : Nat} (h : page < linkLimit) :
    (b.linkTo page).link? = some page := by
  have short : page % 0x100000000 = page := Nat.mod_eq_of_lt (Nat.lt_trans h (by decide))
  rw [link?, linkTo, word_setWord (by decide), short, if_pos h]

theorem record?_of_count_le {b : Block} {slot : Nat} (h : b.count ≤ slot) :
    b.record? slot = none := by
  rw [record?, if_neg]
  exact fun given => Nat.not_lt_of_le h given.2

theorem hasRoom_format (b : Block) (length : Nat) :
    b.format.hasRoom length = true ↔ length ≤ maxRecord := by
  simp only [hasRoom, freeStart_format, count_format, decide_eq_true_eq]
  simp only [directoryEnd, maxRecord, pageSize, headerSize, slotSize, lengthSize]
  omega

end Gazetteer.Block
