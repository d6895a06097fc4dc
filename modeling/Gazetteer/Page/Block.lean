import Gazetteer.Bytes.Endian
import Gazetteer.Limits

/-! The bytes of one page. Main statements: bytes written are read back, and a write is not seen
outside the place it was made at. -/
namespace Gazetteer

abbrev Block := Vector UInt8 pageSize

namespace Block

def zero : Block := Vector.replicate pageSize 0

/-- The block with `bytes` written from `offset` on; what falls past the end is dropped. -/
def overwrite (b : Block) (offset : Nat) : List UInt8 → Block
  | [] => b
  | x :: xs => overwrite (b.setIfInBounds offset x) (offset + 1) xs

def byte (b : Block) (offset : Nat) : UInt8 := b[offset]?.getD 0

def slice (b : Block) (offset length : Nat) : List UInt8 :=
  (List.range' offset length).map b.byte

def ofBytes (bytes : List UInt8) : Block := zero.overwrite 0 (bytes.take pageSize)

def cut (b : Block) (length : Nat) : Block :=
  Vector.ofFn fun i => if i.val < length then b.byte i.val else 0

/-- The word at `offset`, most significant byte first. -/
def word (b : Block) (offset : Nat) : Nat :=
  (((b.byte offset).toNat * 256 + (b.byte (offset + 1)).toNat) * 256 +
    (b.byte (offset + 2)).toNat) * 256 + (b.byte (offset + 3)).toNat

def word? (b : Block) (offset : Nat) : Option Nat :=
  if offset + 4 ≤ pageSize then some (b.word offset) else none

def slice? (b : Block) (offset length : Nat) : Option (List UInt8) :=
  if offset + length ≤ pageSize then some (b.slice offset length) else none

def setWord (b : Block) (offset value : Nat) : Block :=
  b.overwrite offset (Bytes.bigEndian 4 value)

@[simp] theorem slice_length (b : Block) (offset length : Nat) :
    (b.slice offset length).length = length := by
  simp [slice]

theorem slice_getElem? (b : Block) (offset length i : Nat) (inside : i < length) :
    (b.slice offset length)[i]? = some (b.byte (offset + i)) := by
  simp [slice, inside]

@[simp] theorem byte_zero (offset : Nat) : zero.byte offset = 0 := by
  unfold byte zero
  by_cases inside : offset < pageSize
  · rw [Vector.getElem?_replicate, if_pos inside, Option.getD_some]
  · rw [Vector.getElem?_replicate, if_neg inside, Option.getD_none]

theorem byte_cut (b : Block) (length offset : Nat) :
    (b.cut length).byte offset = if offset < length then b.byte offset else 0 := by
  simp only [byte, cut, Vector.getElem?_ofFn]
  by_cases inside : offset < pageSize
  · simp [inside]
  · simp [inside]

theorem word_eq (b : Block) (offset : Nat) :
    b.word offset = Bytes.ofBigEndian (b.slice offset 4) := by
  simp only [word, slice, List.range', List.map_cons, List.map_nil, Bytes.ofBigEndian,
    List.reverse_cons, List.reverse_nil, List.nil_append, List.cons_append,
    Bytes.ofLittleEndian, Nat.add_assoc, Nat.reduceAdd]
  omega

theorem overwrite_getElem?_frame {b : Block} {offset i : Nat} {bytes : List UInt8}
    (outside : i < offset ∨ offset + bytes.length ≤ i) :
    (b.overwrite offset bytes)[i]? = b[i]? := by
  induction bytes generalizing b offset with
  | nil => rfl
  | cons x xs ih =>
    simp only [List.length_cons] at outside
    rw [overwrite, ih (by omega)]
    exact Vector.getElem?_setIfInBounds_ne (by omega)

theorem overwrite_getElem?_lane {b : Block} {offset i : Nat} {bytes : List UInt8}
    (room : offset + bytes.length ≤ pageSize) (lane : i < bytes.length) :
    (b.overwrite offset bytes)[offset + i]? = bytes[i]? := by
  induction bytes generalizing b offset i with
  | nil => simp at lane
  | cons x xs ih =>
    simp only [List.length_cons] at room lane
    cases i with
    | zero =>
      rw [overwrite, overwrite_getElem?_frame (Or.inl (by omega))]
      simp only [Nat.add_zero, List.getElem?_cons_zero]
      exact Vector.getElem?_setIfInBounds_self_of_lt (by omega)
    | succ i =>
      have step := @ih (b.setIfInBounds offset x) (offset + 1) i (by omega) (by omega)
      rw [overwrite, List.getElem?_cons_succ, ← step]
      congr 1
      omega

theorem slice_overwrite {b : Block} {offset : Nat} {bytes : List UInt8}
    (room : offset + bytes.length ≤ pageSize) :
    (b.overwrite offset bytes).slice offset bytes.length = bytes := by
  apply List.ext_getElem?
  intro i
  by_cases lane : i < bytes.length
  · rw [slice_getElem? _ _ _ _ lane, byte, overwrite_getElem?_lane room lane,
      List.getElem?_eq_getElem lane, Option.getD_some]
  · rw [List.getElem?_eq_none (by simp; omega), List.getElem?_eq_none (by omega)]

theorem slice_overwrite_frame {b : Block} {offset start length : Nat} {bytes : List UInt8}
    (apart : start + length ≤ offset ∨ offset + bytes.length ≤ start) :
    (b.overwrite offset bytes).slice start length = b.slice start length := by
  simp only [slice]
  apply List.map_congr_left
  intro i member
  rw [List.mem_range'_1] at member
  rw [byte, byte, overwrite_getElem?_frame (by omega)]

theorem byte_ofBytes {bytes : List UInt8} (room : bytes.length ≤ pageSize) (offset : Nat) :
    (ofBytes bytes).byte offset = bytes[offset]?.getD 0 := by
  rw [ofBytes, List.take_of_length_le room]
  by_cases inside : offset < bytes.length
  · have lane := @overwrite_getElem?_lane zero 0 offset bytes (by omega) inside
    rw [Nat.zero_add] at lane
    rw [byte, lane]
  · rw [byte, overwrite_getElem?_frame (Or.inr (by omega)), List.getElem?_eq_none (by omega)]
    exact byte_zero offset

theorem word_lt (b : Block) (offset : Nat) : b.word offset < 0x100000000 := by
  have bound := Bytes.ofBigEndian_lt (b.slice offset 4)
  rwa [slice_length, ← word_eq] at bound

theorem word_setWord {b : Block} {offset value : Nat} (room : offset + 4 ≤ pageSize) :
    (b.setWord offset value).word offset = value % 0x100000000 := by
  have back := @slice_overwrite b offset (Bytes.bigEndian 4 value) (by simpa using room)
  have bits : Nat.pow 256 4 = 0x100000000 := by decide
  rw [Bytes.bigEndian_length] at back
  rw [word_eq, setWord, back, Bytes.ofBigEndian_bigEndian, bits]

theorem word_setWord_frame {b : Block} {offset other value : Nat}
    (apart : other + 4 ≤ offset ∨ offset + 4 ≤ other) :
    (b.setWord offset value).word other = b.word other := by
  rw [word_eq, setWord, slice_overwrite_frame (by simpa using apart), ← word_eq]

end Block

end Gazetteer
