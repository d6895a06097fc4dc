import Gazetteer.Bytes.Endian
import Gazetteer.Fault

/-! Stored forms of values. A layout is a writer and a reader of one form; words have a fixed
width with the least significant byte first, and the fields of a record follow one another
without padding. A reader hands on the bytes that it does not need. -/
namespace Gazetteer.Bytes

abbrev Reader (α : Type) := StateT (List UInt8) (Except DecodeFault) α

def Reader.take (n : Nat) : Reader (List UInt8) := fun bytes =>
  let front := bytes.take n
  if front.length < n then .error .unexpectedEnd else .ok (front, bytes.drop n)

def Reader.count (item : Reader α) : Nat → Reader (List α)
  | 0 => pure []
  | n + 1 => do
    let x ← item
    let xs ← item.count n
    return x :: xs

/-- One stored form: how a value is written, and how it is read. -/
structure Layout (α : Type) where
  write : α → List UInt8
  read : Reader α

namespace Layout

def nat (width : Nat) : Layout Nat where
  write n := littleEndian width n
  read := do return ofLittleEndian (← Reader.take width)

def convert (layout : Layout α) (into : α → β) (back : β → α) : Layout β where
  write b := layout.write (back b)
  read := do return into (← layout.read)

def word64 : Layout UInt64 := (nat 8).convert Nat.toUInt64 UInt64.toNat

def word32 : Layout UInt32 := (nat 4).convert Nat.toUInt32 UInt32.toNat

def double : Layout Binary64 := word64.convert Binary64.mk Binary64.bits

def both (first : Layout α) (second : Layout β) : Layout (α × β) where
  write x := first.write x.1 ++ second.write x.2
  read := do
    let a ← first.read
    let b ← second.read
    return (a, b)

def option (layout : Layout α) : Layout (Option α) where
  write
    | none => littleEndian 1 0
    | some a => littleEndian 1 1 ++ layout.write a
  read := do
    match ← (nat 1).read with
    | 0 => return none
    | 1 => return some (← layout.read)
    | tag => throw (.unknownOptionTag tag)

def either (left : Layout α) (right : Layout β) : Layout (α ⊕ β) where
  write
    | .inl a => littleEndian 4 0 ++ left.write a
    | .inr b => littleEndian 4 1 ++ right.write b
  read := do
    match ← (nat 4).read with
    | 0 => return .inl (← left.read)
    | 1 => return .inr (← right.read)
    | index => throw (.unknownVariant index)

def blob : Layout (List UInt8) where
  write bytes := littleEndian 8 bytes.length ++ bytes
  read := do Reader.take (← (nat 8).read)

def list (item : Layout α) : Layout (List α) where
  write xs := littleEndian 8 xs.length ++ xs.flatMap item.write
  read := do item.read.count (← (nat 8).read)

/-- The value at the front of `bytes`; what follows it is not looked at. -/
def decode (layout : Layout α) (bytes : List UInt8) : Except DecodeFault α :=
  (layout.read.run bytes).map Prod.fst

end Layout

@[simp] theorem Reader.take_append (front rest : List UInt8) :
    Reader.take front.length (front ++ rest) = .ok (front, rest) := by
  simp [Reader.take]

theorem Reader.take_of_short {n : Nat} {bytes : List UInt8} (short : bytes.length < n) :
    Reader.take n bytes = .error .unexpectedEnd := by
  have cut : (bytes.take n).length < n := by
    rw [List.length_take]
    omega
  rw [Reader.take, if_pos cut]

end Gazetteer.Bytes
