import Gazetteer.Bytes.Endian

/-! The 64-bit hash XXH64 with seed 0, over words that wrap. Four lanes take in the bytes by
stripes of 32; what is left goes in by words of eight and four bytes and then byte by byte. The
same key has the same hash wherever the store is used. -/
namespace Gazetteer.Xxh64

def prime1 : UInt64 := 0x9E3779B185EBCA87
def prime2 : UInt64 := 0xC2B2AE3D27D4EB4F
def prime3 : UInt64 := 0x165667B19E3779F9
def prime4 : UInt64 := 0x85EBCA77C2B2AE63
def prime5 : UInt64 := 0x27D4EB2F165667C5

/-- The word turned left by `n` bits, for `n` between 1 and 63. -/
def rotateLeft (x : UInt64) (n : UInt64) : UInt64 := (x <<< n) ||| (x >>> (64 - n))

def word (bytes : List UInt8) : UInt64 := (Bytes.ofLittleEndian bytes).toUInt64

def round (lane input : UInt64) : UInt64 := rotateLeft (lane + input * prime2) 31 * prime1

structure Lanes where
  a : UInt64
  b : UInt64
  c : UInt64
  d : UInt64

def Lanes.start : Lanes := ⟨prime1 + prime2, prime2, 0, 0 - prime1⟩

def Lanes.absorb (l : Lanes) (stripe : List UInt8) : Lanes where
  a := round l.a (word (stripe.take 8))
  b := round l.b (word ((stripe.drop 8).take 8))
  c := round l.c (word ((stripe.drop 16).take 8))
  d := round l.d (word ((stripe.drop 24).take 8))

def Lanes.merged (hash lane : UInt64) : UInt64 := (hash ^^^ round 0 lane) * prime1 + prime4

def Lanes.joined (l : Lanes) : UInt64 :=
  [l.a, l.b, l.c, l.d].foldl merged
    (rotateLeft l.a 1 + rotateLeft l.b 7 + rotateLeft l.c 12 + rotateLeft l.d 18)

def Lanes.absorbAll (l : Lanes) (bytes : List UInt8) : Nat → Lanes
  | 0 => l
  | stripes + 1 => (l.absorb (bytes.take 32)).absorbAll (bytes.drop 32) stripes

def finishBytes (hash : UInt64) (bytes : List UInt8) : UInt64 :=
  bytes.foldl (fun h b => rotateLeft (h ^^^ (b.toUInt64 * prime5)) 11 * prime1) hash

def finishHalf (hash : UInt64) (bytes : List UInt8) : UInt64 :=
  if bytes.length < 4 then finishBytes hash bytes
  else
    let mixed := rotateLeft (hash ^^^ (word (bytes.take 4) * prime1)) 23 * prime2 + prime3
    finishBytes mixed (bytes.drop 4)

def finish (hash : UInt64) (bytes : List UInt8) : UInt64 :=
  if bytes.length < 8 then finishHalf hash bytes
  else
    let mixed := rotateLeft (hash ^^^ round 0 (word (bytes.take 8))) 27 * prime1 + prime4
    finish mixed (bytes.drop 8)
termination_by bytes.length
decreasing_by
  simp only [List.length_drop]
  omega

def avalanche (hash : UInt64) : UInt64 :=
  let h := (hash ^^^ (hash >>> 33)) * prime2
  let h := (h ^^^ (h >>> 29)) * prime3
  h ^^^ (h >>> 32)

def hash (bytes : List UInt8) : UInt64 :=
  let length := bytes.length
  let stripes := length / 32
  let begun := if stripes = 0 then prime5 else (Lanes.start.absorbAll bytes stripes).joined
  avalanche (finish (begun + length.toUInt64) (bytes.drop (stripes * 32)))

end Gazetteer.Xxh64
