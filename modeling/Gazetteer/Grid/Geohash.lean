import Gazetteer.Fault
import Gazetteer.Grid.Morton

/-! Geohashes. The world is halved again and again, along the longitude and the latitude in turns,
and each halving gives one bit: whether the place lies in the upper half. The bits are the Morton
code of a cell; five at a time they are the characters of its text. -/
namespace Gazetteer.Geohash

structure Span where
  low : Float
  high : Float

def Span.middle (s : Span) : Float := (s.low + s.high) / 2.0

/-- The value lies in the upper half, which begins at the middle. No number lies in neither. -/
def Span.isUpper (s : Span) (value : Float) : Bool := s.middle ≤ value

def Span.half (s : Span) (upper : Bool) : Span :=
  if upper then ⟨s.middle, s.high⟩ else ⟨s.low, s.middle⟩

def halvings (value : Float) (span : Span) (otherValue : Float) (other : Span) :
    Nat → List Bool
  | 0 => []
  | n + 1 =>
    let upper := span.isUpper value
    upper :: halvings otherValue other value (span.half upper) n

def cellBits (place : Coordinate) (precision : Nat) : List Bool :=
  halvings place.lng ⟨-180.0, 180.0⟩ place.lat ⟨-90.0, 90.0⟩ (Morton.bitsPerUnit * precision)

/-- Bits as a number, the highest first; those that no longer fit a word are lost. -/
def ofBits (bits : List Bool) : Nat :=
  bits.foldl (fun acc bit => (2 * acc + bit.toNat) % wordSize) 0

/-- The bits of the given number of halvings put behind those of a word. The intervals are carried
along by their ends, so that a long run of halvings keeps nothing but numbers. -/
def codeFrom (word : UInt64) (value low high otherValue otherLow otherHigh : Float) :
    Nat → UInt64
  | 0 => word
  | n + 1 =>
    let middle := (low + high) / 2.0
    if middle ≤ value then
      codeFrom (2 * word + 1) otherValue otherLow otherHigh value middle high n
    else codeFrom (2 * word) otherValue otherLow otherHigh value low middle n

def mortonCode (place : Coordinate) (precision : Nat) : Nat :=
  (codeFrom 0 place.lng (-180.0) 180.0 place.lat (-90.0) 90.0
    (Morton.bitsPerUnit * precision)).toNat

def alphabet : Vector Char 32 := #v[
  '0', '1', '2', '3', '4', '5', '6', '7', '8', '9', 'b', 'c', 'd', 'e', 'f', 'g',
  'h', 'j', 'k', 'm', 'n', 'p', 'q', 'r', 's', 't', 'u', 'v', 'w', 'x', 'y', 'z']

def symbol (n : Nat) : Char := alphabet.get ⟨n % 32, Nat.mod_lt n (by decide)⟩

def digit? (c : Char) : Option Nat := alphabet.toList.idxOf? c

def encode (place : Coordinate) (precision : Nat) : String :=
  let code := mortonCode place precision
  String.ofList ((List.range precision).map fun i =>
    symbol (code / Nat.pow 32 (precision - 1 - i)))

/-- The Morton code of a text. The first character that is not of the alphabet is reported. -/
def decode (text : String) : Except Fault Nat :=
  text.toList.foldlM (fun acc c =>
    match digit? c with
    | some value => .ok ((32 * acc + value) % wordSize)
    | none => .error (.invalidGeohash c)) 0

@[simp] theorem halvings_length (value : Float) (span : Span) (otherValue : Float)
    (other : Span) (n : Nat) : (halvings value span otherValue other n).length = n := by
  induction n generalizing value span otherValue other with
  | zero => rfl
  | succ n ih => simp only [halvings, List.length_cons, ih]

@[simp] theorem cellBits_length (place : Coordinate) (precision : Nat) :
    (cellBits place precision).length = Morton.bitsPerUnit * precision := by
  rw [cellBits, halvings_length]

theorem toNat_codeFrom (word : UInt64) (value : Float) (span : Span) (otherValue : Float)
    (other : Span) (n : Nat) :
    (codeFrom word value span.low span.high otherValue other.low other.high n).toNat =
      (halvings value span otherValue other n).foldl
        (fun acc bit => (2 * acc + bit.toNat) % wordSize) word.toNat := by
  induction n generalizing word value span otherValue other with
  | zero => rfl
  | succ n ih =>
    rw [codeFrom, halvings, List.foldl_cons]
    by_cases upper : (span.low + span.high) / 2.0 ≤ value
    · have bit : span.isUpper value = true := decide_eq_true upper
      have next := ih (2 * word + 1) otherValue other value (span.half true)
      rw [if_pos upper, bit]
      simpa [wordSize, Span.half, Span.middle] using next
    · have bit : span.isUpper value = false := decide_eq_false upper
      have next := ih (2 * word) otherValue other value (span.half false)
      rw [if_neg upper, bit]
      simpa [wordSize, Span.half, Span.middle] using next

theorem mortonCode_eq (place : Coordinate) (precision : Nat) :
    mortonCode place precision = ofBits (cellBits place precision) :=
  toNat_codeFrom 0 place.lng ⟨-180.0, 180.0⟩ place.lat ⟨-90.0, 90.0⟩ _

theorem digit?_symbol (n : Nat) : digit? (symbol n) = some (n % 32) := by
  have all : ∀ k : Fin 32, digit? alphabet[k.val] = some k.val := by decide
  exact all ⟨n % 32, Nat.mod_lt n (by decide)⟩

end Gazetteer.Geohash
