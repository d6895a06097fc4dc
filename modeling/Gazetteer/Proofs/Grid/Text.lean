import Gazetteer.Limits
import Gazetteer.Proofs.Grid.Halves

/-! Geohashes as text. A character is a digit of the code in base 32, so a text and its code say the
same, whichever of the two is made first; and a coarser geohash is the beginning of a finer one,
since the halvings of both begin alike. -/
namespace Gazetteer.Geohash

variable {c : Char} {value code n : Nat} {cs : List Char}

@[simp] theorem symbol_mod (n : Nat) : symbol (n % 32) = symbol n := by simp [symbol]

theorem digit?_eq_some (found : digit? c = some value) : value < 32 ∧ symbol value = c := by
  obtain ⟨inside, here, -⟩ := List.idxOf?_eq_some_iff.mp found
  have small : value < 32 := by simpa using inside
  refine ⟨small, ?_⟩
  simpa [symbol, Nat.mod_eq_of_lt small, Vector.get] using here

theorem mem_alphabet_iff : c ∈ alphabet ↔ ∃ value, digit? c = some value := by
  cases found : digit? c with
  | none => simpa [digit?] using found
  | some value =>
    have known : (digit? c).isSome = true := Option.isSome_of_mem found
    simpa [digit?] using known

/-- The characters of the lowest `n` digits of a code. -/
def written : Nat → Nat → List Char
  | _, 0 => []
  | code, n + 1 => written (code / 32) n ++ [symbol code]

@[simp] theorem written_length (code n : Nat) : (written code n).length = n := by
  induction n generalizing code with
  | zero => rfl
  | succ n ih => simp [written, ih]

theorem mem_alphabet_of_written (member : c ∈ written code n) : c ∈ alphabet := by
  induction n generalizing code with
  | zero => simp [written] at member
  | succ n ih =>
    rcases List.mem_append.mp member with earlier | last
    · exact ih earlier
    · rw [List.mem_singleton.mp last]
      exact mem_alphabet_iff.mpr ⟨_, digit?_symbol code⟩

theorem map_symbol (code n : Nat) :
    (List.range n).map (fun i => symbol (code / Nat.pow 32 (n - 1 - i))) = written code n := by
  induction n generalizing code with
  | zero => rfl
  | succ n ih =>
    have last : code / Nat.pow 32 (n + 1 - 1 - n) = code := by simp
    rw [written, ← ih, List.range_succ, List.map_append, List.map_singleton, last]
    congr 1
    apply List.map_congr_left
    intro i member
    have before : n + 1 - 1 - i = n - 1 - i + 1 := by
      have inside := List.mem_range.mp member
      omega
    rw [before, Nat.div_div_eq_div_mul, Nat.pow_eq, Nat.pow_eq, pow_succ, Nat.mul_comm 32]

theorem encode_toList (place : Coordinate) (precision : Nat) :
    (encode place precision).toList = written (mortonCode place precision) precision := by
  simp only [encode, String.toList_ofList]
  exact map_symbol _ _

theorem written_prefix (code n more : Nat) :
    written (code / 32 ^ more) n <+: written code (n + more) := by
  induction more generalizing code with
  | zero => simp
  | succ more ih =>
    have shorter := ih (code / 32)
    rw [Nat.div_div_eq_div_mul, ← pow_succ'] at shorter
    exact shorter.trans (List.prefix_append _ _)

/-- One more character of a text. -/
def readNext (acc : Nat) (c : Char) : Except Fault Nat :=
  match digit? c with
  | some value => .ok ((32 * acc + value) % wordSize)
  | none => .error (.invalidGeohash c)

theorem decode_eq (text : String) : decode text = text.toList.foldlM readNext 0 := rfl

theorem read_concat (cs : List Char) (c : Char) :
    (cs ++ [c]).foldlM readNext 0 = (cs.foldlM readNext 0).bind (readNext · c) := by
  rw [List.foldlM_append]
  cases cs.foldlM readNext 0 with
  | error fault => rfl
  | ok acc => simp only [List.foldlM_cons, List.foldlM_nil, bind_pure]; rfl

theorem readNext_of_some (found : digit? c = some value) (short : n < maxPrecision)
    (below : code < 32 ^ n) :
    readNext code c = .ok (32 * code + value) ∧ 32 * code + value < 32 ^ (n + 1) := by
  have small := (digit?_eq_some found).1
  have word : 32 ^ (n + 1) ≤ wordSize :=
    (Nat.pow_le_pow_right (by decide) short).trans (by decide : 32 ^ maxPrecision ≤ wordSize)
  have fits : 32 * code + value < 32 ^ (n + 1) := by
    rw [pow_succ]
    omega
  refine ⟨?_, fits⟩
  simp [readNext, found, Nat.mod_eq_of_lt (Nat.lt_of_lt_of_le fits word)]

theorem read_written (short : n ≤ maxPrecision) (code : Nat) :
    (written code n).foldlM readNext 0 = .ok (code % 32 ^ n) := by
  induction n generalizing code with
  | zero => simp [written, Nat.mod_one, pure, Except.pure]
  | succ n ih =>
    have below := Nat.mod_lt (code / 32) (Nat.pow_pos (n := n) (by decide : 0 < 32))
    have whole : 32 * (code / 32 % 32 ^ n) + code % 32 = code % 32 ^ (n + 1) := by
      rw [pow_succ', Nat.mod_mul]
      omega
    rw [written, read_concat, ih (Nat.le_of_succ_le short), ← whole]
    exact (readNext_of_some (digit?_symbol code) short below).1

theorem written_of_read (short : cs.length ≤ maxPrecision)
    (read : cs.foldlM readNext 0 = .ok code) :
    code < 32 ^ cs.length ∧ written code cs.length = cs := by
  induction cs using List.reverseRecOn generalizing code with
  | nil =>
    cases read
    exact ⟨by simp, rfl⟩
  | append_singleton cs c ih =>
    rw [List.length_append, List.length_singleton] at short ⊢
    rw [read_concat] at read
    cases before : cs.foldlM readNext 0 with
    | error fault => simp [before, Except.bind] at read
    | ok acc =>
      obtain ⟨below, earlier⟩ := ih (Nat.le_of_succ_le short) before
      rw [before] at read
      change readNext acc c = .ok code at read
      cases found : digit? c with
      | none => simp [readNext, found] at read
      | some value =>
        obtain ⟨small, symbol⟩ := digit?_eq_some found
        obtain ⟨word, fits⟩ := readNext_of_some found short below
        cases read.symm.trans word
        have front : (32 * acc + value) / 32 = acc := by omega
        have last : (32 * acc + value) % 32 = value := by omega
        rw [written, front, earlier, ← symbol_mod, last, symbol]
        exact ⟨fits, rfl⟩

theorem read_eq_error_iff {fault : Fault} (acc : Nat) :
    cs.foldlM readNext acc = .error fault ↔
      ∃ c, cs.find? (· ∉ alphabet) = some c ∧ fault = .invalidGeohash c := by
  induction cs generalizing acc with
  | nil => simp [pure, Except.pure]
  | cons c cs ih =>
    rw [List.foldlM_cons]
    cases found : digit? c with
    | none =>
      have outside : c ∉ alphabet := by simp [mem_alphabet_iff, found]
      have refused : readNext acc c = .error (.invalidGeohash c) := by simp [readNext, found]
      rw [List.find?_cons_of_pos (by simpa using outside), refused]
      simp [Bind.bind, Except.bind, eq_comm]
    | some value =>
      have inside : c ∈ alphabet := mem_alphabet_iff.mpr ⟨value, found⟩
      have taken : readNext acc c = .ok ((32 * acc + value) % wordSize) := by
        simp [readNext, found]
      rw [List.find?_cons_of_neg (by simpa using inside), taken]
      exact ih _

theorem exists_read_iff :
    (∃ code, cs.foldlM readNext 0 = .ok code) ↔ ∀ c ∈ cs, c ∈ alphabet := by
  constructor
  · rintro ⟨code, read⟩
    cases first : cs.find? (· ∉ alphabet) with
    | none => simpa using first
    | some c =>
      have refused := (read_eq_error_iff 0).mpr ⟨c, first, rfl⟩
      cases read.symm.trans refused
  · intro all
    cases read : cs.foldlM readNext 0 with
    | ok code => exact ⟨code, rfl⟩
    | error fault =>
      obtain ⟨c, first, -⟩ := (read_eq_error_iff 0).mp read
      have outside := List.find?_some first
      simp [all c (List.mem_of_find?_eq_some first)] at outside

theorem halvings_prefix (value : Float) (span : Span) (otherValue : Float) (other : Span)
    (n more : Nat) :
    halvings value span otherValue other n <+: halvings value span otherValue other (n + more) := by
  induction n generalizing value span otherValue other with
  | zero => exact List.nil_prefix
  | succ n ih =>
    rw [Nat.succ_add, halvings, halvings]
    exact List.cons_prefix_cons.mpr ⟨rfl, ih _ _ _ _⟩

theorem foldl_bits_div (bits : List Bool) {acc k : Nat} (small : acc < 2 ^ k)
    (fits : k + bits.length ≤ 64) :
    bits.foldl (fun acc bit => (2 * acc + bit.toNat) % wordSize) acc / 2 ^ bits.length = acc := by
  induction bits generalizing acc k with
  | nil => simp
  | cons bit bits ih =>
    have digit := bit.toNat_le
    have next : 2 * acc + bit.toNat < 2 ^ (k + 1) := by
      rw [pow_succ]
      omega
    rw [List.length_cons] at fits
    have word : 2 * acc + bit.toNat < wordSize :=
      Nat.lt_of_lt_of_le next (Nat.pow_le_pow_right two_pos (by omega : k + 1 ≤ 64))
    have rest := ih next (by omega)
    rw [List.foldl_cons, Nat.mod_eq_of_lt word, List.length_cons, pow_succ,
      ← Nat.div_div_eq_div_mul, rest]
    omega

theorem mortonCode_div (place : Coordinate) {precision more : Nat}
    (short : precision + more ≤ maxPrecision) :
    mortonCode place (precision + more) / 32 ^ more = mortonCode place precision := by
  obtain ⟨rest, further⟩ := halvings_prefix place.lng ⟨-180.0, 180.0⟩ place.lat ⟨-90.0, 90.0⟩
    (Morton.bitsPerUnit * precision) (Morton.bitsPerUnit * more)
  have length : rest.length = Morton.bitsPerUnit * more := by
    have both := congrArg List.length further
    simp only [List.length_append, halvings_length] at both
    omega
  have bits : cellBits place (precision + more) = cellBits place precision ++ rest := by
    rw [cellBits, Nat.mul_add, ← further]
    rfl
  have digits : 32 ^ more = 2 ^ rest.length := by
    rw [length, Morton.bitsPerUnit, pow_mul]
    rfl
  have fits : Morton.bitsPerUnit * precision + rest.length ≤ 64 := by
    simp only [length, Morton.bitsPerUnit, maxPrecision] at short ⊢
    omega
  rw [mortonCode_eq, ofBits, bits, List.foldl_append, digits]
  change rest.foldl _ (ofBits (cellBits place precision)) / _ = _
  rw [← mortonCode_eq]
  exact foldl_bits_div rest (mortonCode_lt place precision) fits

theorem mortonCode_lt_digits (place : Coordinate) (precision : Nat) :
    mortonCode place precision < 32 ^ precision := by
  have below := mortonCode_lt place precision
  rwa [Morton.bitsPerUnit, pow_mul] at below

/-- A geohash has one character of the alphabet for each unit of precision, and is read back as the
code that it was made of; a coarser one is the beginning of a finer one, in characters and in bits.
A text is read exactly if all its characters are of the alphabet, is otherwise refused for the first
that is not, and up to the greatest precision no other text of its length is read as the same
code. -/
theorem text_is_code :
    (∀ place precision, precision ≤ maxPrecision →
      ((encode place precision).length = precision ∧
        ∀ c ∈ (encode place precision).toList, c ∈ alphabet) ∧
      (decode (encode place precision) = .ok (mortonCode place precision) ∧
        mortonCode place precision < 2 ^ (5 * precision)) ∧
      ∀ finer, precision ≤ finer → finer ≤ maxPrecision →
        (encode place precision).toList <+: (encode place finer).toList ∧
        mortonCode place precision = mortonCode place finer >>> (5 * (finer - precision))) ∧
    (∀ text, ((∃ code, decode text = .ok code) ↔ ∀ c ∈ text.toList, c ∈ alphabet) ∧
      ∀ fault, decode text = .error fault ↔
        ∃ c, text.toList.find? (· ∉ alphabet) = some c ∧ fault = .invalidGeohash c) ∧
    ∀ text other code, text.length = other.length → text.length ≤ maxPrecision →
      decode text = .ok code → decode other = .ok code → text = other := by
  refine ⟨?_, fun text => ⟨exists_read_iff, fun fault => read_eq_error_iff 0⟩, ?_⟩
  · intro place precision short
    refine ⟨⟨?_, ?_⟩, ⟨?_, mortonCode_lt place precision⟩, ?_⟩
    · simp [← String.length_toList, encode_toList]
    · intro c member
      rw [encode_toList] at member
      exact mem_alphabet_of_written member
    · rw [decode_eq, encode_toList, read_written short,
        Nat.mod_eq_of_lt (mortonCode_lt_digits place precision)]
    · intro finer further fits
      obtain ⟨more, rfl⟩ := Nat.exists_eq_add_of_le further
      have coarser := mortonCode_div place fits
      constructor
      · rw [encode_toList, encode_toList, ← coarser]
        exact written_prefix _ _ _
      · rw [Nat.add_sub_cancel_left, Nat.shiftRight_eq_div_pow, pow_mul]
        exact coarser.symm
  · intro text other code same short read also
    simp only [← String.length_toList] at short same
    have first := (written_of_read short read).2
    have second := (written_of_read (same ▸ short) also).2
    rw [← same] at second
    exact String.toList_inj.mp (first.symm.trans second)

/-- A street in two precisions, and the only six characters for the coarser of its codes. -/
theorem text_is_code_street :
    (encode ⟨37.4979, 127.0276⟩ 6).toList <+: (encode ⟨37.4979, 127.0276⟩ 12).toList ∧
    decode "wyda6d" = .error (.invalidGeohash 'a') ∧
    ∀ text : String, text.length = 6 → decode text = .ok 971394252 → text = "wydm6d" := by
  obtain ⟨made, accepted, unique⟩ := text_is_code
  have read : decode "wydm6d" = .ok 971394252 := by decide +kernel
  have first : "wyda6d".toList.find? (· ∉ alphabet) = some 'a' := by decide +kernel
  refine ⟨((made ⟨37.4979, 127.0276⟩ 6 (by decide)).2.2 12 (by decide) (by decide)).1,
    ((accepted "wyda6d").2 _).mpr ⟨'a', first, rfl⟩, ?_⟩
  intro text length code
  have six : "wydm6d".length = 6 := by decide
  exact unique text "wydm6d" _ (length.trans six.symm) (by rw [length]; decide) code read

end Gazetteer.Geohash
