import Gazetteer.Proofs.Bytes.Truncated

/-! Stored forms that say nothing in two ways. Whatever a reader accepts begins with the bytes that
are written for the value it reads. A word has one form for every number that it has room for, and
what is put together from words has one form for every value. -/
namespace Gazetteer.Bytes

variable {α β : Type} {bytes rest : List UInt8}

def words (ws : List UInt64) : List UInt8 := ws.flatMap fun w => littleEndian 8 w.toNat

theorem Reader.bind_ok {x : Reader α} {f : α → Reader β} {b : β}
    (h : (x >>= f) bytes = .ok (b, rest)) :
    ∃ a behind, x bytes = .ok (a, behind) ∧ f a behind = .ok (b, rest) := by
  change (x bytes >>= fun found => f found.1 found.2) = .ok (b, rest) at h
  cases first : x bytes with
  | error fault =>
    rw [first] at h
    cases h
  | ok found =>
    rw [first] at h
    exact ⟨found.1, found.2, rfl, h⟩

theorem Reader.pure_ok {a b : α} (h : (pure a : Reader α) bytes = .ok (b, rest)) :
    a = b ∧ bytes = rest := by
  cases h
  exact ⟨rfl, rfl⟩

theorem Reader.take_ok {n : Nat} {front : List UInt8}
    (h : Reader.take n bytes = .ok (front, rest)) : front.length = n ∧ front ++ rest = bytes := by
  simp only [Reader.take] at h
  split at h
  · cases h
  · next long =>
    cases h
    have cut := List.length_take_le n bytes
    exact ⟨by omega, List.take_append_drop n bytes⟩

namespace Layout

theorem nat_ok {width n : Nat} (h : (nat width).read bytes = .ok (n, rest)) :
    n < Nat.pow 256 width ∧ littleEndian width n ++ rest = bytes := by
  obtain ⟨front, behind, taken, answered⟩ := Reader.bind_ok h
  obtain ⟨rfl, rfl⟩ := Reader.pure_ok answered
  obtain ⟨rfl, rfl⟩ := Reader.take_ok taken
  exact ⟨ofLittleEndian_lt front, by rw [littleEndian_ofLittleEndian]⟩

/-- Every value is read back from its form and from no part of it, and has no other form. -/
structure Exact (layout : Layout α) : Prop where
  faithful : layout.Faithful fun _ => True
  demanding : layout.Demanding fun _ => True
  canonical : ∀ bytes a rest, layout.read bytes = .ok (a, rest) → layout.write a ++ rest = bytes

theorem exact_word {width : Nat} {into : Nat → α} {back : α → Nat}
    (small : ∀ a, back a < Nat.pow 256 width) (there : ∀ a, into (back a) = a)
    (again : ∀ n < Nat.pow 256 width, back (into n) = n) :
    ((nat width).convert into back).Exact where
  faithful a _ := (faithful_nat width).convert a ⟨small a, there a⟩
  demanding a _ := (demanding_nat width).convert a trivial
  canonical := by
    intro bytes a rest read
    obtain ⟨n, behind, found, answered⟩ := Reader.bind_ok read
    obtain ⟨rfl, rfl⟩ := Reader.pure_ok answered
    obtain ⟨fits, same⟩ := nat_ok found
    change littleEndian width (back (into n)) ++ _ = bytes
    rw [again n fits, same]

theorem exact_word64 : word64.Exact :=
  exact_word UInt64.toNat_lt (by simp) fun _ fits => UInt64.toNat_ofNat_of_lt' fits

theorem exact_word32 : word32.Exact :=
  exact_word UInt32.toNat_lt (by simp) fun _ fits => UInt32.toNat_ofNat_of_lt' fits

variable {first : Layout α} {second : Layout β}

theorem Exact.convert (h : first.Exact) {into : α → β} {back : β → α}
    (there : ∀ b, into (back b) = b) (again : ∀ a, back (into a) = a) :
    (first.convert into back).Exact where
  faithful b _ := h.faithful.convert b ⟨trivial, there b⟩
  demanding := h.demanding.convert
  canonical := by
    intro bytes b rest read
    obtain ⟨a, behind, found, answered⟩ := Reader.bind_ok read
    obtain ⟨rfl, rfl⟩ := Reader.pure_ok answered
    change first.write (back (into a)) ++ _ = bytes
    rw [again]
    exact h.canonical bytes a _ found

theorem exact_double : double.Exact := exact_word64.convert (fun _ => rfl) fun _ => rfl

theorem Exact.both (h : first.Exact) (k : second.Exact) : (first.both second).Exact where
  faithful x _ := h.faithful.both k.faithful x ⟨trivial, trivial⟩
  demanding x _ := Demanding.both h.faithful h.demanding k.demanding x ⟨trivial, trivial⟩
  canonical := by
    intro bytes x rest read
    obtain ⟨a, behind, here, later⟩ := Reader.bind_ok read
    obtain ⟨b, left, there, answered⟩ := Reader.bind_ok later
    obtain ⟨rfl, rfl⟩ := Reader.pure_ok answered
    cases h.canonical bytes a behind here
    cases k.canonical behind b _ there
    exact List.append_assoc _ _ _

/-! A number in front says which form follows it. -/
section Chosen

variable {width : Nat} {front body : List UInt8} {f : Nat → Reader α} {a : α}

theorem chosen_ok (tag : Nat) (body : List UInt8) (small : tag < Nat.pow 256 width)
    (read : f tag (body ++ rest) = .ok (a, rest)) :
    ((nat width).read >>= f) (littleEndian width tag ++ body ++ rest) = .ok (a, rest) := by
  rw [List.append_assoc]
  exact (Reader.bind_of_ok (faithful_nat width tag small (body ++ rest))).trans read

theorem chosen_cut (tag : Nat) (small : tag < Nat.pow 256 width)
    (read : ∀ behind, Cut behind body → f tag behind = .error .unexpectedEnd)
    (cut : Cut front (littleEndian width tag ++ body)) :
    ((nat width).read >>= f) front = .error .unexpectedEnd := by
  rcases cut.append with early | ⟨behind, rfl, late⟩
  · exact Reader.bind_of_error (demanding_nat width tag trivial front early)
  · exact (Reader.bind_of_ok (faithful_nat width tag small behind)).trans (read behind late)

theorem ok_of_chosen (h : ((nat width).read >>= f) bytes = .ok (a, rest)) :
    ∃ tag behind, littleEndian width tag ++ behind = bytes ∧ f tag behind = .ok (a, rest) := by
  obtain ⟨tag, behind, front, later⟩ := Reader.bind_ok h
  exact ⟨tag, behind, (nat_ok front).2, later⟩

end Chosen

theorem Exact.option (h : first.Exact) : (option first).Exact where
  faithful := by
    rintro (_ | a) - rest
    · exact chosen_ok 0 [] (by decide) rfl
    · exact chosen_ok 1 _ (by decide) (Reader.bind_of_ok (h.faithful a trivial rest))
  demanding := by
    rintro (_ | a) - front cut
    · exact chosen_cut 0 (by decide) (fun _ late => (not_cut_nil late).elim) cut
    · exact chosen_cut 1 (by decide) (fun _ late => Reader.bind_of_error (h.demanding a trivial _ late)) cut
  canonical := by
    intro bytes a rest read
    obtain ⟨tag, behind, rfl, later⟩ := ok_of_chosen read
    match tag with
    | 0 =>
      obtain ⟨rfl, rfl⟩ := Reader.pure_ok later
      rfl
    | 1 =>
      obtain ⟨value, left, found, answered⟩ := Reader.bind_ok later
      obtain ⟨rfl, rfl⟩ := Reader.pure_ok answered
      cases h.canonical behind value _ found
      exact List.append_assoc _ _ _
    | tag + 2 => cases later

theorem Exact.either (h : first.Exact) (k : second.Exact) : (first.either second).Exact where
  faithful := by
    rintro (a | b) - rest
    · exact chosen_ok 0 _ (by decide) (Reader.bind_of_ok (h.faithful a trivial rest))
    · exact chosen_ok 1 _ (by decide) (Reader.bind_of_ok (k.faithful b trivial rest))
  demanding := by
    rintro (a | b) - front cut
    · exact chosen_cut 0 (by decide) (fun _ late => Reader.bind_of_error (h.demanding a trivial _ late)) cut
    · exact chosen_cut 1 (by decide) (fun _ late => Reader.bind_of_error (k.demanding b trivial _ late)) cut
  canonical := by
    intro bytes x rest read
    obtain ⟨tag, behind, rfl, later⟩ := ok_of_chosen read
    match tag with
    | 0 =>
      obtain ⟨a, left, found, answered⟩ := Reader.bind_ok later
      obtain ⟨rfl, rfl⟩ := Reader.pure_ok answered
      cases h.canonical behind a _ found
      exact List.append_assoc _ _ _
    | 1 =>
      obtain ⟨b, left, found, answered⟩ := Reader.bind_ok later
      obtain ⟨rfl, rfl⟩ := Reader.pure_ok answered
      cases k.canonical behind b _ found
      exact List.append_assoc _ _ _
    | tag + 2 => cases later

/-- What the stored forms of a type keep to, by what is decoded. -/
structure Lossless (layout : Layout α) : Prop where
  read_back : ∀ a rest, layout.decode (layout.write a ++ rest) = .ok a
  cut_off : ∀ a front, front <+: layout.write a → front ≠ layout.write a →
    layout.decode front = .error .unexpectedEnd
  accepted : ∀ bytes a, layout.decode bytes = .ok a → layout.write a <+: bytes
  apart : ∀ a b, layout.write a <+: layout.write b → a = b

theorem Exact.lossless (h : first.Exact) : first.Lossless := by
  have read_back : ∀ a rest, first.decode (first.write a ++ rest) = .ok a :=
    fun a rest => congrArg (Except.map Prod.fst) (h.faithful a trivial rest)
  refine ⟨read_back, ?_, ?_, ?_⟩
  · intro a front short missing
    exact congrArg (Except.map Prod.fst)
      (h.demanding a trivial front (cut_iff.mpr ⟨short, missing⟩))
  · intro bytes a decoded
    change (first.read bytes).map Prod.fst = .ok a at decoded
    cases read : first.read bytes with
    | error fault =>
      rw [read] at decoded
      cases decoded
    | ok found =>
      rw [read] at decoded
      cases decoded
      exact ⟨found.2, h.canonical bytes found.1 found.2 read⟩
  · rintro a b ⟨rest, same⟩
    have shorter := read_back a rest
    have longer := read_back b []
    rw [List.append_nil, ← same, shorter] at longer
    exact Except.ok.inj longer

end Layout

end Gazetteer.Bytes
