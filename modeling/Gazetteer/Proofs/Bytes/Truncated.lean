import Gazetteer.Proofs.Bytes.Faithful

/-! Stored forms that need all their bytes. A reader walks over the bytes as they were written, part
by part; so it comes to the end of a form that was cut off in a part of which some bytes are
missing, and never takes what is left for another value. -/
namespace Gazetteer.Bytes

variable {α β : Type} {fits : α → Prop} {others : β → Prop} {front xs ys : List UInt8}

/-- `front` is what is left of some bytes when the last of them, one at least, are missing. -/
def Cut (front bytes : List UInt8) : Prop := ∃ rest, rest ≠ [] ∧ front ++ rest = bytes

theorem cut_iff : Cut front xs ↔ front <+: xs ∧ front ≠ xs := by
  constructor
  · rintro ⟨rest, some, rfl⟩
    exact ⟨List.prefix_append front rest, by simpa using some⟩
  · rintro ⟨⟨rest, rfl⟩, short⟩
    exact ⟨rest, by simpa using short, rfl⟩

theorem Cut.length_lt (h : Cut front xs) : front.length < xs.length := by
  obtain ⟨rest, some, rfl⟩ := h
  have missing := List.length_pos_iff.mpr some
  rw [List.length_append]
  omega

theorem not_cut_nil : ¬ Cut front [] := by
  intro cut
  exact Nat.not_lt_zero _ cut.length_lt

theorem Cut.append (h : Cut front (xs ++ ys)) :
    Cut front xs ∨ ∃ behind, front = xs ++ behind ∧ Cut behind ys := by
  obtain ⟨rest, some, same⟩ := h
  rcases List.append_eq_append_iff.mp same with ⟨tail, rfl, rfl⟩ | ⟨behind, rfl, rfl⟩
  · cases tail with
    | nil => exact .inr ⟨[], by simp, ys, some, rfl⟩
    | cons byte tail => exact .inl ⟨byte :: tail, by simp, rfl⟩
  · exact .inr ⟨behind, rfl, rest, some, rfl⟩

theorem Reader.bind_of_error {x : Reader α} {f : α → Reader β} {bytes : List UInt8}
    {fault : DecodeFault} (h : x bytes = .error fault) : (x >>= f) bytes = .error fault := by
  change (x bytes >>= fun found => f found.1 found.2) = .error fault
  rw [h]
  rfl

namespace Layout

/-- The values that `fits` allows are not read from fewer bytes than were written. -/
def Demanding (layout : Layout α) (fits : α → Prop) : Prop :=
  ∀ a, fits a → ∀ front, Cut front (layout.write a) → layout.read front = .error .unexpectedEnd

theorem Demanding.mono {layout : Layout α} {fewer : α → Prop} (h : layout.Demanding fits)
    (all : ∀ a, fewer a → fits a) : layout.Demanding fewer :=
  fun a few => h a (all a few)

theorem demanding_nat (width : Nat) : (nat width).Demanding fun _ => True := by
  intro n _ front cut
  have short : front.length < width := by
    have less := cut.length_lt
    rwa [nat, littleEndian_length] at less
  exact Reader.bind_of_error (Reader.take_of_short short)

theorem Demanding.convert {layout : Layout α} (h : layout.Demanding fits) {into : α → β}
    {back : β → α} : (layout.convert into back).Demanding fun b => fits (back b) :=
  fun b fit front cut => Reader.bind_of_error (h (back b) fit front cut)

theorem Demanding.both {first : Layout α} {second : Layout β} (whole : first.Faithful fits)
    (h : first.Demanding fits) (k : second.Demanding others) :
    (first.both second).Demanding fun x => fits x.1 ∧ others x.2 := by
  rintro ⟨a, b⟩ ⟨here, there⟩ front cut
  change (first.read >>= fun a => second.read >>= fun b => pure (a, b)) front = _
  rcases cut.append with early | ⟨behind, rfl, late⟩
  · exact Reader.bind_of_error (h a here front early)
  · rw [Reader.bind_of_ok (whole a here behind)]
    exact Reader.bind_of_error (k b there behind late)

theorem demanding_blob : blob.Demanding fun bytes => Countable bytes.length := by
  intro bytes fit front cut
  change ((nat 8).read >>= Reader.take) front = _
  rcases cut.append with early | ⟨behind, rfl, late⟩
  · exact Reader.bind_of_error (demanding_nat 8 _ trivial front early)
  · exact (Reader.bind_of_ok (faithful_nat 8 _ fit behind)).trans
      (Reader.take_of_short late.length_lt)

theorem Demanding.count {item : Layout α} (whole : item.Faithful fits) (h : item.Demanding fits)
    (xs : List α) (all : ∀ x ∈ xs, fits x) (cut : Cut front (xs.flatMap item.write)) :
    item.read.count xs.length front = .error .unexpectedEnd := by
  induction xs generalizing front with
  | nil => exact (not_cut_nil cut).elim
  | cons x xs ih =>
    obtain ⟨here, there⟩ := List.forall_mem_cons.mp all
    rw [List.flatMap_cons] at cut
    rw [List.length_cons, Reader.count]
    rcases cut.append with early | ⟨behind, rfl, late⟩
    · exact Reader.bind_of_error (h x here front early)
    · rw [Reader.bind_of_ok (whole x here behind)]
      exact Reader.bind_of_error (ih there late)

theorem Demanding.list {item : Layout α} (whole : item.Faithful fits) (h : item.Demanding fits) :
    (list item).Demanding fun xs => Countable xs.length ∧ ∀ x ∈ xs, fits x := by
  rintro xs ⟨fit, all⟩ front cut
  change ((nat 8).read >>= item.read.count) front = _
  rcases cut.append with early | ⟨behind, rfl, late⟩
  · exact Reader.bind_of_error (demanding_nat 8 _ trivial front early)
  · exact (Reader.bind_of_ok (faithful_nat 8 _ fit behind)).trans (h.count whole xs all late)

end Layout

end Gazetteer.Bytes
