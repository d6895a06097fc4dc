import Gazetteer.Proofs.Disk.Torn

/-! Media that end where a page ends. On them a write is seen at its own page and nowhere else,
also where it lets a file grow over pages that were never written: those read as the zeros that
stand for an absent page. -/
namespace Gazetteer

namespace Medium

@[simp] theorem block_empty_memory (page : Nat) : (Medium.memory ∅).block page = .zero := by
  simp [block, read?]

/-- No page is torn. -/
def Whole : Medium → Prop
  | .memory _ => True
  | .file f => pageSize ∣ f.length

theorem whole_write {m : Medium} (whole : m.Whole) (page : Nat) (b : Block) :
    (m.write page b).Whole := by
  cases m with
  | memory pages => trivial
  | file f =>
    change pageSize ∣ max f.length ((page + 1) * pageSize)
    rcases Nat.le_total f.length ((page + 1) * pageSize) with below | above
    · rw [Nat.max_eq_right below]
      exact Nat.dvd_mul_left _ _
    · rw [Nat.max_eq_left above]
      exact whole

/-- What is written is there when the medium is opened anew. -/
def Lasting : Medium → Prop
  | .memory _ => False
  | .file _ => True

theorem Lasting.write {m : Medium} (lasting : m.Lasting) (page : Nat) (b : Block) :
    (m.write page b).Lasting := by
  cases m with
  | memory pages => exact lasting
  | file f => exact lasting

theorem Lasting.reopened {m : Medium} (lasting : m.Lasting) : m.reopened = m := by
  cases m with
  | memory pages => exact lasting.elim
  | file f => rfl

theorem Whole.not_torn {m : Medium} (whole : m.Whole) (page : Nat) : ¬ m.Torn page := by
  cases m with
  | memory pages => exact id
  | file f =>
    rintro ⟨short, position, from_start, shown⟩
    obtain ⟨pages, length⟩ := whole
    have past : f.length ≤ position := by
      simp only [pageSize] at *
      omega
    exact shown (f.blank_past_end position past)

theorem block_write {m : Medium} (whole : m.Whole) (page : Nat) (b : Block) (other : Nat) :
    (m.write page b).block other = if page = other then b else m.block other := by
  by_cases same : page = other
  · simp [block, same]
  · rw [if_neg same]
    exact (block_write_iff b (Ne.symm same)).mpr fun torn => whole.not_torn other torn.2

end Medium

end Gazetteer
