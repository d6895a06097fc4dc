import Gazetteer.Disk
import Mathlib.Algebra.Order.Group.Nat

/-! Media of any length. What a write does to the other pages is settled by where the medium ends: a
page that it ends within is absent, with whatever stands in front of the end, until a later page is
written and the file grows over it. No other page is ever changed by a write. -/
namespace Gazetteer

theorem Block.ext_byte {a b : Block} (same : ∀ offset < pageSize, a.byte offset = b.byte offset) :
    a = b := by
  apply Vector.ext
  intro i inside
  have here := same i inside
  simpa [Block.byte, Vector.getElem?_eq_getElem inside] using here

namespace PageFile

variable {f : PageFile} {page : Nat}

theorem block_eq_zero_iff (short : f.length < (page + 1) * pageSize) :
    f.blocks.block page = .zero ↔ ∀ position, page * pageSize ≤ position → f.byte position = 0 := by
  constructor
  · intro blank position from_start
    rcases Nat.lt_or_ge position ((page + 1) * pageSize) with inside | past
    · have here : position / pageSize = page := by
        simp only [pageSize] at *
        omega
      simp [byte, Blocks.byte, here, blank]
    · exact f.blank_past_end position (by omega)
  · intro zeros
    apply Block.ext_byte
    intro offset inside
    have position : (page * pageSize + offset) / pageSize = page ∧
        (page * pageSize + offset) % pageSize = offset := by
      simp only [pageSize] at *
      omega
    simpa [byte, Blocks.byte, position] using zeros (page * pageSize + offset) (by omega)

end PageFile

namespace Medium

variable {m : Medium} {page other : Nat}

/-- What a page holds, with zeros for a page that was never written. -/
def block (m : Medium) (page : Nat) : Block := (m.read? page).getD .zero

/-- The medium ends within the page, behind a byte that is not zero. -/
def Torn : Medium → Nat → Prop
  | .memory _, _ => False
  | .file f, page => f.length < (page + 1) * pageSize ∧
      ∃ position, page * pageSize ≤ position ∧ f.byte position ≠ 0

theorem block_file_write_iff {f : PageFile} (b : Block) (apart : other ≠ page) :
    (Medium.file (f.write page b)).block other = (Medium.file f).block other ↔
      ¬ (other < page ∧ (Medium.file f).Torn other) := by
  by_cases inside : (other + 1) * pageSize ≤ f.length
  · have same := f.read?_write_of_whole b apart inside
    have whole : ¬ f.length < (other + 1) * pageSize := by omega
    simp [block, read?, same, Torn, whole]
  · have short : f.length < (other + 1) * pageSize := by omega
    have kept : (f.write page b).blocks.block other = f.blocks.block other := by
      simp [PageFile.write, Blocks.block_insert, apart.symm]
    have absent : (Medium.file f).block other = .zero := by
      simp [block, read?, PageFile.read?, inside]
    rcases Nat.lt_or_gt_of_ne apart with before | behind
    · -- the file grows over the page, and shows what it has there
      have grown : (other + 1) * pageSize ≤ (f.write page b).length := by
        simp only [PageFile.write, pageSize]
        omega
      have shown : (Medium.file (f.write page b)).block other = f.blocks.block other := by
        simp [block, read?, PageFile.read?, grown, kept]
      simp [shown, absent, PageFile.block_eq_zero_iff short, Torn, before, short]
    · have still : ¬ (other + 1) * pageSize ≤ (f.write page b).length := by
        simp only [PageFile.write, pageSize] at *
        omega
      have shown : (Medium.file (f.write page b)).block other = .zero := by
        simp [block, read?, PageFile.read?, still]
      simp [shown, absent, Nat.not_lt_of_gt behind]

/-- A write is seen at no other page but a torn one before it. -/
theorem block_write_iff (b : Block) (apart : other ≠ page) :
    (m.write page b).block other = m.block other ↔ ¬ (other < page ∧ m.Torn other) := by
  cases m with
  | memory pages => simp [block, read?, write, Torn, Std.ExtTreeMap.getElem?_insert, apart.symm]
  | file f => exact block_file_write_iff b apart

end Medium

namespace Disk

variable {d : Disk} {page other : Nat}

structure Ready (d : Disk) : Prop where
  isOpen : d.isOpen = true
  plan : d.plan = {}

theorem Ready.read (h : d.Ready) (page : Nat) :
    (d.read page).1 = .ok (d.medium.read? page) := by
  have safe : d.readFault? page = none := by simp [readFault?, h.plan, h.isOpen]
  cases there : d.medium.read? page <;> simp [Disk.read, safe, there]

theorem Ready.write (h : d.Ready) (page : Nat) (b : Block) :
    (d.write page b).1 = .ok () ∧ (d.write page b).2.Ready ∧
      (d.write page b).2.medium = d.medium.write page b := by
  have safe : d.writeFault? page = none := by simp [writeFault?, h.plan, h.isOpen]
  rw [Disk.write, safe]
  exact ⟨rfl, ⟨h.isOpen, h.plan⟩, rfl⟩

/-- A block that is written is read back, and every other page is read as before, absent pages as
zeros; all but a torn page, which a write behind it brings to light. -/
theorem read_other_same_iff (ready : d.Ready) (apart : other ≠ page) (b : Block) :
    (d.write page b).1 = .ok () ∧ ((d.write page b).2.read page).1 = .ok (some b) ∧
      ∃ before after, (d.read other).1 = .ok before ∧
        ((d.write page b).2.read other).1 = .ok after ∧
        (after.getD .zero = before.getD .zero ↔ ¬ (other < page ∧ d.medium.Torn other)) := by
  obtain ⟨done, still, medium⟩ := ready.write page b
  refine ⟨done, ?_, _, _, ready.read other, still.read other, ?_⟩
  · simp [still.read, medium]
  · rw [medium]
    exact Medium.block_write_iff b apart

/-- A file with a byte of its second page, and a write to the first. -/
theorem read_other_same_behind : ∃ before after : Option Block,
    let d : Disk := { medium := .file (.ofBytes (List.replicate 4097 7)) }
    (d.read 1).1 = .ok before ∧ ((d.write 0 .zero).2.read 1).1 = .ok after ∧
      after.getD .zero = before.getD .zero := by
  let d : Disk := { medium := .file (.ofBytes (List.replicate 4097 7)) }
  have ready : d.Ready := ⟨rfl, rfl⟩
  have apart : 1 ≠ 0 := by decide
  obtain ⟨-, -, before, after, first, second, same⟩ := read_other_same_iff ready apart .zero
  exact ⟨before, after, first, second, same.mpr fun torn => Nat.not_lt_zero 1 torn.1⟩

/-- A file of one byte has no first page, until the second is written and it has one with that
byte. -/
theorem torn_page_comes_to_light : ∃ (d : Disk) (before after : Option Block),
    openFile (.file [1]) = .ok d ∧ (d.read 0).1 = .ok before ∧
      ((d.write 1 .zero).2.read 0).1 = .ok after ∧ after.getD .zero ≠ before.getD .zero := by
  let d : Disk := { medium := .file (.ofBytes [1]) }
  have ready : d.Ready := ⟨rfl, rfl⟩
  obtain ⟨-, still, medium⟩ := ready.write 1 .zero
  have torn : d.medium.Torn 0 := ⟨by decide, 0, by decide, by simp [PageFile.byte_ofBytes]⟩
  refine ⟨d, _, _, rfl, ready.read 0, still.read 0, ?_⟩
  rw [medium]
  intro same
  exact (Medium.block_write_iff .zero (by decide)).mp same ⟨by decide, torn⟩

end Disk

end Gazetteer
