import Gazetteer.Proofs.Chain.FirstFit

/-! A chain that grows. A record of the greatest length fills its page; what is put in the same
chain next goes to a page that was never formatted, and that page is linked behind the full one. -/
namespace Gazetteer

theorem Block.Sound.full {b : Block} {value : List UInt8} (h : b.Sound)
    (formatted : b.isFormatted = true)
    (heavy : pageSize - headerSize < weights b.records + weight value) :
    b.accepts value.length = false := by
  rw [← Bool.not_eq_true, (h formatted).accepts_iff]
  exact Nat.not_le_of_lt heavy

namespace Chain

variable {view : Nat → Block} {p q : Pool} {maxPages home next : Nat} {long value : List UInt8}

theorem leastBlank?_eq_some (inside : next < maxPages) (blank : (view next).isFormatted = false)
    (least : ∀ id < next, (view id).isFormatted = true) :
    leastBlank? view maxPages = some next := by
  rw [leastBlank?, List.find?_range_eq_some]
  refine ⟨by simp [blank], List.mem_range.mpr inside, ?_⟩
  intro id below
  simp [least id below]

theorem append_behind (readable : p.Readable) (linkable : maxPages < linkLimit)
    (fits : value.length ≤ Block.maxRecord)
    (full : (p.view home).accepts value.length = false) (unlinked : (p.view home).link? = none)
    (blank : leastBlank? p.view maxPages = some next) :
    ∃ q, append home value maxPages p = (.ok ⟨next, 0⟩, q) ∧
      Grown p.view q.view value home next := by
  have alone := not_linked_of_none unlinked
  have nothing : ∀ old ∈ (∅ : PageSet), Relation.TransGen (Linked p.view) old home := by simp
  obtain ⟨answer, after, fit, found⟩ :=
    roomFrom_yields (.last alone) (.of_unlinked alone) nothing readable linkable value.length
  have refused : firstRoom? p.view value.length [home] = none := by simp [firstRoom?, full]
  cases fit with
  | found first =>
    rw [refused] at first
    cases first
  | grown _ tail ready none free =>
    cases tail
    cases free.symm.trans blank
    exact append_of_grown fits linkable ready none blank found
  | exhausted _ none =>
    rw [blank] at none
    cases none

theorem append_fills {disk : Disk} (empty : disk.medium.IsEmpty) (isOpen : disk.isOpen = true)
    (buffer : BufferSettings) (fills : long.length = Block.maxRecord) (maxPages : Nat) :
    ∃ q, append 0 long maxPages ((Pool.over disk buffer).failing {}) = (.ok ⟨0, 0⟩, q) ∧
      q.Intact ∧ q.disk.isOpen = true ∧
      (∀ value : List UInt8, (q.view 0).accepts value.length = false) ∧
      (∀ id next, ¬ Linked q.view id next) ∧
      ∀ id, (q.view id).isFormatted = true ↔ id = 0 := by
  have roomy := roomy_over empty isOpen buffer
  have start := roomy.intact.failing {}
  have blank : ∀ id, ((Pool.over disk buffer).view id).isFormatted = false := by
    intro id
    rw [Pool.view_over empty]
    exact Block.isFormatted_zero
  have weight : Block.weight long = pageSize - Block.headerSize := by
    rw [Block.weight, fills]
    rfl
  have room : 0 + Block.weight long ≤ pageSize - Block.headerSize := by
    rw [weight]
    exact Nat.le_of_eq (Nat.zero_add _)
  obtain ⟨slot, q, appended, after, appends⟩ := roomy.append room 0 maxPages
  have first := appends.slot
  rw [Block.records_of_blank (blank 0)] at first
  cases first
  obtain ⟨last, links⟩ := append_new_link start.coherent.filed appended
  have ready := append_isFormatted_iff start.coherent.filed appended
  refine ⟨q, appended, after.intact, after.isOpen, ?_, ?_, ?_⟩
  · intro value
    apply (after.intact.sound 0).full ((ready 0).mpr (Or.inr rfl))
    rw [appends.records, if_pos rfl, Block.weights_concat, weight]
    simp only [Block.weight, Block.slotSize]
    omega
  · intro id next linked
    rcases links id next linked with known | ⟨-, -, formatted, -⟩
    · exact not_linked_of_blank (blank id) next known
    · exact absurd formatted (by simp [blank])
  · intro id
    rw [ready id]
    simp [blank]

/-- Two records that no page has room for, put in one chain of an empty store. -/
theorem append_overflows {disk : Disk} (empty : disk.medium.IsEmpty) (isOpen : disk.isOpen = true)
    (buffer : BufferSettings) (fills : long.length = Block.maxRecord)
    (fits : value.length ≤ Block.maxRecord) (two : 1 < maxPages) (linkable : maxPages < linkLimit) :
    ∃ p q, append 0 long maxPages ((Pool.over disk buffer).failing {}) = (.ok ⟨0, 0⟩, p) ∧
      append 0 value maxPages (p.failing {}) = (.ok ⟨1, 0⟩, q) ∧
      q.Intact ∧ q.disk.isOpen = true ∧ q.disk.medium = disk.medium ∧
      Linked q.view 0 1 ∧ (q.view 1).record? 0 = some value := by
  obtain ⟨p, first, intact, opened, full, unlinked, formatted⟩ :=
    append_fills empty isOpen buffer fills maxPages
  have second : (p.view 1).isFormatted = false := by
    rw [← Bool.not_eq_true, formatted 1]
    decide
  have least : leastBlank? p.view maxPages = some 1 := by
    apply leastBlank?_eq_some two second
    intro id below
    exact (formatted id).mpr (Nat.lt_one_iff.mp below)
  have linkless : (p.view 0).link? = none := by
    cases link : (p.view 0).link? with
    | none => rfl
    | some next => exact (unlinked 0 next ⟨(formatted 0).mpr rfl, link⟩).elim
  have ready := intact.failing {}
  obtain ⟨q, appended, grown⟩ :=
    append_behind (p := p.failing {}) ⟨opened, rfl⟩ linkable fits (full value) linkless least
  obtain ⟨after, appends⟩ := append_intact ready appended
  obtain ⟨-, -, growth, -, updated⟩ := append_ok ready.coherent.filed appended
  obtain ⟨-, -, earlier, -, loaded⟩ := append_ok
    ((Pool.intact_over empty buffer).failing {}).coherent.filed first
  have there : (q.view 0).isFormatted = true :=
    (append_isFormatted_iff ready.coherent.filed appended 0).mpr (Or.inl ((formatted 0).mpr rfl))
  exact ⟨p, q, first, appended, after, updated.isOpen.trans opened,
    updated.medium.trans loaded.medium, ⟨there, grown.linked⟩, grown.taken.readable⟩

end Chain

end Gazetteer
