import Gazetteer.Limits
import Gazetteer.PageList
import Mathlib.Data.List.Sort

/-! How far a disk head travels over pages that it reads in ascending order: from the first to the
last, whatever lies between. -/
namespace Gazetteer.PageList

/-- Ids of pages that can be linked, so that a signed word has room for each of them. -/
def Small (ids : List Nat) : Prop := ∀ id ∈ ids, id < linkLimit

theorem signed_of_small {id : Nat} (small : id < linkLimit) : signed id = id := by
  have word : Nat.pow 2 64 = 0x10000000000000000 := rfl
  unfold linkLimit at small
  rw [signed_eq]
  apply Int.bmod_eq_of_le <;> omega

theorem seekCount_ascending {first last : Nat} {ids : List Nat}
    (ascending : (first :: ids).Pairwise (· ≤ ·)) (small : Small (first :: ids))
    (listed : last ∈ first :: ids) (most : ∀ id ∈ first :: ids, id ≤ last) :
    first + seekCount (first :: ids) = last := by
  induction ids generalizing first with
  | nil => exact (List.mem_singleton.mp listed).symm
  | cons next ids ih =>
    obtain ⟨least, rest⟩ := List.pairwise_cons.mp ascending
    have jump : first ≤ next := least next List.mem_cons_self
    have behind : last ∈ next :: ids := by
      rcases List.mem_cons.mp listed with rfl | later
      · -- a first id that is the greatest is also the next
        have same := Nat.le_antisymm jump (most next (by simp))
        rw [same]
        exact List.mem_cons_self
      · exact later
    have travelled := ih rest (fun id member => small id (List.mem_cons_of_mem first member)) behind
      fun id member => most id (List.mem_cons_of_mem first member)
    rw [seekCount, signed_of_small (small first (by simp)), signed_of_small (small next (by simp))]
    omega

theorem seekCount_sorted {ids : List Nat} {low high : Nat} (small : Small ids)
    (least : ids.min? = some low) (most : ids.max? = some high) :
    seekCount ids.mergeSort = high - low := by
  obtain ⟨lowest, above⟩ := List.min?_eq_some_iff.mp least
  obtain ⟨highest, below⟩ := List.max?_eq_some_iff.mp most
  have perm := List.mergeSort_perm ids fun a b => a ≤ b
  have ascending := List.pairwise_mergeSort' (· ≤ ·) ids
  cases sorted : ids.mergeSort with
  | nil =>
    rw [sorted] at perm
    cases perm.nil_eq
    cases lowest
  | cons first rest =>
    rw [sorted] at perm ascending
    have begins : first = low := by
      apply Nat.le_antisymm
      · rcases List.mem_cons.mp (perm.mem_iff.mpr lowest) with same | later
        · exact Nat.le_of_eq same.symm
        · exact (List.pairwise_cons.mp ascending).1 low later
      · exact above first (perm.mem_iff.mp List.mem_cons_self)
    have travelled := seekCount_ascending ascending
      (fun id member => small id (perm.mem_iff.mp member)) (perm.mem_iff.mpr highest)
      fun id member => below id (perm.mem_iff.mp member)
    omega

end Gazetteer.PageList
