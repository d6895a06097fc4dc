import Std.Data.ExtTreeSet
import Gazetteer.Limits

/-! Sets of page ids, and how many of the pages that can be linked are not in one. A walk along
links that never enters a page of the set twice makes that number smaller at every step. -/
namespace Gazetteer

abbrev PageSet := Std.ExtTreeSet Nat

namespace PageSet

def unseenBelow (seen : PageSet) : Nat → Nat
  | 0 => 0
  | limit + 1 => seen.unseenBelow limit + if limit ∈ seen then 0 else 1

theorem unseenBelow_insert_of_le {seen : PageSet} {id limit : Nat} (h : limit ≤ id) :
    unseenBelow (seen.insert id) limit = seen.unseenBelow limit := by
  induction limit with
  | zero => rfl
  | succ n ih =>
    have other : n ∈ seen.insert id ↔ n ∈ seen := by
      rw [Std.ExtTreeSet.mem_insert, Nat.compare_eq_eq]
      constructor
      · rintro (same | old)
        · omega
        · exact old
      · exact Or.inr
    simp only [unseenBelow, ih (by omega), other]

theorem unseenBelow_insert {seen : PageSet} {id limit : Nat} (fresh : id ∉ seen)
    (h : id < limit) : unseenBelow (seen.insert id) limit + 1 = seen.unseenBelow limit := by
  induction limit with
  | zero => omega
  | succ n ih =>
    by_cases last : n = id
    · subst last
      have member : n ∈ seen.insert n := by simp
      simp only [unseenBelow, unseenBelow_insert_of_le (Nat.le_refl n), if_pos member,
        if_neg fresh, Nat.add_zero]
    · have other : n ∈ seen.insert id ↔ n ∈ seen := by
        rw [Std.ExtTreeSet.mem_insert, Nat.compare_eq_eq]
        constructor
        · rintro (same | old)
          · omega
          · exact old
        · exact Or.inr
      have rest := ih (by omega)
      simp only [unseenBelow, other]
      omega

/-- Steps that a walk along links can still take from the page `id`. The page it starts at may be
one that no link leads to. -/
def stepsLeft (seen : PageSet) (id : Nat) : Nat :=
  seen.unseenBelow linkLimit + if id < linkLimit then 0 else 1

theorem stepsLeft_insert_lt {seen : PageSet} {id next : Nat} (fresh : id ∉ seen)
    (linked : next < linkLimit) : stepsLeft (seen.insert id) next < seen.stepsLeft id := by
  unfold stepsLeft
  rw [if_pos linked]
  by_cases h : id < linkLimit
  · have fewer := unseenBelow_insert fresh h
    rw [if_pos h]
    omega
  · rw [if_neg h, unseenBelow_insert_of_le (Nat.le_of_not_lt h)]
    omega

end PageSet

end Gazetteer
