import Std.Data.HashSet

/-! Page ids in the order in which they first turn up, up to a number of them. -/
namespace Gazetteer

/-- `newestFirst` lists the ids seen so far without repetition, and `members` is their set. -/
structure FirstSeen where
  newestFirst : List Nat := []
  members : Std.HashSet Nat := ∅

namespace FirstSeen

def isFull (limit : Nat) (s : FirstSeen) : Bool := s.members.size = limit

def visit (s : FirstSeen) (id : Nat) : FirstSeen :=
  if id ∈ s.members then s
  else { newestFirst := id :: s.newestFirst, members := s.members.insert id }

def toList (s : FirstSeen) : List Nat := s.newestFirst.reverse

theorem mem_visit (s : FirstSeen) (id other : Nat) :
    other ∈ (s.visit id).members ↔ other = id ∨ other ∈ s.members := by
  unfold visit
  split
  · next known =>
    constructor
    · exact Or.inr
    · rintro (rfl | old)
      · exact known
      · exact old
  · rw [Std.HashSet.mem_insert, beq_iff_eq]
    exact or_congr_left eq_comm

end FirstSeen

end Gazetteer
