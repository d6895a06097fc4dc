import Gazetteer.Proofs.Grid.Words
import Gazetteer.Proofs.Hilbert.Words
import Gazetteer.Proofs.PageList.Seeks

/-! The orders in which some pages can be read. Leaving a page out saves a detour, so no order is
shorter than the way between any two of its pages, and the ascending one, which is no longer than
that, is the best of all. Nothing of it leaves the words. -/
namespace Gazetteer.PageList

open Hilbert (sum? sum?_of_lt)
open Morton (signed? signed?_of_bounds)

variable {ids order : List Nat} {sum : Nat}

/-- The jumps added up in words, to a sum so far. -/
def seekLoop (sum : Nat) : List Nat → Option Nat
  | a :: b :: rest => do
    let jump ← signed? (signed b - signed a)
    let sum ← sum? sum jump.natAbs
    seekLoop sum (b :: rest)
  | _ => some sum

def seekCountWords? (ids : List Nat) : Option Nat := seekLoop 0 ids

theorem seekCount_le_cons (id : Nat) (ids : List Nat) : seekCount ids ≤ seekCount (id :: ids) := by
  cases ids with
  | nil => exact Nat.le_refl 0
  | cons next ids => exact Nat.le_add_left _ _

/-- The way to the rest over another page is no shorter than the direct one. -/
theorem seekCount_detour (id next : Nat) (ids : List Nat) :
    seekCount (id :: ids) ≤ (signed next - signed id).natAbs + seekCount (next :: ids) := by
  cases ids with
  | nil => exact Nat.zero_le _
  | cons first ids =>
    rw [seekCount, seekCount]
    omega

theorem seekCount_cons_le (shorter : ids.Sublist order) (id : Nat) :
    seekCount (id :: ids) ≤ seekCount (id :: order) := by
  induction shorter generalizing id with
  | slnil => exact Nat.le_refl _
  | @cons ids order next shorter ih =>
    rw [seekCount]
    exact (seekCount_detour id next ids).trans (Nat.add_le_add_left (ih next) _)
  | @cons_cons ids order next shorter ih =>
    rw [seekCount, seekCount]
    exact Nat.add_le_add_left (ih next) _

theorem seekCount_sublist (shorter : ids.Sublist order) : seekCount ids ≤ seekCount order := by
  induction shorter with
  | slnil => exact Nat.le_refl _
  | @cons ids order id shorter ih => exact ih.trans (seekCount_le_cons id order)
  | @cons_cons ids order id shorter => exact seekCount_cons_le shorter id

theorem seekCount_pair {low high : Nat} (first : low < linkLimit) (last : high < linkLimit) :
    high - low ≤ seekCount [low, high] ∧ high - low ≤ seekCount [high, low] := by
  simp only [seekCount, signed_of_small first, signed_of_small last]
  omega

theorem distance_le_seekCount (small : Small order) {low high : Nat} (first : low ∈ order)
    (last : high ∈ order) : high - low ≤ seekCount order := by
  obtain ⟨there, back⟩ := seekCount_pair (small low first) (small high last)
  obtain ⟨before, behind, rfl⟩ := List.append_of_mem first
  rcases List.mem_append.mp last with earlier | later
  · have pair := (List.singleton_sublist.mpr earlier).append
      (List.singleton_sublist.mpr (List.mem_cons_self (a := low) (l := behind)))
    exact back.trans (seekCount_sublist pair)
  · rcases List.mem_cons.mp later with rfl | later
    · rw [Nat.sub_self]
      exact Nat.zero_le _
    · have pair := ((List.singleton_sublist.mpr later).cons_cons low).trans
        (List.sublist_append_right before _)
      exact there.trans (seekCount_sublist pair)

theorem seekLoop_eq (small : Small ids) (fits : sum + ids.length * linkLimit < wordSize) :
    seekLoop sum ids = some (sum + seekCount ids) := by
  induction ids generalizing sum with
  | nil => rfl
  | cons id ids ih =>
    cases ids with
    | nil => rfl
    | cons next rest =>
      have here := small id List.mem_cons_self
      have there := small next (List.mem_cons_of_mem id List.mem_cons_self)
      have jump : ((next : Int) - id).natAbs < linkLimit := by omega
      have words : linkLimit < 2 ^ 63 := by decide
      rw [List.length_cons, Nat.succ_mul] at fits
      rw [seekLoop, seekCount, signed_of_small here, signed_of_small there,
        signed?_of_bounds (by omega) (by omega), Option.bind_eq_bind, Option.bind_some,
        sum?_of_lt (by omega), Option.bind_eq_bind, Option.bind_some,
        ih (fun other member => small other (List.mem_cons_of_mem id member)) (by omega),
        Nat.add_assoc]

/-- With up to `2 ^ 31` pages that can be linked, neither a jump nor the sum of them is too large
for a word. -/
theorem seekCountWords?_eq (small : Small ids) (short : ids.length ≤ 2 ^ 31) :
    seekCountWords? ids = some (seekCount ids) := by
  have most := Nat.mul_le_mul_right linkLimit short
  have words : 2 ^ 31 * linkLimit < wordSize := by decide
  rw [seekCountWords?, seekLoop_eq small (by omega), Nat.zero_add]

theorem Small.insert {front back : List Nat} {id : Nat} (small : Small (front ++ back))
    (low : id < linkLimit) : Small (front ++ id :: back) := by
  intro other listed
  rcases List.mem_append.mp listed with before | behind
  · exact small other (List.mem_append_left back before)
  · rcases List.mem_cons.mp behind with rfl | behind
    · exact low
    · exact small other (List.mem_append_right front behind)

/-- Of all orders of some pages the ascending one is the shortest way, from the least to the
greatest; one more page, wherever it is read, never shortens the way; and all of it is counted in
words. -/
theorem ascending_order_shortest (small : Small ids) (short : ids.length < 2 ^ 31) :
    (ids ≠ [] → ∃ low high, ids.min? = some low ∧ ids.max? = some high ∧
      seekCount ids.mergeSort = high - low ∧
      ∀ order, order.Perm ids → high - low ≤ seekCount order) ∧
    (∀ order, order.Perm ids → seekCountWords? order = some (seekCount order)) ∧
    ∀ front back id, front ++ back = ids → id < linkLimit →
      seekCount ids ≤ seekCount (front ++ id :: back) ∧
        seekCountWords? (front ++ id :: back) = some (seekCount (front ++ id :: back)) := by
  have reordered : ∀ {order : List Nat}, order.Perm ids → Small order :=
    fun perm id listed => small id (perm.mem_iff.mp listed)
  refine ⟨?_, ?_, ?_⟩
  · intro some_page
    obtain ⟨low, least⟩ := Option.isSome_iff_exists.mp (List.isSome_min?_of_ne_nil some_page)
    obtain ⟨high, most⟩ := Option.isSome_iff_exists.mp (List.isSome_max?_of_ne_nil some_page)
    refine ⟨low, high, least, most, seekCount_sorted small least most, ?_⟩
    intro order perm
    have first := perm.mem_iff.mpr (List.min?_eq_some_iff.mp least).1
    have last := perm.mem_iff.mpr (List.max?_eq_some_iff.mp most).1
    exact distance_le_seekCount (reordered perm) first last
  · intro order perm
    exact seekCountWords?_eq (reordered perm) (perm.length_eq ▸ short.le)
  · rintro front back id rfl low
    have inserted := (List.sublist_cons_self id back).append_left front
    have longer : (front ++ id :: back).length ≤ 2 ^ 31 := by
      simp only [List.length_append, List.length_cons] at short ⊢
      omega
    exact ⟨seekCount_sublist inserted, seekCountWords?_eq (small.insert low) longer⟩

/-- Four pages read to and fro, and with a fifth in between. -/
theorem ascending_order_shortest_four :
    seekCount [5, 402, 11, 390].mergeSort = 397 ∧
      (∀ order, order.Perm [5, 402, 11, 390] → 397 ≤ seekCount order) ∧
      seekCountWords? [5, 402, 11, 390] = some 1167 ∧ 1167 ≤ seekCount [5, 402, 7, 11, 390] := by
  have small : Small [5, 402, 11, 390] := by
    unfold Small
    decide
  obtain ⟨shortest, words, more⟩ := ascending_order_shortest small (by decide)
  obtain ⟨low, high, least, most, sorted, orders⟩ := shortest (by decide)
  cases least
  cases most
  exact ⟨sorted, orders, words _ (.refl _), (more [5, 402] [11, 390] 7 rfl (by decide)).1⟩

end Gazetteer.PageList
