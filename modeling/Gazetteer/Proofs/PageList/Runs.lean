import Gazetteer.Proofs.Hilbert.Words
import Gazetteer.Proofs.PageList.Seeks
import Mathlib.Data.List.Chain

/-! The runs that ascending ids fall into. Written out, they are the ids again; no two of them can
be put together; and there is no other way to write the ids down in runs like that, nor in fewer
runs of any kind. The way over the ids is the way along the runs and over the gaps between them. -/
namespace Gazetteer.PageList

open Hilbert (sum? sum?_of_lt)

variable {ids : List Nat} {rest others : List (Nat × Nat)} {first last low high id : Nat}

/-- The loop over the ids, with the runs found so far, the youngest first: an id behind the last one
extends its run, and any other begins a run. -/
def runsLoop : List (Nat × Nat) → List Nat → Option (List (Nat × Nat))
  | found, [] => some found.reverse
  | [], id :: ids => runsLoop [(id, id)] ids
  | (first, last) :: found, id :: ids => do
    let next ← sum? last 1
    if next = id then runsLoop ((first, id) :: found) ids
    else runsLoop ((id, id) :: (first, last) :: found) ids

def runsWords? (ids : List Nat) : Option (List (Nat × Nat)) := runsLoop [] ids

/-- Runs none of which is empty and none of which can be put together with the next. -/
structure Longest (runs : List (Nat × Nat)) : Prop where
  filled : ∀ run ∈ runs, run.1 ≤ run.2
  apart : runs.IsChain fun run next => run.2 + 1 < next.1

/-- The jumps from the end of each run to the beginning of the next. -/
def gaps : List (Nat × Nat) → Nat
  | run :: next :: runs => (next.1 - run.2) + gaps (next :: runs)
  | _ => 0

/-- The way along the runs and over the gaps. -/
def travel (runs : List (Nat × Nat)) : Nat := (runs.map fun run => run.2 - run.1).sum + gaps runs

/-- A run put in front of runs, and together with the first where that begins right behind it. -/
def join (run : Nat × Nat) : List (Nat × Nat) → List (Nat × Nat)
  | next :: rest => if run.2 + 1 = next.1 then (run.1, next.2) :: rest else run :: next :: rest
  | [] => [run]

theorem extend_eq_join (id : Nat) (rest : List (Nat × Nat)) :
    extend id rest = join (id, id) rest := by
  cases rest <;> rfl

theorem runs_cons (id : Nat) (ids : List Nat) : runs (id :: ids) = join (id, id) (runs ids) :=
  extend_eq_join id (runs ids)

theorem join_behind (behind : last + 1 = low) :
    join (first, last) ((low, high) :: rest) = (first, high) :: rest := if_pos behind

theorem join_apart (apart : last + 1 ≠ low) :
    join (first, last) ((low, high) :: rest) = (first, last) :: (low, high) :: rest := if_neg apart

theorem exists_join (first last : Nat) (rest : List (Nat × Nat)) :
    ∃ high later, join (first, last) rest = (first, high) :: later := by
  cases rest with
  | nil => exact ⟨last, [], rfl⟩
  | cons next rest =>
    obtain ⟨low, high⟩ := next
    by_cases behind : last + 1 = low
    · exact ⟨high, rest, join_behind behind⟩
    · exact ⟨last, _, join_apart behind⟩

theorem join_join (first last : Nat) (rest : List (Nat × Nat)) :
    join (first, last) (join (last + 1, id) rest) = join (first, id) rest := by
  cases rest with
  | nil => exact join_behind rfl
  | cons next rest =>
    obtain ⟨low, high⟩ := next
    by_cases behind : id + 1 = low
    · rw [join_behind behind, join_behind behind, join_behind rfl]
    · rw [join_apart behind, join_apart behind, join_behind rfl]

theorem join_join_apart (apart : last + 1 ≠ low) (rest : List (Nat × Nat)) :
    join (first, last) (join (low, high) rest) = (first, last) :: join (low, high) rest := by
  obtain ⟨greatest, later, joined⟩ := exists_join low high rest
  rw [joined, join_apart apart]

theorem runsLoop_eq (below : last < linkLimit) (small : Small ids) (first : Nat)
    (found : List (Nat × Nat)) :
    runsLoop ((first, last) :: found) ids =
      some (found.reverse ++ join (first, last) (runs ids)) := by
  induction ids generalizing first last found with
  | nil => exact congrArg some List.reverse_cons
  | cons id ids ih =>
    have word : linkLimit < wordSize := by decide
    obtain ⟨here, later⟩ := List.forall_mem_cons.mp small
    rw [runsLoop, sum?_of_lt (by omega), Option.bind_eq_bind, Option.bind_some, runs_cons]
    by_cases behind : last + 1 = id
    · subst behind
      rw [if_pos rfl, ih here later, join_join]
    · rw [if_neg behind, ih here later, join_join_apart behind, List.reverse_cons,
        List.append_assoc, List.singleton_append]

theorem runsWords?_eq (small : Small ids) : runsWords? ids = some (runs ids) := by
  cases ids with
  | nil => rfl
  | cons id ids =>
    obtain ⟨here, later⟩ := List.forall_mem_cons.mp small
    exact (runsLoop_eq here later id []).trans (congrArg some (runs_cons id ids).symm)

theorem expand_cons (run : Nat × Nat) (rest : List (Nat × Nat)) :
    expand (run :: rest) = List.range' run.1 (run.2 + 1 - run.1) ++ expand rest :=
  List.flatMap_cons

theorem filled_join (filled : ∀ run ∈ rest, run.1 ≤ run.2) (own : first ≤ last) :
    ∀ run ∈ join (first, last) rest, run.1 ≤ run.2 := by
  cases rest with
  | nil => simpa [join] using own
  | cons next rest =>
    obtain ⟨low, high⟩ := next
    have here : low ≤ high := filled (low, high) List.mem_cons_self
    by_cases behind : last + 1 = low
    · have whole : first ≤ high := by omega
      rw [join_behind behind]
      exact List.forall_mem_cons.mpr ⟨whole, (List.forall_mem_cons.mp filled).2⟩
    · rw [join_apart behind]
      exact List.forall_mem_cons.mpr ⟨own, filled⟩

theorem expand_join (filled : ∀ run ∈ rest, run.1 ≤ run.2) (own : first ≤ last) :
    expand (join (first, last) rest) = List.range' first (last + 1 - first) ++ expand rest := by
  cases rest with
  | nil => rw [join, expand_cons]
  | cons next rest =>
    obtain ⟨low, high⟩ := next
    have here : low ≤ high := filled (low, high) List.mem_cons_self
    by_cases behind : last + 1 = low
    · have middle : low = first + 1 * (last + 1 - first) := by omega
      have whole : high + 1 - first = (last + 1 - first) + (high + 1 - low) := by omega
      rw [join_behind behind, expand_cons, expand_cons, ← List.append_assoc]
      simp only [whole]
      rw [← List.range'_append, ← middle]
    · rw [join_apart behind, expand_cons]

theorem filled_runs (ids : List Nat) : ∀ run ∈ runs ids, run.1 ≤ run.2 := by
  induction ids with
  | nil => exact fun run listed => by cases listed
  | cons id ids ih =>
    rw [runs_cons]
    exact filled_join ih (Nat.le_refl id)

theorem expand_runs (ids : List Nat) : expand (runs ids) = ids := by
  induction ids with
  | nil => rfl
  | cons id ids ih =>
    have one : id + 1 - id = 1 := by omega
    rw [runs_cons, expand_join (filled_runs ids) (Nat.le_refl id), ih, one]
    rfl

theorem Longest.join (h : Longest rest) (own : first ≤ last)
    (above : ∀ next ∈ rest.head?, last < next.1) : Longest (join (first, last) rest) := by
  refine ⟨filled_join h.filled own, ?_⟩
  cases rest with
  | nil => exact .singleton _
  | cons next rest =>
    obtain ⟨low, high⟩ := next
    have before : last < low := above (low, high) rfl
    by_cases behind : last + 1 = low
    · rw [join_behind behind]
      exact List.isChain_cons.mpr (List.isChain_cons.mp h.apart)
    · have gap : last + 1 < low := by omega
      rw [join_apart behind]
      exact .cons_cons gap h.apart

theorem longest_runs (ascending : ids.Pairwise (· < ·)) : Longest (runs ids) := by
  induction ids with
  | nil => exact ⟨filled_runs [], .nil⟩
  | cons id ids ih =>
    obtain ⟨least, later⟩ := List.pairwise_cons.mp ascending
    rw [runs_cons]
    apply (ih later).join (Nat.le_refl id)
    intro next first
    -- the first id of a run is one of the ids
    have listed : next.1 ∈ expand (runs ids) := by
      have member := List.mem_of_mem_head? first
      have filled := filled_runs ids next member
      exact List.mem_flatMap.mpr ⟨next, member, List.mem_range'_1.mpr ⟨Nat.le_refl _, by omega⟩⟩
    rw [expand_runs] at listed
    exact least next.1 listed

theorem runs_range_append (first n : Nat) (ids : List Nat) :
    runs (List.range' first (n + 1) ++ ids) = join (first, first + n) (runs ids) := by
  induction n generalizing first with
  | zero => exact runs_cons first ids
  | succ n ih =>
    rw [List.range'_succ, List.cons_append, runs_cons, ih, join_join]
    congr 2
    omega

theorem length_join_le (run : Nat × Nat) (rest : List (Nat × Nat)) :
    (join run rest).length ≤ rest.length + 1 := by
  cases rest with
  | nil => exact Nat.le_refl 1
  | cons next rest =>
    rw [join]
    split
    · exact Nat.le_succ _
    · exact Nat.le_refl _

theorem length_runs_expand_le (others : List (Nat × Nat)) :
    (runs (expand others)).length ≤ others.length := by
  induction others with
  | nil => exact Nat.le_refl 0
  | cons run others ih =>
    rw [expand_cons]
    cases run.2 + 1 - run.1 with
    | zero => exact ih.trans (Nat.le_succ _)
    | succ n =>
      rw [runs_range_append]
      exact (length_join_le _ _).trans (Nat.succ_le_succ ih)

theorem Longest.runs_expand (h : Longest others) : runs (expand others) = others := by
  induction others with
  | nil => rfl
  | cons run others ih =>
    obtain ⟨first, last⟩ := run
    have own : first ≤ last := h.filled (first, last) List.mem_cons_self
    have filled := (List.forall_mem_cons.mp h.filled).2
    obtain ⟨gap, apart⟩ := List.isChain_cons.mp h.apart
    have size : last + 1 - first = (last - first) + 1 := by omega
    have until_last : first + (last - first) = last := by omega
    rw [expand_cons]
    simp only [size]
    rw [runs_range_append, ih ⟨filled, apart⟩, until_last]
    cases others with
    | nil => rfl
    | cons next others => exact join_apart (Nat.ne_of_lt (gap next rfl))

theorem travel_join (own : first ≤ last) (before : last < low) (filled : low ≤ high) :
    travel (join (first, last) ((low, high) :: rest)) =
      (last - first) + (low - last) + travel ((low, high) :: rest) := by
  by_cases behind : last + 1 = low
  · have same : gaps ((first, high) :: rest) = gaps ((low, high) :: rest) := by cases rest <;> rfl
    rw [join_behind behind, travel, travel, same, List.map_cons, List.map_cons, List.sum_cons,
      List.sum_cons]
    omega
  · rw [join_apart behind, travel, travel, gaps, List.map_cons, List.sum_cons]
    omega

theorem seekCount_runs (ascending : ids.Pairwise (· < ·)) (small : Small ids) :
    seekCount ids = travel (runs ids) := by
  induction ids with
  | nil => rfl
  | cons id ids ih =>
    obtain ⟨least, later⟩ := List.pairwise_cons.mp ascending
    obtain ⟨here, others⟩ := List.forall_mem_cons.mp small
    cases ids with
    | nil =>
      have alone : runs [id] = [(id, id)] := rfl
      simp [alone, seekCount_singleton, travel, gaps]
    | cons next ids =>
      have above := least next List.mem_cons_self
      obtain ⟨high, rest, first⟩ := exists_join next next (runs ids)
      rw [← runs_cons] at first
      have filled : next ≤ high :=
        filled_runs (next :: ids) (next, high) (first ▸ List.mem_cons_self)
      rw [seekCount, ih later others, runs_cons id, first,
        travel_join (Nat.le_refl id) above filled, signed_of_small here,
        signed_of_small (others next List.mem_cons_self)]
      omega

/-- Ascending ids fall into their longest runs, and in one way only; any other runs that are these
ids are at least as many; and the way over the ids is that along the runs and over the gaps. -/
theorem longest_runs_unique (ascending : ids.Pairwise (· < ·)) (small : Small ids) :
    runsWords? ids = some (runs ids) ∧
    (expand (runs ids) = ids ∧ Longest (runs ids)) ∧
    (∀ others, expand others = ids → (runs ids).length ≤ others.length) ∧
    (∀ others, Longest others → expand others = ids → others = runs ids) ∧
    seekCount ids = ((runs ids).map fun run => run.2 - run.1).sum + gaps (runs ids) := by
  refine ⟨runsWords?_eq small, ⟨expand_runs ids, longest_runs ascending⟩, ?_, ?_,
    seekCount_runs ascending small⟩
  · rintro others rfl
    exact length_runs_expand_le others
  · rintro others longest rfl
    exact longest.runs_expand.symm

/-- Seven ids in four runs. -/
theorem longest_runs_unique_seven :
    runs [3766, 3772, 3773, 3775, 3776, 3879, 3880] =
      [(3766, 3766), (3772, 3773), (3775, 3776), (3879, 3880)] ∧
    Longest [(3766, 3766), (3772, 3773), (3775, 3776), (3879, 3880)] ∧
    (∀ others, expand others = [3766, 3772, 3773, 3775, 3776, 3879, 3880] → 4 ≤ others.length) ∧
    seekCount [3766, 3772, 3773, 3775, 3776, 3879, 3880] = 3 + 111 := by
  have small : Small [3766, 3772, 3773, 3775, 3776, 3879, 3880] := by
    unfold Small
    decide
  obtain ⟨-, ⟨-, longest⟩, fewest, -, way⟩ := longest_runs_unique (by decide) small
  exact ⟨by decide, longest, fewest, way⟩

end Gazetteer.PageList
