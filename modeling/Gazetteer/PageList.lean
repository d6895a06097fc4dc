/-! Lists of page ids in the order in which they are read: how far a disk head travels, which ids
follow one another, and the ids that some runs have together. -/
namespace Gazetteer.PageList

def signed (id : Nat) : Int := (Int64.ofNat id).toInt

def seekCount : List Nat → Nat
  | a :: b :: rest => (signed b - signed a).natAbs + seekCount (b :: rest)
  | _ => 0

/-- One id put in front of runs: it extends the first run if that begins with the next id. -/
def extend (id : Nat) : List (Nat × Nat) → List (Nat × Nat)
  | (first, last) :: runs =>
    if id + 1 = first then (id, last) :: runs else (id, id) :: (first, last) :: runs
  | [] => [(id, id)]

/-- The longest runs of ids that follow one another, as first and last id. -/
def runs (ids : List Nat) : List (Nat × Nat) := ids.foldr extend []

def expand (runs : List (Nat × Nat)) : List Nat :=
  runs.flatMap fun run => List.range' run.1 (run.2 + 1 - run.1)

/-- Runs by ascending first id, listed behind the ids below `next` that are listed already. -/
def unionFrom (listed : Array Nat) (next : Nat) : List (Nat × Nat) → Array Nat
  | [] => listed
  | (first, last) :: runs =>
    let start := max next first
    unionFrom (listed ++ List.range' start (last + 1 - start)) (max next (last + 1)) runs

def union (runs : List (Nat × Nat)) : List Nat :=
  (unionFrom #[] 0 (runs.mergeSort fun a b => a.1 ≤ b.1)).toList

theorem signed_eq (id : Nat) : signed id = Int.bmod id (Nat.pow 2 64) := Int64.toInt_ofNat

theorem mem_unionFrom {listed : Array Nat} {next : Nat} {runs : List (Nat × Nat)}
    (sorted : runs.Pairwise fun a b => a.1 ≤ b.1) (id : Nat) :
    id ∈ (unionFrom listed next runs).toList ↔
      id ∈ listed.toList ∨ next ≤ id ∧ ∃ run ∈ runs, run.1 ≤ id ∧ id ≤ run.2 := by
  induction runs generalizing listed next with
  | nil => simp [unionFrom]
  | cons run runs ih =>
    obtain ⟨first, last⟩ := run
    obtain ⟨least, rest⟩ := List.pairwise_cons.mp sorted
    rw [unionFrom, ih rest]
    simp only [Array.toList_appendList, List.mem_append, List.mem_range'_1, List.mem_cons,
      exists_eq_or_imp]
    constructor
    · rintro ((old | here) | ⟨behind, later⟩)
      · exact Or.inl old
      · exact Or.inr ⟨by omega, Or.inl ⟨by omega, by omega⟩⟩
      · exact Or.inr ⟨by omega, Or.inr later⟩
    · rintro (old | ⟨behind, here | ⟨run, member, from_first, to_last⟩⟩)
      · exact Or.inl (Or.inl old)
      · exact Or.inl (Or.inr ⟨by omega, by omega⟩)
      · have from_least := least run member
        by_cases here : id ≤ last
        · exact Or.inl (Or.inr ⟨by omega, by omega⟩)
        · exact Or.inr ⟨by omega, run, member, from_first, to_last⟩

theorem pairwise_unionFrom {listed : Array Nat} {next : Nat} (runs : List (Nat × Nat))
    (ascending : listed.toList.Pairwise (· < ·)) (below : ∀ id ∈ listed.toList, id < next) :
    (unionFrom listed next runs).toList.Pairwise (· < ·) := by
  induction runs generalizing listed next with
  | nil => exact ascending
  | cons run runs ih =>
    obtain ⟨first, last⟩ := run
    rw [unionFrom]
    apply ih
    · rw [Array.toList_appendList, List.pairwise_append]
      refine ⟨ascending, List.pairwise_lt_range', ?_⟩
      intro old known id added
      have before := below old known
      rw [List.mem_range'_1] at added
      omega
    · intro id member
      rw [Array.toList_appendList, List.mem_append, List.mem_range'_1] at member
      rcases member with known | added
      · have before := below id known
        omega
      · omega

theorem mem_union (runs : List (Nat × Nat)) (id : Nat) :
    id ∈ union runs ↔ ∃ run ∈ runs, run.1 ≤ id ∧ id ≤ run.2 := by
  have sorted := @List.pairwise_mergeSort _ (fun a b : Nat × Nat => decide (a.1 ≤ b.1))
    (fun a b c ab bc => by simp at *; omega) (fun a b => by simp; omega) runs
  rw [union, mem_unionFrom (sorted.imp fun h => by simpa using h)]
  simp

theorem pairwise_union (runs : List (Nat × Nat)) : (union runs).Pairwise (· < ·) :=
  pairwise_unionFrom _ List.Pairwise.nil (by simp)

theorem seekCount_singleton (id : Nat) : seekCount [id] = 0 := rfl

end Gazetteer.PageList
