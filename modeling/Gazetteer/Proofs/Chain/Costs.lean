import Gazetteer.Proofs.Chain.Reached
import Gazetteer.Proofs.Pool.Fetched

/-! What collections cost. Each page that the chains lead to is fetched, also one that was never
formatted, and none besides; so the pages that were visited are the pages that were fetched, and the
number that is answered counts them. -/
namespace Gazetteer.Chain

open Pool (Fetches)

variable {p q r : Pool} {visited before between after : PageSet} {id fetched : Nat}
  {harvest : Harvest} {c d : Collected} {starts : List Nat}

/-- The pages that were fetched from `p` to `q` are those that were visited since `before`. -/
def Visits (p q : Pool) (before after : PageSet) : Prop :=
  ∃ pages, Fetches p q pages ∧ ∀ page, page ∈ after ↔ page ∈ before ∨ page ∈ pages

theorem Visits.refl (p : Pool) (visited : PageSet) : Visits p p visited visited :=
  ⟨∅, .refl p, by simp⟩

theorem Visits.trans (h : Visits p q before between) (k : Visits q r between after) :
    Visits p r before after := by
  obtain ⟨pages, first, early⟩ := h
  obtain ⟨more, second, late⟩ := k
  refine ⟨pages ∪ more, first.trans second, ?_⟩
  intro page
  rw [late, early, Finset.mem_union, or_assoc]

theorem visits_one {page : Page} (found : Pool.fetch id p = (.ok page, q)) (visited : PageSet) :
    Visits p q visited (visited.insert id) := by
  refine ⟨{id}, Pool.fetch_fetches found, ?_⟩
  intro page
  rw [mem_insert, Finset.mem_singleton, or_comm, eq_comm]

theorem Walk.visits (h : Walk visited p id harvest q) (answered : harvest.fetched = .ok fetched) :
    Visits p q visited harvest.visited := by
  induction h generalizing fetched with
  | known there => exact .refl _ _
  | unread fresh failed => cases answered
  | blank fresh found unformatted => exact visits_one found _
  | last fresh found formatted unlinked => exact visits_one found _
  | onward fresh found formatted linked walk ih =>
    obtain ⟨more, steps⟩ := Harvest.fetched_of_behind answered
    exact (visits_one found _).trans (ih steps)

theorem Collected.more_visits {start : Nat} (h : c.more start p = (.ok d, q)) :
    Visits p q c.visited d.visited := by
  obtain ⟨harvest, r, walked, rest⟩ := PoolM.bind_ok h
  obtain ⟨fetched, s, counted, joined⟩ := PoolM.bind_ok rest
  obtain ⟨answered, rfl⟩ := PoolM.except_ok counted
  obtain ⟨rfl, rfl⟩ := PoolM.pure_ok joined
  exact (collect_walk (PoolM.lift_ok walked)).visits answered

theorem Collected.run_visits (h : starts.foldlM Collected.more c p = (.ok d, q)) :
    Visits p q c.visited d.visited := by
  induction starts generalizing p c with
  | nil =>
    obtain ⟨rfl, rfl⟩ := PoolM.pure_ok h
    exact .refl p _
  | cons start starts ih =>
    rw [List.foldlM_cons] at h
    obtain ⟨next, r, one, rest⟩ := PoolM.bind_ok h
    exact (Collected.more_visits one).trans (ih rest)

theorem collectAll_fetches {records : List (List UInt8)}
    (h : collectAll ∅ starts p = (.ok (fetched, records), q)) :
    ∃ pages : Finset Nat, Fetches p q pages ∧
      (∀ page, page ∈ pages ↔ ∃ start ∈ starts, Reaches p.view start page) ∧
      fetched = pages.card := by
  rw [collectAll_eq, map_eq_pure_bind] at h
  obtain ⟨c, r, collected, answered⟩ := PoolM.bind_ok h
  obtain ⟨sums, rfl⟩ := PoolM.pure_ok answered
  cases sums
  obtain ⟨order, covers⟩ := collectEach_covers collected
  obtain ⟨pages, fetches, mem⟩ := Collected.run_visits collected
  have listed : ∀ page, page ∈ pages ↔ page ∈ order := by
    intro page
    rw [← covers.visited, mem]
    simp
  have same : pages = order.toFinset := by
    ext page
    rw [listed, List.mem_toFinset]
  refine ⟨pages, fetches, ?_, ?_⟩
  · intro page
    rw [listed, covers.reached]
  · rw [same, List.toFinset_card_of_nodup covers.nodup, covers.fetched]

end Gazetteer.Chain
