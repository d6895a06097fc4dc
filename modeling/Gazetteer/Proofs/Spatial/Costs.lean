import Gazetteer.Proofs.Chain.Costs
import Gazetteer.Proofs.PageList.Seeks
import Gazetteer.Proofs.Placement.Contract
import Gazetteer.Proofs.Spatial.Search

/-! What a search says about its cost is what it cost. The pages that it counts are those that the
chains of its candidates lead to, each once; of these it reads the ones that were not kept, and
afterwards it keeps them all. A search by a radius that is not finite costs nothing. -/
namespace Gazetteer.Spatial

variable {p q : Pool} {placement : Placement} {place : Coordinate} {radiusKm : Float}
  {candidates : List Nat} {answer : Answer} {reached : Finset Nat}

/-- An answer that counts what the search did, `reached` being the pages that were fetched. -/
structure Costs (p q : Pool) (candidates : List Nat) (answer : Answer) (reached : Finset Nat) : Prop
    extends Pool.Fetches p q reached where
  nodup : candidates.Nodup
  counted : answer.candidates = candidates.length
  reaches : ∀ id, id ∈ reached ↔ ∃ start ∈ candidates, Chain.Reaches p.view start id
  pagesRead : answer.pagesRead = reached.card
  seeks : ∃ low high, candidates.min? = some low ∧ candidates.max? = some high ∧
    answer.seekCount = high - low
  cold : p.cached = ∅ → q.diskReads = p.diskReads + answer.pagesRead

theorem finite_of_pages (proposed : placement.pages place radiusKm = .ok candidates) :
    radiusKm.isFinite = true := by
  cases finite : radiusKm.isFinite with
  | true => rfl
  | false =>
    rw [placement.pages_of_infinite place finite] at proposed
    cases proposed

theorem seekCount_candidates (proposed : placement.pages place radiusKm = .ok candidates) :
    candidates.Nodup ∧ ∃ low high, candidates.min? = some low ∧ candidates.max? = some high ∧
      PageList.seekCount candidates.mergeSort = high - low := by
  obtain ⟨radius, ids, -, found, nodup, near⟩ :=
    placement.pages_of_finite place (finite_of_pages proposed)
  cases Except.ok.inj (proposed.symm.trans found)
  have own : placement.page place ∈ candidates := (near _).mpr (Placement.near_page _ _ _)
  have small : PageList.Small candidates := by
    intro id listed
    exact Nat.lt_trans ((near id).mp listed).lt placement.maxPages_lt
  obtain ⟨low, least⟩ := Option.isSome_iff_exists.mp (List.isSome_min?_of_mem own)
  obtain ⟨high, most⟩ := Option.isSome_iff_exists.mp (List.isSome_max?_of_mem own)
  exact ⟨nodup, low, high, least, most, PageList.seekCount_sorted small least most⟩

theorem costs_of_search (h : search placement place radiusKm p = (.ok answer, q)) :
    ∃ candidates reached, placement.pages place radiusKm = .ok candidates ∧
      Costs p q candidates answer reached := by
  obtain ⟨candidates, r, proposed, rest⟩ := PoolM.bind_ok h
  obtain ⟨found, rfl⟩ := PoolM.except_ok proposed
  obtain ⟨⟨fetched, records⟩, s, collected, later⟩ := PoolM.bind_ok rest
  obtain ⟨u, t, noted, answered⟩ := PoolM.bind_ok later
  obtain ⟨rfl, rfl⟩ := PoolM.pure_ok answered
  cases PoolM.modify_ok noted
  obtain ⟨reached, fetches, mem, total⟩ := Chain.collectAll_fetches collected
  obtain ⟨nodup, seeks⟩ := seekCount_candidates found
  refine ⟨candidates, reached, found,
    { toFetches := fetches.note _, nodup, counted := rfl, reaches := mem, pagesRead := total,
      seeks, cold := ?_ }⟩
  intro cold
  have reads := fetches.reads
  rw [Pool.missing_of_empty cold, ← total] at reads
  exact reads

/-- The numbers of an answer are those of the search, on every pool and by either placement; and a
radius that is not finite is refused before anything is done. -/
theorem search_costs (placement : Placement) (place : Coordinate) (radiusKm : Float) (p : Pool) :
    (∀ answer q, search placement place radiusKm p = (.ok answer, q) →
      ∃ candidates reached, placement.pages place radiusKm = .ok candidates ∧
        Costs p q candidates answer reached) ∧
    (radiusKm.isFinite = false →
      search placement place radiusKm p = (.error (.invalidRadius (.ofFloat radiusKm)), p)) := by
  constructor
  · intro answer q answered
    exact costs_of_search answered
  · intro infinite
    rw [search, placement.pages_of_infinite place infinite]
    rfl

/-- Two pages that are linked to the same third one, and of all these the first is kept; and a
search by a radius that is no number. -/
theorem search_costs_shared : ∃ (c : Curve) (p q : Pool) (answer : Answer),
    Chain.Linked p.view 0 2 ∧ Chain.Linked p.view 1 2 ∧ 0 ∈ p.cached ∧ p.cached.size = 1 ∧
    search (.curve c) ⟨33.0, 126.0⟩ 0.009 p = (.ok answer, q) ∧
    answer.candidates = 2 ∧ answer.pagesRead = 3 ∧ answer.seekCount = 1 ∧ q.diskReads = 2 ∧
    search (.curve c) ⟨33.0, 126.0⟩ (0.0 / 0.0) q =
      (.error (.invalidRadius (.ofFloat (0.0 / 0.0))), q) := by
  let c : Curve := ⟨{ order := 2, maxPages := 8 }, by decide +kernel⟩
  let linked : Block := Block.zero.format.linkTo 2
  let blocks : Blocks := Std.ExtTreeMap.ofList [(1, linked), (2, Block.zero.format)]
  let p : Pool := (Pool.over { medium := .memory blocks } {}).keep 0 ⟨0, true, linked⟩
  have proposed : (Placement.curve c).pages ⟨33.0, 126.0⟩ 0.009 = .ok [0, 1] := by decide +kernel
  have first : p.view 0 = linked := by rw [Pool.view_keep, if_pos rfl]
  have second : p.view 1 = linked := by
    rw [Pool.view_keep, if_neg (by decide)]
    rfl
  have third : p.view 2 = Block.zero.format := by
    rw [Pool.view_keep, if_neg (by decide)]
    rfl
  have formatted : linked.isFormatted = true := by
    rw [Block.isFormatted_linkTo, Block.isFormatted_format]
  have link : linked.link? = some 2 := Block.link?_linkTo (by decide)
  have left : Chain.Linked p.view 0 2 := by
    rw [Chain.Linked, first]
    exact ⟨formatted, link⟩
  have right : Chain.Linked p.view 1 2 := by
    rw [Chain.Linked, second]
    exact ⟨formatted, link⟩
  have ending : ∀ next, ¬ Chain.Linked p.view 2 next :=
    Chain.not_linked_of_none (by rw [third, Block.link?_format])
  obtain ⟨answer, q, answered⟩ := search_answers (p := p) ⟨rfl, rfl⟩ proposed
  obtain ⟨costs, refused⟩ := search_costs (.curve c) ⟨33.0, 126.0⟩ 0.009 p
  obtain ⟨candidates, reached, found, costs⟩ := costs answer q answered
  cases Except.ok.inj (proposed.symm.trans found)
  have pages : reached = {0, 1, 2} := by
    ext id
    simp only [costs.reaches, Finset.mem_insert, Finset.mem_singleton]
    constructor
    · rintro ⟨start, listed, leads⟩
      have one : start = 0 ∨ start = 1 := by simpa using listed
      rcases one with rfl | rfl
      · rcases Chain.eq_or_eq_of_reaches left ending leads with rfl | rfl <;> simp
      · rcases Chain.eq_or_eq_of_reaches right ending leads with rfl | rfl <;> simp
    · rintro (rfl | rfl | rfl)
      · exact ⟨0, by simp, .refl⟩
      · exact ⟨1, by simp, .refl⟩
      · exact ⟨0, by simp, .single left⟩
  have reads := costs.reads
  have missing : (p.missing {0, 1, 2}).card = 2 := by decide +kernel
  obtain ⟨low, high, least, most, seeks⟩ := costs.seeks
  cases least
  cases most
  rw [pages, missing] at reads
  refine ⟨c, p, q, answer, left, right, by decide +kernel, by decide +kernel, answered,
    costs.counted, ?_, seeks, reads, ?_⟩
  · rw [costs.pagesRead, pages]
    rfl
  · exact (search_costs _ _ _ q).2 (by decide +kernel)

end Gazetteer.Spatial
