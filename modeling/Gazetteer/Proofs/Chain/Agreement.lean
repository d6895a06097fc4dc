import Gazetteer.Proofs.Chain.Collect
import Gazetteer.Proofs.Pool.Agreement

/-! Chains on pools that work on pages cannot tell apart: an append goes to the same place on both,
and the walks come to the same pages and bring back the same records. -/
namespace Gazetteer.Chain

open PoolM (Agree Ended)

variable {calm : Prop} {S : Pool → Pool → Prop} (sim : Pool.Simulation calm S)

include sim

theorem firstFreeFrom_agree (maxPages id more : Nat) :
    Agree calm S Eq (firstFreeFrom maxPages id more) (firstFreeFrom maxPages id more) := by
  induction more generalizing id with
  | zero => exact .throw _
  | succ more ih =>
    refine .bind (sim.fetch id) fun a b same => ?_
    rw [same.block]
    split
    · exact ih (id + 1)
    · exact .pure rfl

theorem link_agree (id next : Nat) :
    Agree calm S (fun _ _ => True) (link id next) (link id next) := by
  refine .bind (sim.fetch id) fun a b same => ?_
  rw [same.setLink]
  refine .bind (.except _) fun linked _ set => ?_
  obtain ⟨rfl, set⟩ := set
  obtain ⟨own, dirty⟩ := Page.setLink_ok set
  rw [same.right] at own
  exact .modify fun p q alike => sim.note _ (own ▸ sim.keep linked dirty alike)

theorem roomFrom_agree (maxPages length : Nat) (seen : PageSet) (id : Nat) :
    Agree calm S Eq (roomFrom maxPages length seen id) (roomFrom maxPages length seen id) := by
  -- every step sees one page more of those that a link can lead to
  induction steps : seen.stepsLeft id using Nat.strongRecOn generalizing seen id with
  | ind n ih =>
    rw [roomFrom_eq]
    split
    · exact .throw _
    · next fresh =>
      refine .bind (sim.fetch id) fun a b same => ?_
      rw [same.block]
      split
      · exact .pure rfl
      · cases linked : b.block.link? with
        | some next =>
          have fewer := PageSet.stepsLeft_insert_lt fresh (Block.link?_lt linked)
          exact ih _ (steps ▸ fewer) _ _ rfl
        | none =>
          refine .bind (firstFreeFrom_agree sim maxPages 0 maxPages) fun next _ same => ?_
          cases same
          exact .bind (link_agree sim id next) fun _ _ _ => .pure rfl

theorem format_agree (id : Nat) :
    Agree calm S (fun _ _ => True) (Pool.format id) (Pool.format id) := by
  refine .bind (sim.fetch id) fun a b same => .modify fun p q alike => sim.note _ ?_
  have kept := sim.keep b.format rfl alike
  rw [same.format]
  exact same.right ▸ kept

theorem formatted_agree (id : Nat) :
    Agree calm S (Page.Alike id) (formatted id) (formatted id) := by
  refine .bind (sim.fetch id) fun a b same => ?_
  rw [same.block]
  split
  · exact .pure same
  · exact .bind (format_agree sim id) fun _ _ _ => sim.fetch id

theorem append_agree (home : Nat) (value : List UInt8) (maxPages : Nat) :
    Agree calm S Eq (append home value maxPages) (append home value maxPages) := by
  unfold append
  split
  · exact .throw _
  · refine .bind (roomFrom_agree sim maxPages value.length ∅ home) fun id _ same => ?_
    cases same
    refine .bind (formatted_agree sim id) fun a b same => ?_
    have kept : ∀ p q, S p q → S (p.keep id (a.push value)) (q.keep id (b.push value)) := by
      intro p q alike
      rw [same.push]
      exact same.right ▸ sim.keep (b.push value) rfl alike
    refine .bind (.modify kept) fun _ _ _ => .pure ?_
    rw [same.block]

omit sim in
theorem pageIdsFrom_eq (seen : PageSet) (id : Nat) :
    pageIdsFrom seen id = (do
      let page ← Pool.fetch id
      if page.block.isFormatted then
        if id ∈ seen then return []
        else
          match page.block.link? with
          | none => return [id]
          | some next =>
            let rest ← pageIdsFrom (seen.insert id) next
            return id :: rest
      else return []) := by
  rw [pageIdsFrom]
  congr 1
  funext page
  split
  · split
    · rfl
    · split
      · next unlinked => simp only [unlinked]
      · next linked => simp only [linked]
  · rfl

omit sim in
theorem pageIdsFrom_reads (seen : PageSet) (id : Nat) : PoolM.Reads (pageIdsFrom seen id) := by
  induction steps : seen.stepsLeft id using Nat.strongRecOn generalizing seen id with
  | ind n ih =>
    rw [pageIdsFrom_eq]
    refine .bind (.fetch id) fun page => ?_
    split
    · split
      · exact .pure _
      · next fresh =>
        split
        · exact .pure _
        · next next linked =>
          have fewer := PageSet.stepsLeft_insert_lt fresh (Block.link?_lt linked)
          exact .bind (ih _ (steps ▸ fewer) _ _ rfl) fun rest => .pure _
    · exact .pure _

theorem pageIdsFrom_agree (seen : PageSet) (id : Nat) :
    Agree calm S Eq (pageIdsFrom seen id) (pageIdsFrom seen id) := by
  induction steps : seen.stepsLeft id using Nat.strongRecOn generalizing seen id with
  | ind n ih =>
    rw [pageIdsFrom_eq]
    refine .bind (sim.fetch id) fun a b same => ?_
    rw [same.block]
    split
    · split
      · exact .pure rfl
      · next fresh =>
        cases linked : b.block.link? with
        | none => exact .pure rfl
        | some next =>
          have fewer := PageSet.stepsLeft_insert_lt fresh (Block.link?_lt linked)
          refine .bind (ih _ (steps ▸ fewer) _ _ rfl) fun rest _ same => ?_
          cases same
          exact .pure rfl
    · exact .pure rfl

/-- What a walk brought back, or the fault that stopped it. -/
def Harvest.answer (h : Harvest) : Except Fault Harvest := h.fetched.map fun _ => h

/-- A collection that fails where its walk was stopped. -/
def gather (visited : PageSet) (id : Nat) : PoolM Harvest := do
  let harvest ← (collect visited id : StateM Pool Harvest)
  harvest.answer

omit sim in
theorem gather_of_collect {visited : PageSet} {id : Nat} {p q : Pool} {harvest : Harvest}
    (h : collect visited id p = (harvest, q)) : gather visited id p = (harvest.answer, q) := by
  rw [gather, PoolM.bind_of_ok (PoolM.lift_of h)]
  cases harvest.answer <;> rfl

omit sim in
theorem gather_reads (visited : PageSet) (id : Nat) : PoolM.Reads (gather visited id) :=
  .bind (.lift fun _ _ _ walked => (collect_walk walked).loads)
    fun harvest => .except harvest.answer

omit sim in
theorem gather_eq (visited : PageSet) (id : Nat) :
    gather visited id =
      if id ∈ visited then return { visited, fetched := .ok 0 }
      else do
        let page ← Pool.fetch id
        if page.block.isFormatted then
          match page.block.link? with
          | none =>
            return { visited := visited.insert id, records := page.block.records, fetched := .ok 1 }
          | some next =>
            let rest ← gather (visited.insert id) next
            return rest.behind page.block.records
        else return { visited := visited.insert id, fetched := .ok 1 } := by
  funext p
  have walked := collect_eq visited id
  split
  · next known =>
    rw [if_pos known] at walked
    exact gather_of_collect (congrFun walked p)
  · next fresh =>
    rw [if_neg fresh] at walked
    cases fetched : Pool.fetch id p with
    | mk answer r =>
      have here := congrFun walked p
      rw [PoolM.state_bind (x := (Pool.fetch id).run) fetched] at here
      cases answer with
      | error fault =>
        rw [PoolM.bind_of_error fetched]
        exact gather_of_collect here
      | ok page =>
        rw [PoolM.bind_of_ok fetched]
        cases formatted : page.block.isFormatted with
        | false =>
          simp only [formatted] at here
          exact gather_of_collect here
        | true =>
          simp only [formatted, if_true] at here ⊢
          cases linked : page.block.link? with
          | none =>
            simp only [linked] at here
            exact gather_of_collect here
          | some next =>
            simp only [linked] at here
            cases onward : collect (visited.insert id) next r with
            | mk rest s =>
              rw [PoolM.state_bind onward] at here
              have behind := gather_of_collect here
              have later := gather_of_collect onward
              cases steps : rest.fetched with
              | error fault =>
                simp only [Harvest.answer, steps, Except.map, Harvest.behind] at later behind
                rw [behind]
                exact (PoolM.bind_of_error later).symm
              | ok more =>
                simp only [Harvest.answer, steps, Except.map] at later
                simp only [Harvest.answer, steps, Except.map, Harvest.behind] at behind
                rw [behind]
                refine ((PoolM.bind_of_ok later).trans ?_).symm
                simp only [Harvest.behind, steps, Except.map]
                rfl

theorem gather_agree (visited : PageSet) (id : Nat) :
    Agree calm S Eq (gather visited id) (gather visited id) := by
  induction steps : visited.stepsLeft id using Nat.strongRecOn generalizing visited id with
  | ind n ih =>
    rw [gather_eq]
    split
    · exact .pure rfl
    · next fresh =>
      refine .bind (sim.fetch id) fun a b same => ?_
      rw [same.block]
      split
      · cases linked : b.block.link? with
        | none => exact .pure rfl
        | some next =>
          have fewer := PageSet.stepsLeft_insert_lt fresh (Block.link?_lt linked)
          refine .bind (ih _ (steps ▸ fewer) _ _ rfl) fun rest _ same => ?_
          cases same
          exact .pure rfl
      · exact .pure rfl

omit sim in
theorem collectAll_cons (visited : PageSet) (id : Nat) (ids : List Nat) :
    collectAll visited (id :: ids) = (do
      let first ← gather visited id
      let fetched ← (first.fetched : Except Fault Nat)
      let (more, records) ← collectAll first.visited ids
      return (fetched + more, first.records ++ records)) := by
  funext p
  cases walked : collect visited id p with
  | mk first q =>
    have went := gather_of_collect walked
    rw [collectAll, PoolM.bind_of_ok (PoolM.lift_of walked)]
    cases fetched : first.fetched with
    | error fault =>
      simp only [Harvest.answer, fetched, Except.map] at went
      rw [PoolM.bind_of_error went]
      rfl
    | ok n =>
      simp only [Harvest.answer, fetched, Except.map] at went
      rw [PoolM.bind_of_ok went, fetched]

theorem collectAll_agree (visited : PageSet) (starts : List Nat) :
    Agree calm S Eq (collectAll visited starts) (collectAll visited starts) := by
  induction starts generalizing visited with
  | nil => exact .pure rfl
  | cons id ids ih =>
    rw [collectAll_cons]
    refine .bind (gather_agree sim visited id) fun first _ same => ?_
    cases same
    refine .bind (.except _) fun fetched _ same => ?_
    obtain ⟨rfl, -⟩ := same
    refine .bind (ih first.visited) fun others _ same => ?_
    cases same
    exact .pure rfl

end Gazetteer.Chain
