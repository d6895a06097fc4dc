import Gazetteer.Proofs.Chain.Append

/-! What a collection gathers: every page that the chains of its starts lead to, and each once,
although chains run together and lead back. A page that was visited needs no second walk, since
all that it leads to was visited in the walk that turned to it first. -/
namespace Gazetteer.Chain

variable {view : Nat → Block} {p q : Pool}

/-- How a walk that collects goes on, `visited` being the pages that it need not turn to. -/
inductive Walk : PageSet → Pool → Nat → Harvest → Pool → Prop where
  | known {visited : PageSet} {p : Pool} {id : Nat} (there : id ∈ visited) :
      Walk visited p id { visited, fetched := .ok 0 } p
  | unread {visited : PageSet} {p q : Pool} {id : Nat} {fault : Fault} (fresh : id ∉ visited)
      (failed : Pool.fetch id p = (.error fault, q)) :
      Walk visited p id { visited := visited.insert id, fetched := .error fault } q
  | blank {visited : PageSet} {p q : Pool} {id : Nat} {page : Page} (fresh : id ∉ visited)
      (fetched : Pool.fetch id p = (.ok page, q)) (unformatted : page.block.isFormatted = false) :
      Walk visited p id { visited := visited.insert id, fetched := .ok 1 } q
  | last {visited : PageSet} {p q : Pool} {id : Nat} {page : Page} (fresh : id ∉ visited)
      (fetched : Pool.fetch id p = (.ok page, q)) (formatted : page.block.isFormatted = true)
      (unlinked : page.block.link? = none) :
      Walk visited p id
        { visited := visited.insert id, records := page.block.records, fetched := .ok 1 } q
  | onward {visited : PageSet} {p q r : Pool} {id next : Nat} {page : Page} {rest : Harvest}
      (fresh : id ∉ visited) (fetched : Pool.fetch id p = (.ok page, q))
      (formatted : page.block.isFormatted = true) (linked : page.block.link? = some next)
      (walk : Walk (visited.insert id) q next rest r) :
      Walk visited p id (rest.behind page.block.records) r

theorem collect_eq (visited : PageSet) (id : Nat) :
    collect visited id =
      if id ∈ visited then (pure { visited, fetched := .ok 0 } : StateM Pool Harvest)
      else do
        match ← (Pool.fetch id).run with
        | .error fault => return { visited := visited.insert id, fetched := .error fault }
        | .ok page =>
          if page.block.isFormatted then
            match page.block.link? with
            | none =>
              return { visited := visited.insert id, records := page.block.records, fetched := .ok 1 }
            | some next =>
              let rest ← collect (visited.insert id) next
              return rest.behind page.block.records
          else return { visited := visited.insert id, fetched := .ok 1 } := by
  rw [collect]
  split
  · rfl
  · congr 1
    funext answer
    cases answer with
    | error fault => rfl
    | ok page =>
      simp only
      congr 1
      split
      · next unlinked => simp only [unlinked]
      · next linked => simp only [linked]

theorem collect_walk {visited : PageSet} {id : Nat} {harvest : Harvest}
    (h : collect visited id p = (harvest, q)) : Walk visited p id harvest q := by
  induction steps : visited.stepsLeft id using Nat.strongRecOn generalizing visited id p harvest q with
  | ind n ih =>
    rw [collect_eq] at h
    split at h
    · next there =>
      cases h
      exact .known there
    · next fresh =>
      cases fetched : Pool.fetch id p with
      | mk answer r =>
        rw [PoolM.state_bind (x := (Pool.fetch id).run) fetched] at h
        cases answer with
        | error fault =>
          cases h
          exact .unread fresh fetched
        | ok page =>
          cases formatted : page.block.isFormatted with
          | false =>
            simp only [formatted, Bool.false_eq_true, if_false] at h
            cases h
            exact .blank fresh fetched formatted
          | true =>
            simp only [formatted, if_true] at h
            cases linked : page.block.link? with
            | none =>
              simp only [linked] at h
              cases h
              exact .last fresh fetched formatted linked
            | some next =>
              simp only [linked] at h
              have fewer := PageSet.stepsLeft_insert_lt fresh (Block.link?_lt linked)
              cases walked : collect (visited.insert id) next r with
              | mk rest s =>
                rw [PoolM.state_bind walked] at h
                cases h
                exact .onward fresh fetched formatted linked (ih _ (steps ▸ fewer) walked rfl)

theorem Walk.loads {visited : PageSet} {id : Nat} {harvest : Harvest}
    (h : Walk visited p id harvest q) : Pool.Loads p q := by
  induction h with
  | known there => exact .refl _
  | unread fresh failed => exact Pool.fetch_loads failed
  | blank fresh fetched unformatted => exact Pool.fetch_loads fetched
  | last fresh fetched formatted unlinked => exact Pool.fetch_loads fetched
  | onward fresh fetched formatted linked walk ih =>
    exact (Pool.fetch_loads fetched).trans_loads ih

theorem Walk.answers {visited : PageSet} {id : Nat} {harvest : Harvest}
    (h : Walk visited p id harvest q) (readable : p.Readable) :
    ∃ fetched, harvest.fetched = .ok fetched := by
  induction h with
  | known there => exact ⟨0, rfl⟩
  | unread fresh failed => exact (Pool.fetch_readable readable failed).elim
  | blank fresh fetched unformatted => exact ⟨1, rfl⟩
  | last fresh fetched formatted unlinked => exact ⟨1, rfl⟩
  | onward fresh fetched formatted linked walk ih =>
    obtain ⟨more, counted⟩ := ih ((Pool.fetch_loads fetched).readable readable)
    refine ⟨more + 1, ?_⟩
    rw [Harvest.behind, counted]
    rfl

/-- All links of some pages lead to these pages or to one more. -/
def ClosedBut (view : Nat → Block) (visited : PageSet) (pending : Nat) : Prop :=
  ∀ id ∈ visited, ∀ next, Linked view id next → next ∈ visited ∨ next = pending

def Closed (view : Nat → Block) (visited : PageSet) : Prop :=
  ∀ id ∈ visited, ∀ next, Linked view id next → next ∈ visited

/-- A walk that was not stopped came to the pages of `order`, in that order, which were not visited
before it. -/
structure Gathers (view : Nat → Block) (visited : PageSet) (id : Nat) (harvest : Harvest)
    (order : List Nat) : Prop where
  mem : ∀ page, page ∈ harvest.visited ↔ page ∈ visited ∨ page ∈ order
  fresh : ∀ page ∈ order, page ∉ visited
  nodup : order.Nodup
  reached : ∀ page ∈ order, Reaches view id page
  records : harvest.records = order.flatMap fun page => (view page).records
  fetched : harvest.fetched = .ok order.length
  turned : id ∈ harvest.visited
  closed : ClosedBut view visited id → Closed view harvest.visited

theorem mem_insert {visited : PageSet} {id page : Nat} :
    page ∈ visited.insert id ↔ id = page ∨ page ∈ visited := by
  rw [Std.ExtTreeSet.mem_insert, Nat.compare_eq_eq]

theorem gathers_nothing {visited : PageSet} {id : Nat} (there : id ∈ visited) :
    Gathers view visited id { visited, fetched := .ok 0 } [] where
  mem := by simp
  fresh := by simp
  nodup := List.nodup_nil
  reached := by simp
  records := rfl
  fetched := rfl
  turned := there
  closed := by
    intro closed page member next linked
    rcases closed page member next linked with known | rfl
    · exact known
    · exact there

theorem gathers_one {visited : PageSet} {id : Nat} (fresh : id ∉ visited)
    (end_here : ∀ next, ¬ Linked view id next) :
    Gathers view visited id
      { visited := visited.insert id, records := (view id).records, fetched := .ok 1 } [id] where
  mem := by
    intro page
    rw [mem_insert, List.mem_singleton, or_comm, eq_comm]
  fresh := by simpa using fresh
  nodup := by simp
  reached := by
    intro page member
    cases List.mem_singleton.mp member
    exact .refl
  records := by simp
  fetched := rfl
  turned := mem_insert.mpr (Or.inl rfl)
  closed := by
    intro closed page member next linked
    rcases mem_insert.mp member with rfl | known
    · exact (end_here next linked).elim
    · rcases closed page known next linked with there | here
      · exact mem_insert.mpr (Or.inr there)
      · exact mem_insert.mpr (Or.inl here.symm)

theorem gathers_blank {visited : PageSet} {id : Nat} (fresh : id ∉ visited)
    (unformatted : (view id).isFormatted = false) :
    Gathers view visited id { visited := visited.insert id, fetched := .ok 1 } [id] := by
  have nothing := gathers_one fresh (not_linked_of_blank unformatted)
  rw [Block.records_of_blank unformatted] at nothing
  exact nothing

theorem gathers_last {visited : PageSet} {id : Nat} (fresh : id ∉ visited)
    (unlinked : (view id).link? = none) :
    Gathers view visited id
      { visited := visited.insert id, records := (view id).records, fetched := .ok 1 } [id] :=
  gathers_one fresh (not_linked_of_none unlinked)

theorem Gathers.behind {visited : PageSet} {id next : Nat} {rest : Harvest} {order : List Nat}
    (h : Gathers view (visited.insert id) next rest order) (fresh : id ∉ visited)
    (linked : Linked view id next) :
    Gathers view visited id (rest.behind (view id).records) (id :: order) where
  mem := by
    intro page
    change page ∈ rest.visited ↔ _
    rw [h.mem, mem_insert, List.mem_cons]
    grind
  fresh := by
    intro page member
    rcases List.mem_cons.mp member with rfl | later
    · exact fresh
    · exact fun known => h.fresh page later (mem_insert.mpr (Or.inr known))
  nodup := by
    refine List.nodup_cons.mpr ⟨?_, h.nodup⟩
    intro again
    exact h.fresh id again (mem_insert.mpr (Or.inl rfl))
  reached := by
    intro page member
    rcases List.mem_cons.mp member with rfl | later
    · exact .refl
    · exact .head linked (h.reached page later)
  records := by
    rw [List.flatMap_cons, ← h.records]
    rfl
  fetched := by
    rw [Harvest.behind, h.fetched]
    rfl
  turned := (h.mem id).mpr (Or.inl (mem_insert.mpr (Or.inl rfl)))
  closed := by
    intro closed
    refine h.closed ?_
    intro page member target leads
    rcases mem_insert.mp member with rfl | known
    · -- a page has one link
      exact Or.inr (leads.unique linked)
    · left
      rcases closed page known target leads with there | here
      · exact mem_insert.mpr (Or.inr there)
      · exact mem_insert.mpr (Or.inl here.symm)

theorem Harvest.fetched_of_behind {records : List (List UInt8)} {rest : Harvest} {fetched : Nat}
    (h : (rest.behind records).fetched = .ok fetched) : ∃ more, rest.fetched = .ok more := by
  cases steps : rest.fetched with
  | error fault =>
    rw [Harvest.behind, steps] at h
    cases h
  | ok more => exact ⟨more, rfl⟩

theorem Walk.gathers {visited : PageSet} {id fetched : Nat} {harvest : Harvest}
    (h : Walk visited p id harvest q) (answered : harvest.fetched = .ok fetched) :
    ∃ order, Gathers p.view visited id harvest order := by
  induction h generalizing fetched with
  | known there => exact ⟨[], gathers_nothing there⟩
  | unread fresh failed => cases answered
  | @blank visited p q id page fresh read unformatted =>
    have block := ((Pool.fetch_spec read).2 page rfl).2
    exact ⟨[id], gathers_blank fresh (block ▸ unformatted)⟩
  | @last visited p q id page fresh read formatted unlinked =>
    have block := ((Pool.fetch_spec read).2 page rfl).2
    rw [block] at unlinked ⊢
    exact ⟨[id], gathers_last fresh unlinked⟩
  | @onward visited p q r id next page rest fresh read formatted linked walk ih =>
    obtain ⟨loaded, found⟩ := Pool.fetch_spec read
    have block := (found page rfl).2
    rw [block] at formatted linked ⊢
    obtain ⟨more, steps⟩ := Harvest.fetched_of_behind answered
    obtain ⟨order, gathered⟩ := ih steps
    rw [loaded.view_eq] at gathered
    exact ⟨id :: order, gathered.behind fresh ⟨formatted, linked⟩⟩

theorem collectAll_reads (visited : PageSet) (starts : List Nat) :
    PoolM.Reads (collectAll visited starts) := by
  induction starts generalizing visited with
  | nil => exact .pure _
  | cons id ids ih =>
    refine .bind (.lift fun _ _ _ walked => (collect_walk walked).loads) fun first => ?_
    refine .bind (.except first.fetched) fun fetched => ?_
    exact .bind (ih first.visited) fun others => .pure _

theorem Closed.mem_of_reaches {visited : PageSet} {id page : Nat} (closed : Closed view visited)
    (there : id ∈ visited) (reached : Reaches view id page) : page ∈ visited := by
  induction reached with
  | refl => exact there
  | tail _ linked ih => exact closed _ ih _ linked

end Gazetteer.Chain
