import Gazetteer.Proofs.Chain.Collect
import Mathlib.Data.Set.Card

/-! Chains collected one after the other, none of their pages twice. What is brought back in the end
is settled by the pages that the chains lead to: it does not matter which chain came first, where
chains run together, or whether one of them leads back. -/
namespace Gazetteer.Chain

variable {view : Nat → Block} {p q : Pool} {starts done order : List Nat}

/-- A collection that gives up behind a number of turns. -/
def collectWithin : Nat → PageSet → Nat → StateM Pool (Option Harvest)
  | 0, _, _ => return none
  | turns + 1, visited, id => do
    if id ∈ visited then return some { visited, fetched := .ok 0 }
    else
      match ← (Pool.fetch id).run with
      | .error fault => return some { visited := visited.insert id, fetched := .error fault }
      | .ok page =>
        if page.block.isFormatted then
          match page.block.link? with
          | none =>
            return some
              { visited := visited.insert id, records := page.block.records, fetched := .ok 1 }
          | some next =>
            let rest ← collectWithin turns (visited.insert id) next
            return rest.map (Harvest.behind page.block.records)
        else return some { visited := visited.insert id, fetched := .ok 1 }

/-- Every turn but the last takes one from the pages that a link can still lead to. -/
theorem collectWithin_eq {turns : Nat} {visited : PageSet} {id : Nat}
    (enough : visited.stepsLeft id < turns) :
    collectWithin turns visited id = some <$> collect visited id := by
  induction turns generalizing visited id with
  | zero => omega
  | succ turns ih =>
    rw [collectWithin, collect_eq]
    by_cases there : id ∈ visited
    · simp only [if_pos there, map_pure]
    · simp only [if_neg there, map_bind]
      congr 1
      funext answer
      cases answer with
      | error fault => rfl
      | ok page =>
        cases formatted : page.block.isFormatted with
        | false => simp [formatted]
        | true =>
          cases linked : page.block.link? with
          | none => simp [formatted, linked]
          | some next =>
            have fewer := PageSet.stepsLeft_insert_lt there (Block.link?_lt linked)
            simp [formatted, linked, ih (Nat.lt_of_lt_of_le fewer (Nat.le_of_lt_succ enough))]

theorem unseenBelow_le (seen : PageSet) (limit : Nat) : seen.unseenBelow limit ≤ limit := by
  induction limit with
  | zero => exact Nat.le_refl 0
  | succ limit ih =>
    unfold PageSet.unseenBelow
    split <;> omega

theorem stepsLeft_lt {turns : Nat} (enough : linkLimit + 2 ≤ turns) (seen : PageSet) (id : Nat) :
    seen.stepsLeft id < turns := by
  have most := unseenBelow_le seen linkLimit
  unfold PageSet.stepsLeft
  split <;> omega

theorem collectWithin_ends {turns : Nat} (enough : linkLimit + 2 ≤ turns) (visited : PageSet)
    (id : Nat) : collectWithin turns visited id = some <$> collect visited id :=
  collectWithin_eq (stepsLeft_lt enough visited id)

structure Collected where
  visited : PageSet := ∅
  records : List (List UInt8) := []
  fetched : Nat := 0

def Collected.more (c : Collected) (start : Nat) : PoolM Collected := do
  let harvest ← (collect c.visited start : StateM Pool Harvest)
  let fetched ← harvest.fetched
  return {
    visited := harvest.visited
    records := c.records ++ harvest.records
    fetched := c.fetched + fetched }

def collectEach (starts : List Nat) : PoolM Collected := starts.foldlM Collected.more {}

theorem foldlM_more (c : Collected) (starts : List Nat) :
    (fun d => (d.fetched, d.records)) <$> starts.foldlM Collected.more c =
      (fun rest => (c.fetched + rest.1, c.records ++ rest.2)) <$> collectAll c.visited starts := by
  induction starts generalizing c with
  | nil => simp [collectAll]
  | cons start starts ih => simp [collectAll, Collected.more, ih, Nat.add_assoc]

theorem collectAll_eq (starts : List Nat) :
    collectAll ∅ starts = (fun c => (c.fetched, c.records)) <$> collectEach starts := by
  rw [collectEach, foldlM_more {} starts]
  simp

theorem collectEach_answers (readable : p.Readable) (starts : List Nat) :
    ∃ c q, collectEach starts p = (.ok c, q) := by
  suffices run : ∀ c, ∃ d q, starts.foldlM Collected.more c p = (.ok d, q) from run {}
  intro c
  induction starts generalizing c p with
  | nil => exact ⟨c, p, rfl⟩
  | cons start starts ih =>
    cases walked : collect c.visited start p with
    | mk harvest r =>
      have walk := collect_walk walked
      obtain ⟨fetched, counted⟩ := walk.answers readable
      obtain ⟨d, q, rest⟩ := ih (walk.loads.readable readable) _
      refine ⟨d, q, ?_⟩
      rw [List.foldlM_cons, Collected.more, bind_assoc, PoolM.bind_of_ok (PoolM.lift_of walked),
        counted]
      exact rest

/-- The chains of `done` were collected, and `order` lists the pages as they were come to. -/
structure Covers (view : Nat → Block) (done : List Nat) (c : Collected) (order : List Nat) :
    Prop where
  visited : ∀ page, page ∈ c.visited ↔ page ∈ order
  nodup : order.Nodup
  reached : ∀ page, page ∈ order ↔ ∃ start ∈ done, Reaches view start page
  records : c.records = order.flatMap fun page => (view page).records
  fetched : c.fetched = order.length

theorem covers_nothing : Covers view [] {} [] := by
  constructor <;> simp

/-- No link leads away from the pages that were come to, so that a page which was visited needs no
second walk. -/
theorem Covers.closed {c : Collected} (h : Covers view done c order) : Closed view c.visited := by
  intro id member next linked
  obtain ⟨start, listed, reached⟩ := (h.reached id).mp ((h.visited id).mp member)
  exact (h.visited next).mpr ((h.reached next).mpr ⟨start, listed, reached.tail linked⟩)

theorem Covers.behind {c : Collected} {start : Nat} {harvest : Harvest} {here : List Nat}
    (h : Covers view done c order) (gathered : Gathers view c.visited start harvest here) :
    Covers view (done ++ [start])
      { visited := harvest.visited
        records := c.records ++ harvest.records
        fetched := c.fetched + here.length } (order ++ here) where
  visited := by
    intro page
    rw [gathered.mem, h.visited, List.mem_append]
  nodup := by
    refine List.nodup_append.mpr ⟨h.nodup, gathered.nodup, ?_⟩
    rintro page early other late rfl
    exact gathered.fresh page late ((h.visited page).mpr early)
  reached := by
    intro page
    have closed : Closed view harvest.visited := gathered.closed fun id member next linked =>
      Or.inl (h.closed id member next linked)
    rw [List.mem_append]
    constructor
    · rintro (early | late)
      · obtain ⟨first, listed, reached⟩ := (h.reached page).mp early
        exact ⟨first, List.mem_append_left _ listed, reached⟩
      · exact ⟨start, by simp, gathered.reached page late⟩
    · -- what the last start leads to was come to now, or by an earlier one
      rintro ⟨first, listed, reached⟩
      rcases List.mem_append.mp listed with early | last
      · exact Or.inl ((h.reached page).mpr ⟨first, early, reached⟩)
      · cases List.mem_singleton.mp last
        have there := closed.mem_of_reaches gathered.turned reached
        exact ((gathered.mem page).mp there).imp_left (h.visited page).mp
  records := by rw [h.records, gathered.records, List.flatMap_append]
  fetched := by rw [h.fetched, List.length_append]

theorem Covers.more {c d : Collected} {start : Nat} (h : Covers p.view done c order)
    (one : c.more start p = (.ok d, q)) :
    Pool.Loads p q ∧ ∃ here, Covers p.view (done ++ [start]) d (order ++ here) := by
  obtain ⟨harvest, r, walked, rest⟩ := PoolM.bind_ok one
  obtain ⟨fetched, s, counted, joined⟩ := PoolM.bind_ok rest
  obtain ⟨answered, rfl⟩ := PoolM.except_ok counted
  obtain ⟨rfl, rfl⟩ := PoolM.pure_ok joined
  have walk := collect_walk (PoolM.lift_ok walked)
  obtain ⟨here, gathered⟩ := walk.gathers answered
  have total : fetched = here.length := Except.ok.inj (answered.symm.trans gathered.fetched)
  exact ⟨walk.loads, here, total ▸ h.behind gathered⟩

theorem Covers.run {c d : Collected} (h : Covers p.view done c order)
    (all : starts.foldlM Collected.more c p = (.ok d, q)) :
    ∃ order, Covers p.view (done ++ starts) d order := by
  induction starts generalizing p done c order with
  | nil =>
    obtain ⟨rfl, -⟩ := PoolM.pure_ok all
    exact ⟨order, by rwa [List.append_nil]⟩
  | cons start starts ih =>
    rw [List.foldlM_cons] at all
    obtain ⟨next, r, one, rest⟩ := PoolM.bind_ok all
    obtain ⟨loads, here, covers⟩ := h.more one
    rw [← loads.view_eq] at covers
    obtain ⟨order, covers⟩ := ih covers rest
    rw [loads.view_eq, List.append_assoc, List.singleton_append] at covers
    exact ⟨order, covers⟩

theorem collectEach_covers {c : Collected} (h : collectEach starts p = (.ok c, q)) :
    ∃ order, Covers p.view starts c order :=
  Covers.run covers_nothing h

theorem collectAll_ok {fetched : Nat} {records : List (List UInt8)}
    (h : collectAll ∅ starts p = (.ok (fetched, records), q)) :
    ∃ order : List Nat, order.Nodup ∧
      (∀ page, page ∈ order ↔ ∃ start ∈ starts, Reaches p.view start page) ∧
      records = order.flatMap (fun page => (p.view page).records) ∧ fetched = order.length := by
  rw [collectAll_eq, map_eq_pure_bind] at h
  obtain ⟨c, r, collected, answered⟩ := PoolM.bind_ok h
  obtain ⟨sums, -⟩ := PoolM.pure_ok answered
  cases sums
  obtain ⟨order, covers⟩ := collectEach_covers collected
  exact ⟨order, covers.nodup, covers.reached, covers.records, covers.fetched⟩

theorem collectAll_answers {fault : Fault} (readable : p.Readable)
    (h : collectAll ∅ starts p = (.error fault, q)) : False := by
  obtain ⟨c, r, answered⟩ := collectEach_answers readable starts
  rw [collectAll_eq, map_eq_pure_bind, PoolM.bind_of_ok answered] at h
  exact PoolM.pure_error h

theorem flatMap_formatted (view : Nat → Block) (pages : List Nat) :
    (pages.filter fun id => (view id).isFormatted).flatMap (fun id => (view id).records) =
      pages.flatMap fun id => (view id).records := by
  induction pages with
  | nil => rfl
  | cons id pages ih =>
    cases formatted : (view id).isFormatted with
    | true => simp [formatted, ih]
    | false => simp [formatted, ih, Block.records_of_blank formatted]

theorem perm_toList {visited : PageSet} {pages : List Nat} (nodup : pages.Nodup)
    (mem : ∀ page, page ∈ visited ↔ page ∈ pages) : pages.Perm visited.toList := by
  have once : visited.toList.Nodup :=
    visited.distinct_toList.imp fun apart same => apart (Nat.compare_eq_eq.mpr same)
  apply (List.perm_ext_iff_of_nodup nodup once).mpr
  intro page
  rw [Std.ExtTreeSet.mem_toList, mem]

theorem Covers.perm {c : Collected} (h : Covers view done c order) :
    order.Perm c.visited.toList :=
  perm_toList h.nodup h.visited

theorem Covers.records_perm {c : Collected} (h : Covers view done c order) :
    c.records.Perm ((c.visited.toList.filter fun id => (view id).isFormatted).flatMap
      fun id => (view id).records) := by
  rw [flatMap_formatted, h.records]
  exact h.perm.flatMap_right _

theorem Covers.ncard {c : Collected} (h : Covers view done c order) :
    c.fetched = Set.ncard {id | ∃ start ∈ done, Reaches view start id} := by
  have pages : {id | ∃ start ∈ done, Reaches view start id} = ↑order.toFinset := by
    ext page
    simp [h.reached]
  rw [pages, Set.ncard_coe_finset, List.toFinset_card_of_nodup h.nodup, h.fetched]

/-- Collections that all answer: each of them ends, and together they visit the pages that the
starts lead to, count each of these once, and bring back its records once. All this is the same
for any order of the starts. -/
theorem collectEach_reached {c : Collected} (h : collectEach starts p = (.ok c, q)) :
    (∀ turns, linkLimit + 2 ≤ turns → ∀ visited id,
      collectWithin turns visited id = some <$> collect visited id) ∧
    (∀ id, id ∈ c.visited ↔ ∃ start ∈ starts, Reaches p.view start id) ∧
    c.fetched = Set.ncard {id | ∃ start ∈ starts, Reaches p.view start id} ∧
    c.records.Perm ((c.visited.toList.filter fun id => (p.view id).isFormatted).flatMap
      fun id => (p.view id).records) ∧
    ∀ others, others.Perm starts → ∀ d r, collectEach others p = (.ok d, r) →
      d.visited = c.visited ∧ d.fetched = c.fetched ∧ d.records.Perm c.records := by
  obtain ⟨order, covers⟩ := collectEach_covers h
  refine ⟨fun turns enough => collectWithin_ends enough, ?_, covers.ncard, covers.records_perm, ?_⟩
  · intro id
    rw [covers.visited, covers.reached]
  · intro others perm d r also
    obtain ⟨order', covers'⟩ := collectEach_covers also
    have same : d.visited = c.visited := by
      apply Std.ExtTreeSet.ext_mem
      intro id
      simp only [covers.visited, covers.reached, covers'.visited, covers'.reached, perm.mem_iff]
    have fetched : d.fetched = c.fetched := by
      rw [covers.ncard, covers'.ncard]
      simp only [perm.mem_iff]
    have records := covers'.records_perm
    rw [same] at records
    exact ⟨same, fetched, records.trans covers.records_perm.symm⟩

/-- Two pages that are linked to each other, one of them a start twice. -/
theorem collectEach_circle : ∃ (p q : Pool) (c : Collected), Linked p.view 0 1 ∧
    Linked p.view 1 0 ∧ collectEach [1, 0, 1] p = (.ok c, q) ∧ c.fetched = 2 ∧
    ∀ id, id ∈ c.visited ↔ id = 0 ∨ id = 1 := by
  let page (id next : Nat) : Page := ⟨id, true, Block.zero.format.linkTo next⟩
  let p : Pool := ((Pool.over .inMemory {}).keep 0 (page 0 1)).keep 1 (page 1 0)
  have linked (id next : Nat) (low : next < linkLimit) (shown : p.view id = (page id next).block) :
      Linked p.view id next := by
    constructor
    · rw [shown, Block.isFormatted_linkTo, Block.isFormatted_format]
    · rw [shown]
      exact Block.link?_linkTo low
  have first : Linked p.view 0 1 := by
    apply linked 0 1 (by decide)
    rw [Pool.view_keep, if_neg (by decide), Pool.view_keep, if_pos rfl]
  have second : Linked p.view 1 0 := by
    apply linked 1 0 (by decide)
    rw [Pool.view_keep, if_pos rfl]
  have inside : ∀ id, (∃ start ∈ [1, 0, 1], Reaches p.view start id) ↔ id = 0 ∨ id = 1 := by
    intro id
    constructor
    · rintro ⟨start, listed, reached⟩
      induction reached with
      | refl =>
        have one : start = 1 ∨ start = 0 ∨ start = 1 := by simpa using listed
        omega
      | tail _ leads ih =>
        rcases ih with rfl | rfl
        · exact Or.inr (leads.unique first)
        · exact Or.inl (leads.unique second)
    · rintro (rfl | rfl)
      · exact ⟨0, by simp, .refl⟩
      · exact ⟨1, by simp, .refl⟩
  obtain ⟨c, q, collected⟩ := collectEach_answers (p := p) ⟨rfl, rfl⟩ [1, 0, 1]
  obtain ⟨-, visited, fetched, -⟩ := collectEach_reached collected
  refine ⟨p, q, c, first, second, collected, ?_, ?_⟩
  · rw [fetched]
    simp only [inside]
    exact Set.ncard_pair (by decide)
  · intro id
    rw [visited, inside]

end Gazetteer.Chain
