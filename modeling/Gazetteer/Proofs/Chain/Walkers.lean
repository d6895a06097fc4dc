import Gazetteer.Proofs.Chain.Agreement
import Gazetteer.Proofs.Chain.Reached

/-! The two walks along a chain side by side: the one for the ids of its pages and the one for its
records. The first looks at a page before it asks whether it was there, and the second asks first;
the second counts a page that was never formatted, and the first does not. From the same pool they
come to the same pages all the same, in the same order, and leave the same pool behind. -/
namespace Gazetteer.Chain

variable {view : Nat → Block} {p q : Pool} {seen : PageSet} {id next : Nat} {ids : List Nat}
  {harvest : Harvest}

/-- The walk for the ids as a loop: it remembers where it was in the list that it answers with, and
gives up behind a number of turns. -/
def pageIdsWithin : Nat → List Nat → Nat → PoolM (Option (List Nat))
  | 0, _, _ => return none
  | turns + 1, chain, id => do
    let page ← Pool.fetch id
    if page.block.isFormatted = false ∨ id ∈ chain then return some chain
    else
      match page.block.link? with
      | none => return some (chain ++ [id])
      | some next => pageIdsWithin turns (chain ++ [id]) next

/-- The list and the set of the pages that were there are looked at for members only. -/
theorem pageIdsWithin_eq {turns : Nat} {chain : List Nat} (same : ∀ page, page ∈ chain ↔ page ∈ seen)
    (enough : seen.stepsLeft id < turns) :
    pageIdsWithin turns chain id = (fun ids => some (chain ++ ids)) <$> pageIdsFrom seen id := by
  induction turns generalizing chain seen id with
  | zero => omega
  | succ turns ih =>
    rw [pageIdsWithin, pageIdsFrom_eq, map_bind]
    congr 1
    funext page
    cases formatted : page.block.isFormatted with
    | false => simp
    | true =>
      by_cases there : id ∈ seen
      · simp [same, there]
      · cases linked : page.block.link? with
        | none => simp [same, there]
        | some next =>
          have fewer := PageSet.stepsLeft_insert_lt there (Block.link?_lt linked)
          have members : ∀ page, page ∈ chain ++ [id] ↔ page ∈ seen.insert id := by
            intro page
            rw [List.mem_append, List.mem_singleton, mem_insert, same, or_comm, eq_comm]
          simp [same, there, ih members (Nat.lt_of_lt_of_le fewer (Nat.le_of_lt_succ enough))]

theorem pageIdsWithin_ends {turns : Nat} (enough : linkLimit + 2 ≤ turns) (start : Nat) :
    pageIdsWithin turns [] start = some <$> pageIds start :=
  pageIdsWithin_eq (by simp) (stepsLeft_lt enough ∅ start)

/-- The page that a walk from `start` turns to behind the pages `ids`. -/
def turnsTo (view : Nat → Block) (start : Nat) (ids : List Nat) : Option Nat :=
  match ids.getLast? with
  | none => some start
  | some last => (view last).link?

theorem turnsTo_cons (linked : (view id).link? = some next) :
    turnsTo view id (id :: ids) = turnsTo view next ids := by
  cases ids with
  | nil => exact linked
  | cons first ids => simp only [turnsTo, List.getLast?_cons, Option.getD_some]

/-- The page that was never formatted, if a walk ends at one. -/
def blankEnd (view : Nat → Block) (start : Nat) (ids : List Nat) : Option Nat :=
  (turnsTo view start ids).filter fun page => !(view page).isFormatted

/-- The pages that a walk comes to from a page on. Each is linked to the next, and the last to none,
to one where the walk was before, or to one that was never formatted. -/
structure Trail (view : Nat → Block) (seen : PageSet) (id : Nat) (ids : List Nat) : Prop where
  formatted : ∀ page ∈ ids, (view page).isFormatted = true
  first : ∀ page ∈ ids.head?, page = id
  links : ids.IsChain (Linked view)
  ended : ∀ page, turnsTo view id ids = some page → (view page).isFormatted = true →
    page ∈ seen ∨ page ∈ ids

theorem trail_nil (stop : (view id).isFormatted = true → id ∈ seen) : Trail view seen id [] where
  formatted := by simp
  first := by simp
  links := .nil
  ended := by
    intro page turned formatted
    cases turned
    exact .inl (stop formatted)

theorem trail_last (formatted : (view id).isFormatted = true) (unlinked : (view id).link? = none) :
    Trail view seen id [id] where
  formatted := by simpa using formatted
  first := by simp
  links := .singleton id
  ended := by
    intro page turned
    have nowhere : turnsTo view id [id] = none := unlinked
    rw [nowhere] at turned
    cases turned

theorem Trail.behind (h : Trail view (seen.insert id) next ids) (linked : Linked view id next) :
    Trail view seen id (id :: ids) where
  formatted := by
    intro page member
    rcases List.mem_cons.mp member with rfl | later
    · exact linked.1
    · exact h.formatted page later
  first := by simp
  links := by
    apply List.isChain_cons.mpr
    constructor
    · intro page second
      cases h.first page second
      exact linked
    · exact h.links
  ended := by
    intro page turned formatted
    rw [turnsTo_cons linked.2] at turned
    rcases h.ended page turned formatted with before | later
    · rcases mem_insert.mp before with rfl | early
      · exact .inr List.mem_cons_self
      · exact .inl early
    · exact .inr (List.mem_cons_of_mem id later)

theorem blankEnd_nil (blank : (view id).isFormatted = false) : blankEnd view id [] = some id := by
  simp [blankEnd, turnsTo, blank]

theorem blankEnd_cons (linked : (view id).link? = some next) :
    blankEnd view id (id :: ids) = blankEnd view next ids := by
  rw [blankEnd, blankEnd, turnsTo_cons linked]

/-- Formatted pages that are kept, so that looking at one of them once more changes nothing. -/
def Remembered (p : Pool) (seen : PageSet) : Prop :=
  ∀ id ∈ seen, ∃ page, p.cached[id]? = some page ∧ page.block.isFormatted = true

theorem Remembered.insert {page : Page} (h : Remembered p seen)
    (fetched : Pool.fetch id p = (.ok page, q)) (formatted : page.block.isFormatted = true) :
    Remembered q (seen.insert id) := by
  obtain ⟨loads, found⟩ := Pool.fetch_spec fetched
  intro other member
  rcases mem_insert.mp member with rfl | before
  · exact ⟨page, (found page rfl).1, formatted⟩
  · obtain ⟨old, there, whole⟩ := h other before
    exact ⟨old, loads.kept other old rfl there, whole⟩

theorem Walk.trail (h : Walk seen p id harvest q) (readable : p.Readable)
    (remembered : Remembered p seen) :
    ∃ ids, pageIdsFrom seen id p = (.ok ids, q) ∧ Trail p.view seen id ids ∧
      Gathers p.view seen id harvest (ids ++ (blankEnd p.view id ids).toList) := by
  induction h with
  | @known seen p id there =>
    obtain ⟨found, cached, formatted⟩ := remembered id there
    have shown : (p.view id).isFormatted = true := by rwa [Pool.view, cached]
    refine ⟨[], ?_, trail_nil fun _ => there, ?_⟩
    · rw [pageIdsFrom_eq, PoolM.bind_of_ok (Pool.fetch_of_cached cached), if_pos formatted,
        if_pos there]
      rfl
    · have none : blankEnd p.view id [] = none := by simp [blankEnd, turnsTo, shown]
      rw [none]
      exact gathers_nothing there
  | unread fresh failed => exact (Pool.fetch_readable readable failed).elim
  | @blank seen p q id page fresh fetched unformatted =>
    have block := ((Pool.fetch_spec fetched).2 page rfl).2
    refine ⟨[], ?_, ?_, ?_⟩
    · rw [pageIdsFrom_eq, PoolM.bind_of_ok fetched, unformatted]
      rfl
    · apply trail_nil
      intro formatted
      rw [← block, unformatted] at formatted
      cases formatted
    · rw [block] at unformatted
      rw [blankEnd_nil unformatted]
      exact gathers_blank fresh unformatted
  | @last seen p q id page fresh fetched formatted unlinked =>
    have block := ((Pool.fetch_spec fetched).2 page rfl).2
    refine ⟨[id], ?_, ?_, ?_⟩
    · rw [pageIdsFrom_eq, PoolM.bind_of_ok fetched, if_pos formatted, if_neg fresh, unlinked]
      rfl
    · rw [block] at formatted unlinked
      exact trail_last formatted unlinked
    · rw [block] at unlinked ⊢
      have none : blankEnd p.view id [id] = none := by simp [blankEnd, turnsTo, unlinked]
      rw [none]
      exact gathers_last fresh unlinked
  | @onward seen p q r id next page rest fresh fetched formatted linked walk ih =>
    obtain ⟨loads, found⟩ := Pool.fetch_spec fetched
    have block := (found page rfl).2
    obtain ⟨ids, walked, trail, gathered⟩ :=
      ih (loads.readable readable) (remembered.insert fetched formatted)
    have leads : Linked p.view id next := by
      rw [block] at formatted linked
      exact ⟨formatted, linked⟩
    rw [loads.view_eq] at trail gathered
    refine ⟨id :: ids, ?_, trail.behind leads, ?_⟩
    · rw [pageIdsFrom_eq, PoolM.bind_of_ok fetched, if_pos formatted, if_neg fresh, linked]
      exact (PoolM.bind_of_ok walked).trans rfl
    · rw [blankEnd_cons leads.2, block]
      exact gathered.behind fresh leads

theorem mem_blankEnd_iff {page : Nat} :
    page ∈ (blankEnd view id ids).toList ↔
      turnsTo view id ids = some page ∧ (view page).isFormatted = false := by
  simp [blankEnd, Option.filter_eq_some_iff]

/-- What the two walks from a page say about its chain. -/
structure Walked (view : Nat → Block) (start : Nat) (ids : List Nat) (harvest : Harvest) : Prop
    extends Trail view ∅ start ids where
  nodup : ids.Nodup
  visited : ∀ page, page ∈ harvest.visited ↔
    page ∈ ids ∨ turnsTo view start ids = some page ∧ (view page).isFormatted = false
  records : harvest.records = ids.flatMap fun page => (view page).records
  fetched : harvest.fetched = .ok harvest.visited.size

theorem Trail.walked (h : Trail view ∅ id ids)
    (gathered : Gathers view ∅ id harvest (ids ++ (blankEnd view id ids).toList)) :
    Walked view id ids harvest where
  toTrail := h
  nodup := (List.nodup_append.mp gathered.nodup).1
  visited := by
    intro page
    rw [gathered.mem, List.mem_append, mem_blankEnd_iff]
    simp
  records := by
    have nothing : ((blankEnd view id ids).toList.flatMap fun page => (view page).records) = [] := by
      apply List.flatMap_eq_nil_iff.mpr
      intro page last
      exact Block.records_of_blank (mem_blankEnd_iff.mp last).2
    rw [gathered.records, List.flatMap_append, nothing, List.append_nil]
  fetched := by
    rw [gathered.fetched, ← Std.ExtTreeSet.length_toList]
    apply congrArg
    apply List.Perm.length_eq
    apply perm_toList gathered.nodup
    intro page
    rw [gathered.mem]
    simp

/-- From every pool without a failing read, both walks end and leave the same pool, and what the
second brings back are the records of the pages that the first comes to. -/
theorem walks_agree (readable : p.Readable) (start : Nat) :
    (∀ turns, linkLimit + 2 ≤ turns →
      pageIdsWithin turns [] start = some <$> pageIds start ∧
        collectWithin turns ∅ start = some <$> collect ∅ start) ∧
    ∃ ids harvest q, pageIds start p = (.ok ids, q) ∧ collect ∅ start p = (harvest, q) ∧
      Walked p.view start ids harvest := by
  constructor
  · intro turns enough
    exact ⟨pageIdsWithin_ends enough start, collectWithin_ends enough ∅ start⟩
  · cases collected : collect ∅ start p with
    | mk harvest q =>
      obtain ⟨ids, came, trail, gathered⟩ :=
        (collect_walk collected).trail readable fun page none => by simp at none
      exact ⟨ids, harvest, q, came, rfl, trail.walked gathered⟩

/-- A page that is linked to itself. -/
theorem walks_agree_loop : ∃ (p q : Pool) (harvest : Harvest), Linked p.view 3 3 ∧
    pageIds 3 p = (.ok [3], q) ∧ collect ∅ 3 p = (harvest, q) ∧
    harvest.fetched = .ok harvest.visited.size ∧ ∀ id, id ∈ harvest.visited ↔ id = 3 := by
  let p : Pool := (Pool.over .inMemory {}).keep 3 ⟨3, true, Block.zero.format.linkTo 3⟩
  have shown : p.view 3 = Block.zero.format.linkTo 3 := by rw [Pool.view_keep, if_pos rfl]
  have linked : Linked p.view 3 3 := by
    rw [Linked, shown, Block.isFormatted_linkTo, Block.isFormatted_format]
    exact ⟨rfl, Block.link?_linkTo (by decide)⟩
  obtain ⟨-, ids, harvest, q, came, collected, walked⟩ := walks_agree (p := p) ⟨rfl, rfl⟩ 3
  have pages : ids = [3] := by
    match ids, walked with
    | [], walked =>
      have there := walked.ended 3 rfl linked.1
      simp at there
    | [first], walked => rw [walked.first first rfl]
    | first :: second :: more, walked =>
      -- the only page behind the first is the first
      cases walked.first first rfl
      have leads := (List.isChain_cons_cons.mp walked.links).1
      cases leads.unique linked
      have nodup := walked.nodup
      simp at nodup
  subst pages
  refine ⟨p, q, harvest, linked, came, collected, walked.fetched, ?_⟩
  intro id
  rw [walked.visited, List.mem_singleton]
  apply or_iff_left
  rintro ⟨turned, unformatted⟩
  cases Option.some.inj (linked.2.symm.trans turned)
  exact not_linked_of_blank unformatted _ linked

end Gazetteer.Chain
