import Gazetteer.Proofs.Chain.Append

/-! The search for room as a loop that does not remember where it was. On a chain that comes to an
end it is over after as many steps as the chain has pages, and the memory that the search carries
along changes nothing. -/
namespace Gazetteer.Chain

variable {p q : Pool} {maxPages length : Nat}

/-- The chain of a page never leads back to a page of its own. -/
def Ends (view : Nat → Block) (home : Nat) : Prop :=
  ∀ id, Reaches view home id → ¬ Relation.TransGen (Linked view) id id

theorem Ends.tail {view : Nat → Block} {id next : Nat} (h : Ends view id)
    (linked : Linked view id next) : Ends view next :=
  fun other reached => h other (.head linked reached)

theorem passed_insert {view : Nat → Block} {seen : PageSet} {id next : Nat}
    (passed : ∀ old ∈ seen, Relation.TransGen (Linked view) old id) (linked : Linked view id next) :
    ∀ old ∈ seen.insert id, Relation.TransGen (Linked view) old next := by
  intro old member
  rcases Std.ExtTreeSet.mem_insert.mp member with here | known
  · cases Nat.compare_eq_eq.mp here
    exact .single linked
  · exact (passed old known).tail linked

/-- The loop, with the pages that it comes to, its answer, and the pool that it leaves. A page that
is taken from the free ones is the last. -/
inductive Loop (maxPages length : Nat) :
    Pool → Nat → List Nat → Except Fault Nat → Pool → Prop where
  | unread {p q : Pool} {id : Nat} {fault : Fault} (failed : Pool.fetch id p = (.error fault, q)) :
      Loop maxPages length p id [id] (.error fault) q
  | accepted {p q : Pool} {id : Nat} {page : Page} (fetched : Pool.fetch id p = (.ok page, q))
      (accepts : page.block.accepts length = true) : Loop maxPages length p id [id] (.ok id) q
  | onward {p q r : Pool} {id next : Nat} {page : Page} {trail : List Nat}
      {answer : Except Fault Nat} (fetched : Pool.fetch id p = (.ok page, q))
      (refused : page.block.accepts length = false) (linked : page.block.link? = some next)
      (rest : Loop maxPages length q next trail answer r) :
      Loop maxPages length p id (id :: trail) answer r
  | stuck {p q r : Pool} {id : Nat} {page : Page} {fault : Fault}
      (fetched : Pool.fetch id p = (.ok page, q)) (refused : page.block.accepts length = false)
      (unlinked : page.block.link? = none)
      (failed : (do let next ← firstFree maxPages; link id next; return next : PoolM Nat) q =
        (.error fault, r)) :
      Loop maxPages length p id [id] (.error fault) r
  | grown {p q r : Pool} {id next : Nat} {page : Page}
      (fetched : Pool.fetch id p = (.ok page, q)) (refused : page.block.accepts length = false)
      (unlinked : page.block.link? = none)
      (taken : (do let next ← firstFree maxPages; link id next; return next : PoolM Nat) q =
        (.ok next, r)) :
      Loop maxPages length p id [id, next] (.ok next) r

theorem linked_of_fetch {id next : Nat} {page : Page} (fetched : Pool.fetch id p = (.ok page, q))
    (refused : page.block.accepts length = false) (linked : page.block.link? = some next) :
    Linked p.view id next := by
  have block := ((Pool.fetch_spec fetched).2 page rfl).2
  rw [block] at refused linked
  exact ⟨(accepts_eq_false_iff.mp refused).1, linked⟩

/-- The pages that a search came through lead to the page it is at, so it meets none of them again
where the chain comes to an end. -/
theorem Search.loop {id : Nat} {seen : PageSet} {answer : Except Fault Nat}
    (h : Search maxPages length seen p id answer q) (ends : Ends p.view id)
    (passed : ∀ old ∈ seen, Relation.TransGen (Linked p.view) old id) :
    ∃ trail, Loop maxPages length p id trail answer q := by
  induction h with
  | @cyclic seen p id known => exact (ends id .refl (passed id known)).elim
  | unread fresh failed => exact ⟨_, .unread failed⟩
  | accepted fresh fetched accepts => exact ⟨_, .accepted fetched accepts⟩
  | @onward seen p q r id next page answer fresh fetched refused linked rest ih =>
    have step := linked_of_fetch fetched refused linked
    have same := (Pool.fetch_loads fetched).view_eq
    rw [same] at ih
    obtain ⟨trail, loop⟩ := ih (ends.tail step) (passed_insert passed step)
    exact ⟨_, .onward fetched refused linked loop⟩
  | @last seen p q r id page answer fresh fetched refused unlinked grown =>
    cases answer with
    | error fault => exact ⟨_, .stuck fetched refused unlinked grown⟩
    | ok next => exact ⟨_, .grown fetched refused unlinked grown⟩

theorem roomFrom_loop {home : Nat} {answer : Except Fault Nat}
    (h : roomFrom maxPages length ∅ home p = (answer, q)) (ends : Ends p.view home) :
    ∃ trail, Loop maxPages length p home trail answer q := by
  refine (roomFrom_search h).loop ends ?_
  intro old member
  simp at member

theorem blank_of_taken {last next : Nat}
    (h : (do let next ← firstFree maxPages; link last next; return next : PoolM Nat) p =
      (.ok next, q)) : (p.view next).isFormatted = false := by
  obtain ⟨free, r, found, rest⟩ := PoolM.bind_ok h
  obtain ⟨u, s, linked, answered⟩ := PoolM.bind_ok rest
  obtain ⟨rfl, rfl⟩ := PoolM.pure_ok answered
  exact (firstFreeFrom_ok found).2.2.2.2.1

theorem Loop.mem_trail {id : Nat} {trail : List Nat} {answer : Except Fault Nat}
    (h : Loop maxPages length p id trail answer q) {page : Nat} (member : page ∈ trail) :
    page = id ∨ Relation.TransGen (Linked p.view) id page ∨
      (p.view page).isFormatted = false := by
  induction h with
  | unread failed => exact Or.inl (List.mem_singleton.mp member)
  | accepted fetched accepts => exact Or.inl (List.mem_singleton.mp member)
  | onward fetched refused linked rest ih =>
    have step := linked_of_fetch fetched refused linked
    rw [(Pool.fetch_loads fetched).view_eq] at ih
    rcases List.mem_cons.mp member with here | later
    · exact Or.inl here
    · rcases ih later with rfl | behind | free
      · exact Or.inr (Or.inl (.single step))
      · exact Or.inr (Or.inl (.head step behind))
      · exact Or.inr (Or.inr free)
  | stuck fetched refused unlinked failed => exact Or.inl (List.mem_singleton.mp member)
  | grown fetched refused unlinked taken =>
    rcases List.mem_cons.mp member with here | later
    · exact Or.inl here
    · cases List.mem_singleton.mp later
      have free := blank_of_taken taken
      rw [(Pool.fetch_loads fetched).view_eq] at free
      exact Or.inr (Or.inr free)

theorem Loop.nodup {id : Nat} {trail : List Nat} {answer : Except Fault Nat}
    (h : Loop maxPages length p id trail answer q) (ends : Ends p.view id) : trail.Nodup := by
  induction h with
  | unread failed => exact List.pairwise_singleton _ _
  | accepted fetched accepts => exact List.pairwise_singleton _ _
  | onward fetched refused linked rest ih =>
    have step := linked_of_fetch fetched refused linked
    have same := (Pool.fetch_loads fetched).view_eq
    rw [same] at ih
    refine List.nodup_cons.mpr ⟨?_, ih (ends.tail step)⟩
    intro again
    rcases rest.mem_trail again with rfl | behind | free
    · exact ends _ .refl (.single step)
    · rw [same] at behind
      exact ends _ .refl (.head step behind)
    · rw [same, step.1] at free
      cases free
  | stuck fetched refused unlinked failed => exact List.pairwise_singleton _ _
  | grown fetched refused unlinked taken =>
    obtain ⟨loaded, found⟩ := Pool.fetch_spec fetched
    have free := blank_of_taken taken
    rw [loaded.view_eq] at free
    rw [(found _ rfl).2] at refused
    refine List.nodup_cons.mpr ⟨?_, List.pairwise_singleton _ _⟩
    intro same
    cases List.mem_singleton.mp same
    rw [(accepts_eq_false_iff.mp refused).1] at free
    cases free

end Gazetteer.Chain
