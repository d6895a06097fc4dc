import Gazetteer.Proofs.Chain.Loop
import Gazetteer.Proofs.Keyed.Map

/-! Appends that fail. Whatever the pages hold, and whichever reads fail, a failed append leaves
every page that was kept as it was, and the pages that it read are clean copies of the medium. Its
cause is one of five, as long as the chain comes to an end: an append to a chain of full pages that
leads back would never be over, and `Fault.cyclicChain` stands for that. -/
namespace Gazetteer

theorem Pool.fetch_error {p q : Pool} {id : Nat} {fault : Fault}
    (h : fetch id p = (.error fault, q)) : p.disk.readFault? id = some fault := by
  cases found : p.cached[id]? with
  | some page =>
    rw [fetch_of_cached found] at h
    cases h
  | none =>
    rw [fetch_of_absent found, load, Disk.read] at h
    cases failed : p.disk.readFault? id with
    | some cause =>
      simp only [failed] at h
      cases h
      rfl
    | none =>
      cases there : p.disk.medium.read? id <;> simp only [failed, there] at h <;> cases h

/-- The pages that were kept are the same, those that were read since are clean copies of the medium
with zeros for a page that was never written, and the medium and what is seen of it are the same. -/
structure Pool.Untouched (p q : Pool) : Prop where
  kept : ∀ (id : Nat) (page : Page), p.cached[id]? = some page → q.cached[id]? = some page
  fresh : ∀ (id : Nat) (page : Page), p.cached[id]? = none → q.cached[id]? = some page →
    page = ⟨id, false, (p.disk.medium.read? id).getD .zero⟩
  medium : q.disk.medium = p.disk.medium
  view_eq : q.view = p.view

theorem Pool.Loads.untouched {p q : Pool} (loaded : Loads p q) : Untouched p q where
  kept id page := loaded.kept id page rfl
  fresh id page := loaded.fresh id page rfl
  medium := loaded.medium
  view_eq := loaded.view_eq

namespace Chain

variable {p q : Pool} {home maxPages : Nat} {value : List UInt8} {fault : Fault}

/-- Why a record of this length is refused by a chain that comes to an end. -/
inductive Refusal (disk : Disk) (length maxPages : Nat) : Fault → Prop where
  | tooLarge (long : Block.maxRecord < length) :
      Refusal disk length maxPages (.recordTooLarge length Block.maxRecord)
  | exhausted : Refusal disk length maxPages (.pageSpaceExhausted maxPages)
  | unlinkable (next : Nat) (high : linkLimit ≤ next) (inside : next < maxPages) :
      Refusal disk length maxPages (.unlinkablePage next)
  | unread (id : Nat) (planned : id ∈ disk.plan.reads) :
      Refusal disk length maxPages (.io (.badRead id))
  | closed (shut : disk.isOpen = false) : Refusal disk length maxPages .closed

theorem Refusal.of_fetch {id length : Nat} (h : Pool.fetch id p = (.error fault, q)) :
    Refusal p.disk length maxPages fault := by
  have failed := Pool.fetch_error h
  unfold Disk.readFault? at failed
  split at failed
  · next planned =>
    cases failed
    exact .unread id planned
  · split at failed
    · cases failed
    · next shut =>
      cases failed
      exact .closed (by simpa using shut)

theorem Refusal.of_loads {length : Nat} (loaded : Pool.Loads p q)
    (h : Refusal q.disk length maxPages fault) : Refusal p.disk length maxPages fault := by
  cases h with
  | tooLarge long => exact .tooLarge long
  | exhausted => exact .exhausted
  | unlinkable next high inside => exact .unlinkable next high inside
  | unread id planned => exact .unread id (loaded.plan ▸ planned)
  | closed shut => exact .closed (loaded.isOpen ▸ shut)

theorem firstFreeFrom_refusal {length id more : Nat}
    (h : firstFreeFrom maxPages id more p = (.error fault, q)) :
    Refusal p.disk length maxPages fault := by
  induction more generalizing id p with
  | zero =>
    obtain ⟨rfl, -⟩ := PoolM.throw_error h
    exact .exhausted
  | succ more ih =>
    rcases PoolM.bind_error h with failed | ⟨page, r, fetched, rest⟩
    · exact .of_fetch failed
    · split at rest
      · exact .of_loads (Pool.fetch_loads fetched) (ih rest)
      · exact (PoolM.pure_error rest).elim

theorem link_refusal {length id next : Nat} (inside : next < maxPages)
    (h : link id next p = (.error fault, q)) : Refusal p.disk length maxPages fault := by
  rcases PoolM.bind_error h with failed | ⟨page, r, fetched, rest⟩
  · exact .of_fetch failed
  · rcases PoolM.bind_error rest with refused | ⟨linked, s, set, kept⟩
    · have set := (PoolM.except_ok refused).1
      simp only [Page.setLink] at set
      split at set
      · cases set
      · next high =>
        cases set
        exact .unlinkable next (Nat.le_of_not_lt high) inside
    · exact (PoolM.modify_error kept).elim

theorem grow_refusal {length last : Nat}
    (h : (do let next ← firstFree maxPages; link last next; return next : PoolM Nat) p =
      (.error fault, q)) : Refusal p.disk length maxPages fault := by
  rcases PoolM.bind_error h with none | ⟨next, r, free, rest⟩
  · exact firstFreeFrom_refusal none
  · obtain ⟨loaded, -, -, inside, -⟩ := firstFreeFrom_ok free
    rcases PoolM.bind_error rest with unlinked | ⟨u, s, linked, answered⟩
    · exact .of_loads loaded (link_refusal (by omega) unlinked)
    · exact (PoolM.pure_error answered).elim

theorem Loop.refusal {length id : Nat} {trail : List Nat} {answer : Except Fault Nat}
    (h : Loop maxPages length p id trail answer q) (failed : answer = .error fault) :
    Refusal p.disk length maxPages fault := by
  induction h with
  | unread unread =>
    cases failed
    exact .of_fetch unread
  | accepted fetched accepts => cases failed
  | onward fetched refused linked rest ih => exact .of_loads (Pool.fetch_loads fetched) (ih failed)
  | stuck fetched refused unlinked stuck =>
    cases failed
    exact .of_loads (Pool.fetch_loads fetched) (grow_refusal stuck)
  | grown fetched refused unlinked taken => cases failed

theorem append_refusal (ends : Ends p.view home)
    (h : append home value maxPages p = (.error fault, q)) :
    Refusal p.disk value.length maxPages fault := by
  unfold append at h
  split at h
  · next long =>
    obtain ⟨rfl, -⟩ := PoolM.throw_error h
    exact .tooLarge long
  · rcases PoolM.bind_error h with none | ⟨id, r, found, rest⟩
    · obtain ⟨trail, loop⟩ := roomFrom_loop none ends
      exact loop.refusal rfl
    · -- the page that was found is kept, so nothing that follows reads the disk
      obtain ⟨held, kept⟩ := (roomFrom_search found).held_of_ok rfl
      obtain ⟨page, s, opened⟩ := formatted_answers kept
      rw [appendTo, PoolM.bind_of_ok opened] at rest
      cases rest

/-- A failed append leaves the pages as they were, and a put that fails with it the index too. -/
theorem untouched_of_append_error :
    (∀ (p q : Pool) (home maxPages : Nat) (value : List UInt8) (fault : Fault),
      Ends p.view home → append home value maxPages p = (.error fault, q) →
        Refusal p.disk value.length maxPages fault ∧ p.Untouched q) ∧
    ∀ (s : Keyed.Session) (plan : FaultPlan) (key value : List UInt8) (fault : Fault) (q : Pool),
      Ends s.pool.view (s.keyed.home key) →
      s.keyed.put key value (s.pool.failing plan) = (.error fault, q) →
        Refusal (s.pool.failing plan).disk value.length s.keyed.maxPages fault ∧
        (s.pool.failing plan).Untouched q ∧
        s.put plan key value = { pool := q, keyed := s.keyed, stored := s.stored } := by
  constructor
  · intro p q home maxPages value fault ends failed
    exact ⟨append_refusal ends failed, (append_error failed).untouched⟩
  · intro s plan key value fault q ends failed
    have same : s.put plan key value = { pool := q, keyed := s.keyed, stored := s.stored } := by
      rw [Keyed.Session.put, failed]
    rcases PoolM.bind_error failed with unwritten | ⟨place, r, appended, indexed⟩
    · exact ⟨append_refusal ends unwritten, (append_error unwritten).untouched, same⟩
    · exact (PoolM.pure_error indexed).elim

/-- A formatted block whose free space begins at its header. -/
def fullBlock : Block := Block.zero.format.setWord 4 16

theorem fullBlock_formatted : fullBlock.isFormatted = true := by
  rw [Block.isFormatted, fullBlock, Block.word_setWord_frame (by decide)]
  exact Block.isFormatted_format _

theorem fullBlock_accepts (length : Nat) : fullBlock.accepts length = false := by
  refine accepts_eq_false_iff.mpr ⟨fullBlock_formatted, ?_⟩
  have free : fullBlock.freeStart = 16 := by
    rw [Block.freeStart, fullBlock, Block.word_setWord (by decide)]
  simp only [Block.hasRoom, free, Block.directoryEnd, Block.headerSize, Block.slotSize,
    decide_eq_false_iff_not]
  omega

theorem fullBlock_link : fullBlock.link? = none := by
  rw [Block.link?, fullBlock, Block.word_setWord_frame (by decide)]
  exact Block.link?_format _

/-- A changed page without room, in a store of one page. -/
theorem untouched_full_page : ∃ (s : Keyed.Session) (q : Pool),
    s.pool.cached[0]? = some ⟨0, true, fullBlock⟩ ∧
    append 0 [7] 1 (s.pool.failing {}) = (.error (.pageSpaceExhausted 1), q) ∧
    q.cached[0]? = some ⟨0, true, fullBlock⟩ ∧ (s.put {} [1] [7]).keyed = s.keyed := by
  let keyed : Keyed := { settings := ⟨1⟩, accepted := by decide }
  let pool : Pool := (Pool.over .inMemory {}).keep 0 ⟨0, true, fullBlock⟩
  let s : Keyed.Session := { keyed, pool }
  have held : (pool.failing {}).cached[0]? = some ⟨0, true, fullBlock⟩ := by
    simp [pool, Pool.failing, Pool.keep]
  have fetched := Pool.fetch_of_cached held
  have none : firstFree 1 (pool.failing {}) =
      (.error (.pageSpaceExhausted 1), pool.failing {}) := by
    rw [firstFree, firstFreeFrom, PoolM.bind_of_ok fetched, if_pos fullBlock_formatted]
    rfl
  have failed : append 0 [7] 1 (pool.failing {}) =
      (.error (.pageSpaceExhausted 1), pool.failing {}) := by
    have fits : ¬ Block.maxRecord < ([7] : List UInt8).length := by decide
    rw [append, if_neg fits]
    have room : roomFrom 1 1 ∅ 0 (pool.failing {}) =
        (.error (.pageSpaceExhausted 1), pool.failing {}) := by
      rw [roomFrom_eq, if_neg (by simp), PoolM.bind_of_ok fetched,
        if_neg (by simp [fullBlock_accepts]), fullBlock_link]
      exact PoolM.bind_of_error none
    exact PoolM.bind_of_error room
  have home : s.keyed.home [1] = 0 := Nat.mod_one _
  have empty : Disk.inMemory.medium.IsEmpty := rfl
  have unlinked : ∀ id next, ¬ Linked pool.view id next := by
    rintro id next ⟨formatted, link⟩
    rw [Pool.view_keep] at formatted link
    split at link
    · rw [fullBlock_link] at link
      cases link
    · next apart =>
      rw [if_neg apart, Pool.view_over empty, Block.isFormatted_zero] at formatted
      cases formatted
  have ends : Ends pool.view 0 := by
    intro id _ cycle
    obtain ⟨next, linked, -⟩ := Relation.TransGen.head'_iff.mp cycle
    exact unlinked id next linked
  have put : s.keyed.put [1] [7] (s.pool.failing {}) =
      (.error (.pageSpaceExhausted 1), pool.failing {}) := by
    rw [Keyed.put, home]
    exact PoolM.bind_of_error failed
  obtain ⟨-, same⟩ := untouched_of_append_error.1 _ _ _ _ _ _ ends failed
  obtain ⟨-, -, session⟩ := untouched_of_append_error.2 s {} [1] [7] _ _ (home ▸ ends) put
  exact ⟨s, pool.failing {}, held, failed, same.kept 0 _ held, congrArg _ session⟩

end Chain

end Gazetteer
