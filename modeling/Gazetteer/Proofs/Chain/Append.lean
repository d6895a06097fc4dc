import Gazetteer.Chain
import Gazetteer.Proofs.Page.Contents
import Gazetteer.Proofs.Pool.Updates
import Mathlib.Logic.Relation

/-! What an append does, as seen through the pool: it finds a page by the links and the room of the
pages, perhaps links it behind the last page of the chain, and puts the record there. Every step
that can fail comes before every change, so an append that fails has only read pages. -/
namespace Gazetteer

/-- The block that an append meets: a block that is not formatted is formatted first. -/
def Block.opened (b : Block) : Block := if b.isFormatted then b else b.format

namespace Chain

variable {view : Nat → Block} {p q : Pool}

/-- The link of a formatted page. What stands at its place on any other page is no link. -/
def Linked (view : Nat → Block) (id next : Nat) : Prop :=
  (view id).isFormatted = true ∧ (view id).link? = some next

/-- The chain of a page leads to another one. -/
abbrev Reaches (view : Nat → Block) : Nat → Nat → Prop := Relation.ReflTransGen (Linked view)

theorem not_linked_of_blank {id : Nat} (blank : (view id).isFormatted = false) (next : Nat) :
    ¬ Linked view id next := by
  rintro ⟨formatted, -⟩
  rw [blank] at formatted
  cases formatted

theorem not_linked_of_none {id : Nat} (none : (view id).link? = none) (next : Nat) :
    ¬ Linked view id next := by
  rintro ⟨-, link⟩
  rw [none] at link
  cases link

theorem Linked.unique {id next other : Nat} (h : Linked view id next) (k : Linked view id other) :
    next = other := Option.some.inj (h.2.symm.trans k.2)

theorem eq_or_eq_of_reaches {id last other : Nat} (linked : Linked view id last)
    (ending : ∀ next, ¬ Linked view last next) (leads : Reaches view id other) :
    other = id ∨ other = last := by
  rcases leads.cases_head with here | ⟨next, step, rest⟩
  · exact .inl here.symm
  · cases step.unique linked
    rcases rest.cases_head with there | ⟨further, beyond, -⟩
    · exact .inr there.symm
    · exact (ending further beyond).elim

/-- The chain of a page leads to another one, and no page before that accepts a record of this
length. -/
inductive Passes (view : Nat → Block) (length : Nat) : Nat → Nat → Prop where
  | here (id : Nat) : Passes view length id id
  | full {id next last : Nat} (refused : (view id).accepts length = false)
      (linked : (view id).link? = some next) (rest : Passes view length next last) :
      Passes view length id last

/-- Where a record goes: to the first page of the chain that accepts it, or else to the least page
that was never formatted, which is linked behind the last page. -/
inductive Room (view : Nat → Block) (maxPages length home : Nat) : Nat → Pool.Changes → Prop where
  | found {id : Nat} (passed : Passes view length home id)
      (accepted : (view id).accepts length = true) :
      Room view maxPages length home id Pool.unchanged
  | grown {last next : Nat} (passed : Passes view length home last)
      (refused : (view last).accepts length = false) (unlinked : (view last).link? = none)
      (blank : (view next).isFormatted = false)
      (least : ∀ id < next, (view id).isFormatted = true) (inside : next < maxPages)
      (linkable : next < linkLimit) :
      Room view maxPages length home next (Pool.changedAt last ((view last).linkTo next))

theorem accepts_eq_false_iff {b : Block} {length : Nat} :
    b.accepts length = false ↔ b.isFormatted = true ∧ b.hasRoom length = false := by
  simp [Block.accepts]

theorem Passes.reaches {length id last : Nat} (h : Passes view length id last) :
    Reaches view id last := by
  induction h with
  | here id => exact .refl
  | full refused linked rest ih => exact .head ⟨(accepts_eq_false_iff.mp refused).1, linked⟩ ih

theorem Room.growth_eq {maxPages length home place id : Nat} {growth : Pool.Changes} {block : Block}
    (h : Room view maxPages length home place growth) (grown : growth id = some block) :
    block = (view id).linkTo place ∧ (view id).isFormatted = true ∧ (view id).link? = none ∧
      (view place).isFormatted = false ∧ Reaches view home id ∧ place < linkLimit := by
  cases h with
  | found passed accepted => cases grown
  | @grown last _ passed refused unlinked blank least inside linkable =>
    unfold Pool.changedAt at grown
    split at grown
    · next same =>
      subst same
      cases grown
      exact ⟨rfl, (accepts_eq_false_iff.mp refused).1, unlinked, blank, passed.reaches, linkable⟩
    · cases grown

theorem Room.growth_apart {maxPages length home place : Nat} {growth : Pool.Changes}
    (h : Room view maxPages length home place growth) : growth place = none := by
  cases grown : growth place with
  | none => rfl
  | some block =>
    -- the page that is linked was formatted, and the page that takes the record was not
    obtain ⟨-, formatted, -, blank, -⟩ := h.growth_eq grown
    rw [formatted] at blank
    cases blank

theorem firstFreeFrom_reads (maxPages id more : Nat) :
    PoolM.Reads (firstFreeFrom maxPages id more) := by
  induction more generalizing id with
  | zero => exact .throw _
  | succ more ih =>
    refine .bind (.fetch id) fun page => ?_
    split
    · exact ih (id + 1)
    · exact .pure id

theorem firstFreeFrom_ok {maxPages id more next : Nat}
    (h : firstFreeFrom maxPages id more p = (.ok next, q)) :
    Pool.Loads p q ∧ (∃ page, q.cached[next]? = some page) ∧ id ≤ next ∧ next < id + more ∧
      (p.view next).isFormatted = false ∧
      ∀ other, id ≤ other → other < next → (p.view other).isFormatted = true := by
  induction more generalizing id p with
  | zero => exact (PoolM.throw_ok h).elim
  | succ more ih =>
    obtain ⟨page, r, fetched, rest⟩ := PoolM.bind_ok h
    obtain ⟨loaded, answered⟩ := Pool.fetch_spec fetched
    obtain ⟨held, block⟩ := answered page rfl
    split at rest
    · next formatted =>
      obtain ⟨later, found, above, below, blank, least⟩ := ih rest
      rw [loaded.view_eq] at blank least
      refine ⟨loaded.trans_loads later, found, by omega, by omega, blank, ?_⟩
      intro other from_id to_next
      rcases Nat.eq_or_lt_of_le from_id with rfl | behind
      · rw [← block]
        exact formatted
      · exact least other behind to_next
    · next blank =>
      obtain ⟨rfl, rfl⟩ := PoolM.pure_ok rest
      refine ⟨loaded, ⟨page, held⟩, by omega, by omega, ?_, by omega⟩
      rw [← block]
      simpa using blank

theorem link_error {id next : Nat} {fault : Fault} (h : link id next p = (.error fault, q)) :
    Pool.Loads p q := by
  rcases PoolM.bind_error h with fetched | ⟨page, r, fetched, rest⟩
  · exact Pool.fetch_loads fetched
  · have loaded := Pool.fetch_loads fetched
    rcases PoolM.bind_error rest with refused | ⟨linked, s, set, kept⟩
    · unfold Page.setLink at refused
      split at refused
      · cases refused
      · split at refused
        · cases refused
        · cases refused
          exact loaded
    · exact (PoolM.modify_error kept).elim

theorem link_ok {id next : Nat} {u : Unit} (filed : p.Filed) (h : link id next p = (.ok u, q)) :
    next < linkLimit ∧ Pool.Updates p q (Pool.changedAt id ((p.view id).linkTo next)) := by
  obtain ⟨page, r, fetched, rest⟩ := PoolM.bind_ok h
  obtain ⟨loaded, answered⟩ := Pool.fetch_spec fetched
  obtain ⟨held, block⟩ := answered page rfl
  have own : page.id = id := loaded.filed filed id page held
  obtain ⟨linked, s, set, kept⟩ := PoolM.bind_ok rest
  simp only [Page.setLink] at set
  split at set
  · next low =>
    cases set
    rw [PoolM.modify_ok kept, ← block]
    refine ⟨low, Pool.note_updates ?_ _⟩
    rw [own]
    exact Pool.Updates.after_loads loaded (Pool.keep_updates r id _)
  · cases set

theorem grow_ok {maxPages last place : Nat} (filed : p.Filed)
    (h : (do let next ← firstFree maxPages; link last next; return next : PoolM Nat) p =
      (.ok place, q)) :
    Pool.Updates p q (Pool.changedAt last ((p.view last).linkTo place)) ∧
      (∃ page, q.cached[place]? = some page) ∧ (p.view place).isFormatted = false ∧
      (∀ id < place, (p.view id).isFormatted = true) ∧ place < maxPages ∧ place < linkLimit := by
  obtain ⟨next, r, free, rest⟩ := PoolM.bind_ok h
  obtain ⟨u, s, linked, answered⟩ := PoolM.bind_ok rest
  obtain ⟨rfl, rfl⟩ := PoolM.pure_ok answered
  obtain ⟨loaded, ⟨page, held⟩, -, inside, blank, least⟩ := firstFreeFrom_ok free
  obtain ⟨low, updated⟩ := link_ok (loaded.filed filed) linked
  rw [loaded.view_eq] at updated
  refine ⟨Pool.Updates.after_loads loaded updated, ?_, blank,
    fun id below => least id (Nat.zero_le id) below, by omega, low⟩
  by_cases same : last = next
  · exact ⟨_, updated.changed next _ (if_pos same)⟩
  · exact ⟨page, updated.kept next page (if_neg same) held⟩

theorem grow_error {maxPages last : Nat} {fault : Fault}
    (h : (do let next ← firstFree maxPages; link last next; return next : PoolM Nat) p =
      (.error fault, q)) : Pool.Loads p q := by
  rcases PoolM.bind_error h with none | ⟨next, r, free, rest⟩
  · exact firstFreeFrom_reads _ _ _ p _ q none
  · have loaded := (firstFreeFrom_ok free).1
    rcases PoolM.bind_error rest with unlinked | ⟨u, s, linked, answered⟩
    · exact loaded.trans_loads (link_error unlinked)
    · exact (PoolM.pure_error answered).elim

/-- How the search for room ends, `seen` being the pages it came through. It stops at a page that it
came through before or that cannot be fetched, at one that accepts the record, and at the last page
of the chain, behind which the chain grows. -/
inductive Search (maxPages length : Nat) :
    PageSet → Pool → Nat → Except Fault Nat → Pool → Prop where
  | cyclic {seen : PageSet} {p : Pool} {id : Nat} (known : id ∈ seen) :
      Search maxPages length seen p id (.error (.cyclicChain id)) p
  | unread {seen : PageSet} {p q : Pool} {id : Nat} {fault : Fault} (fresh : id ∉ seen)
      (failed : Pool.fetch id p = (.error fault, q)) :
      Search maxPages length seen p id (.error fault) q
  | accepted {seen : PageSet} {p q : Pool} {id : Nat} {page : Page} (fresh : id ∉ seen)
      (fetched : Pool.fetch id p = (.ok page, q)) (accepts : page.block.accepts length = true) :
      Search maxPages length seen p id (.ok id) q
  | onward {seen : PageSet} {p q r : Pool} {id next : Nat} {page : Page}
      {answer : Except Fault Nat} (fresh : id ∉ seen)
      (fetched : Pool.fetch id p = (.ok page, q)) (refused : page.block.accepts length = false)
      (linked : page.block.link? = some next)
      (rest : Search maxPages length (seen.insert id) q next answer r) :
      Search maxPages length seen p id answer r
  | last {seen : PageSet} {p q r : Pool} {id : Nat} {page : Page} {answer : Except Fault Nat}
      (fresh : id ∉ seen) (fetched : Pool.fetch id p = (.ok page, q))
      (refused : page.block.accepts length = false) (unlinked : page.block.link? = none)
      (grown : (do let next ← firstFree maxPages; link id next; return next : PoolM Nat) q =
        (answer, r)) :
      Search maxPages length seen p id answer r

theorem roomFrom_eq (maxPages length : Nat) (seen : PageSet) (id : Nat) :
    roomFrom maxPages length seen id =
      if id ∈ seen then throw (.cyclicChain id)
      else do
        let page ← Pool.fetch id
        if page.block.accepts length then return id
        else
          match page.block.link? with
          | some next => roomFrom maxPages length (seen.insert id) next
          | none => do
            let next ← firstFree maxPages
            link id next
            return next := by
  rw [roomFrom]
  split
  · rfl
  · congr 1
    funext page
    congr 1
    split
    · next linked => simp only [linked]
    · next unlinked => simp only [unlinked]

theorem roomFrom_search {maxPages length id : Nat} {seen : PageSet} {answer : Except Fault Nat}
    (h : roomFrom maxPages length seen id p = (answer, q)) :
    Search maxPages length seen p id answer q := by
  -- every step sees one page more of those that a link can lead to
  induction steps : seen.stepsLeft id using Nat.strongRecOn generalizing seen id p with
  | ind n ih =>
    rw [roomFrom_eq] at h
    split at h
    · next known =>
      cases h
      exact .cyclic known
    · next fresh =>
      have arrived : ∀ (page : Page) (r : Pool), Pool.fetch id p = (.ok page, r) →
          (if page.block.accepts length = true then (pure id : PoolM Nat)
            else match page.block.link? with
              | some next => roomFrom maxPages length (seen.insert id) next
              | none => do let next ← firstFree maxPages; link id next; return next) r =
            (answer, q) → Search maxPages length seen p id answer q := by
        intro page r fetched later
        split at later
        · next accepts =>
          cases later
          exact .accepted fresh fetched accepts
        · next refused =>
          have full : page.block.accepts length = false := by simpa using refused
          cases linked : page.block.link? with
          | some next =>
            have fewer := PageSet.stepsLeft_insert_lt fresh (Block.link?_lt linked)
            rw [linked] at later
            exact .onward fresh fetched full linked (ih _ (steps ▸ fewer) later rfl)
          | none =>
            rw [linked] at later
            exact .last fresh fetched full linked later
      cases answer with
      | error fault =>
        rcases PoolM.bind_error h with failed | ⟨page, r, fetched, later⟩
        · exact .unread fresh failed
        · exact arrived page r fetched later
      | ok place =>
        obtain ⟨page, r, fetched, later⟩ := PoolM.bind_ok h
        exact arrived page r fetched later

theorem Search.loads_of_error {maxPages length id : Nat} {seen : PageSet}
    {answer : Except Fault Nat} {fault : Fault}
    (h : Search maxPages length seen p id answer q) (failed : answer = .error fault) :
    Pool.Loads p q := by
  induction h with
  | cyclic known => exact .refl _
  | unread fresh unread => exact Pool.fetch_loads unread
  | accepted fresh fetched accepts => cases failed
  | onward fresh fetched refused linked rest ih =>
    exact (Pool.fetch_loads fetched).trans_loads (ih failed)
  | last fresh fetched refused unlinked grown =>
    subst failed
    exact (Pool.fetch_loads fetched).trans_loads (grow_error grown)

theorem Search.room_of_ok {maxPages length id place : Nat} {seen : PageSet}
    {answer : Except Fault Nat} (h : Search maxPages length seen p id answer q) (filed : p.Filed)
    (found : answer = .ok place) :
    ∃ changes, Room p.view maxPages length id place changes ∧ Pool.Updates p q changes ∧
      ∃ page, q.cached[place]? = some page := by
  induction h with
  | cyclic known => cases found
  | unread fresh failed => cases found
  | accepted fresh fetched accepts =>
    obtain ⟨loaded, answered⟩ := Pool.fetch_spec fetched
    obtain ⟨held, block⟩ := answered _ rfl
    cases found
    rw [block] at accepts
    exact ⟨_, .found (.here _) accepts, loaded, _, held⟩
  | onward fresh fetched refused linked rest ih =>
    obtain ⟨loaded, answered⟩ := Pool.fetch_spec fetched
    obtain ⟨-, block⟩ := answered _ rfl
    rw [block] at refused linked
    obtain ⟨changes, room, updated, held⟩ := ih (loaded.filed filed) found
    rw [loaded.view_eq] at room
    refine ⟨changes, ?_, Pool.Updates.after_loads loaded updated, held⟩
    cases room with
    | found passed accepted => exact .found (.full refused linked passed) accepted
    | grown passed full unlinked blank least inside linkable =>
      exact .grown (.full refused linked passed) full unlinked blank least inside linkable
  | last fresh fetched refused unlinked grown =>
    obtain ⟨loaded, answered⟩ := Pool.fetch_spec fetched
    obtain ⟨-, block⟩ := answered _ rfl
    rw [block] at refused unlinked
    subst found
    obtain ⟨updated, held, blank, least, inside, linkable⟩ :=
      grow_ok (loaded.filed filed) grown
    rw [loaded.view_eq] at updated blank least
    exact ⟨_, .grown (.here _) refused unlinked blank least inside linkable,
      Pool.Updates.after_loads loaded updated, held⟩

/-- An append to a page that is kept cannot fail. -/
theorem appendTo_spec {id : Nat} {held : Page} (filed : p.Filed)
    (found : p.cached[id]? = some held) (value : List UInt8) :
    ∃ q, appendTo id value p = (.ok ⟨id, (p.view id).opened.count⟩, q) ∧
      Pool.Updates p q (Pool.changedAt id ((p.view id).opened.push value)) := by
  have own := filed id held found
  have shown : p.view id = held.block := by rw [Pool.view, found]
  have fetched := Pool.fetch_of_cached found
  by_cases ready : held.block.isFormatted = true
  · have opened : (p.view id).opened = held.block := by
      rw [shown, Block.opened, if_pos ready]
    have page : formatted id p = (.ok held, p) := by
      rw [formatted, PoolM.bind_of_ok fetched, if_pos ready]
      rfl
    refine ⟨p.keep id (held.push value), ?_, ?_⟩
    · rw [appendTo, PoolM.bind_of_ok page, opened]
      rfl
    · rw [opened, Page.push, own]
      exact Pool.keep_updates p id _
  · have opened : (p.view id).opened = held.block.format := by
      rw [shown, Block.opened, if_neg ready]
    have format : Pool.format id p = (.ok (), (p.keep id held.format).note (.formatted id)) := by
      rw [Pool.format, PoolM.bind_of_ok fetched]
      rfl
    have kept : ((p.keep id held.format).note (.formatted id)).cached[id]? = some held.format := by
      simp [Pool.keep, Pool.note]
    have page : formatted id p = (.ok held.format, (p.keep id held.format).note (.formatted id)) := by
      rw [formatted, PoolM.bind_of_ok fetched, if_neg ready, PoolM.bind_of_ok format,
        Pool.fetch_of_cached kept]
    refine ⟨((p.keep id held.format).note (.formatted id)).keep id (held.format.push value), ?_, ?_⟩
    · rw [appendTo, PoolM.bind_of_ok page, opened]
      rfl
    · have first := Pool.note_updates (Pool.keep_updates p id held.block.format) (.formatted id)
      have second := Pool.keep_updates ((p.keep id held.format).note (.formatted id)) id
        (held.block.format.push value)
      rw [opened, Page.push, Page.format, own]
      rw [Page.format, own] at second
      have both := first.trans second
      have last : (Pool.changedAt id (held.block.format.push value)).after
          (Pool.changedAt id held.block.format) =
          Pool.changedAt id (held.block.format.push value) := by
        funext other
        simp only [Pool.Changes.after, Pool.changedAt]
        split <;> rfl
      rwa [last] at both

theorem link_held {id next other : Nat} {page : Page} {u : Unit}
    (held : p.cached[other]? = some page) (h : link id next p = (.ok u, q)) :
    ∃ page, q.cached[other]? = some page := by
  obtain ⟨found, r, fetched, rest⟩ := PoolM.bind_ok h
  obtain ⟨linked, s, set, kept⟩ := PoolM.bind_ok rest
  obtain ⟨-, rfl⟩ := PoolM.except_ok set
  have still := (Pool.fetch_loads fetched).kept other page rfl held
  obtain rfl := PoolM.modify_ok kept
  simp only [Pool.note, Pool.keep, Std.ExtTreeMap.getElem?_insert]
  split
  · exact ⟨linked, rfl⟩
  · exact ⟨page, still⟩

/-- The page where there is room is kept, so that nothing is left to fail. -/
theorem Search.held_of_ok {maxPages length id place : Nat} {seen : PageSet}
    {answer : Except Fault Nat} (h : Search maxPages length seen p id answer q)
    (found : answer = .ok place) : ∃ page, q.cached[place]? = some page := by
  induction h with
  | cyclic known => cases found
  | unread fresh failed => cases found
  | accepted fresh fetched accepts =>
    cases found
    exact ⟨_, ((Pool.fetch_spec fetched).2 _ rfl).1⟩
  | onward fresh fetched refused linked rest ih => exact ih found
  | last fresh fetched refused unlinked grown =>
    subst found
    obtain ⟨next, r, free, rest⟩ := PoolM.bind_ok grown
    obtain ⟨u, s, linked, answered⟩ := PoolM.bind_ok rest
    obtain ⟨rfl, rfl⟩ := PoolM.pure_ok answered
    obtain ⟨-, ⟨page, held⟩, -⟩ := firstFreeFrom_ok free
    exact link_held held linked

theorem formatted_answers {id : Nat} {held : Page} (found : p.cached[id]? = some held) :
    ∃ page r, formatted id p = (.ok page, r) := by
  have fetched := Pool.fetch_of_cached found
  by_cases ready : held.block.isFormatted = true
  · refine ⟨held, p, ?_⟩
    rw [formatted, PoolM.bind_of_ok fetched, if_pos ready]
    rfl
  · have format : Pool.format id p = (.ok (), (p.keep id held.format).note (.formatted id)) := by
      rw [Pool.format, PoolM.bind_of_ok fetched]
      rfl
    refine ⟨held.format, (p.keep id held.format).note (.formatted id), ?_⟩
    rw [formatted, PoolM.bind_of_ok fetched, if_neg ready, PoolM.bind_of_ok format]
    exact Pool.fetch_of_cached (by simp [Pool.keep, Pool.note])

theorem append_error {home maxPages : Nat} {value : List UInt8} {fault : Fault}
    (h : append home value maxPages p = (.error fault, q)) : Pool.Loads p q := by
  unfold append at h
  split at h
  · obtain ⟨-, rfl⟩ := PoolM.throw_error h
    exact .refl p
  · rcases PoolM.bind_error h with none | ⟨id, r, found, rest⟩
    · exact (roomFrom_search none).loads_of_error rfl
    · obtain ⟨held, kept⟩ := (roomFrom_search found).held_of_ok rfl
      obtain ⟨page, s, opened⟩ := formatted_answers kept
      rw [appendTo, PoolM.bind_of_ok opened] at rest
      cases rest

theorem append_accepted {home : Nat} {value : List UInt8} {page : Page} {r : Pool}
    (filed : p.Filed) (fits : value.length ≤ Block.maxRecord)
    (fetched : Pool.fetch home p = (.ok page, r))
    (accepts : page.block.accepts value.length = true) (maxPages : Nat) :
    ∃ q, append home value maxPages p = (.ok ⟨home, (r.view home).opened.count⟩, q) := by
  obtain ⟨loaded, answered⟩ := Pool.fetch_spec fetched
  obtain ⟨held, -⟩ := answered page rfl
  have room : roomFrom maxPages value.length ∅ home p = (.ok home, r) := by
    rw [roomFrom_eq, if_neg (by simp), PoolM.bind_of_ok fetched, if_pos accepts]
    rfl
  obtain ⟨q, appended, -⟩ := appendTo_spec (loaded.filed filed) held value
  refine ⟨q, ?_⟩
  rw [append, if_neg (by omega), PoolM.bind_of_ok room]
  exact appended

theorem append_ok {home maxPages : Nat} {value : List UInt8} {place : RecordId} (filed : p.Filed)
    (h : append home value maxPages p = (.ok place, q)) :
    value.length ≤ Block.maxRecord ∧ place.slot = (p.view place.page).opened.count ∧
      ∃ growth, Room p.view maxPages value.length home place.page growth ∧
        Pool.Updates p q ((Pool.changedAt place.page
          ((p.view place.page).opened.push value)).after growth) := by
  unfold append at h
  split at h
  · exact (PoolM.throw_ok h).elim
  · next fits =>
    obtain ⟨id, r, found, rest⟩ := PoolM.bind_ok h
    obtain ⟨growth, room, updated, held, kept⟩ := (roomFrom_search found).room_of_ok filed rfl
    obtain ⟨s, answered, written⟩ := appendTo_spec (updated.filed filed) kept value
    rw [answered] at rest
    cases rest
    have same : r.view id = p.view id := by
      rw [updated.view_eq, room.growth_apart]
      rfl
    rw [same] at written ⊢
    exact ⟨Nat.le_of_not_lt fits, rfl, growth, room, updated.trans written⟩

end Chain

end Gazetteer
